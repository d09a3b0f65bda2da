/-
This file proves what a counter gives that hands out numbers to the threads of a
pool. A thread draws a number in one step and redeems it in another, and any
number of steps of other threads may come between the two, or the thread may
never redeem it. If every program redeems only the number it holds, then the
numbers in the hands of the threads are pairwise distinct and below the counter,
and no number is in use before it is redeemed.
-/

import Mathlib.Order.Basic
import Trutina.Interference

namespace Interaction

variable {Command : Type} {Reply : Command → Type} {Error Result Other Env State Thread : Type}
  {Number : Type}

/-! ### Counters and hands -/

/-- Where the numbers come from and where they go: the counter, the numbers in use, the number
that a reply hands out, and the number that a command redeems. -/
structure Ticketing (Command : Type) (Reply : Command → Type) (State Number : Type) where
  counter : State → Number
  used : State → Number → Prop
  drawn : (command : Command) → Reply command → Option Number
  redeemed : Command → Option Number

/-- The counter never runs back and moves past what it hands out, and a number comes into use only
by being redeemed. -/
structure Ticketing.Lawful [Preorder Number] (ticketing : Ticketing Command Reply State Number)
    (handler : Handler Command Reply Env State) : Prop where
  counts : ∀ command env state,
    ticketing.counter state ≤ ticketing.counter (handler command env state).2
  draws : ∀ command env state number,
    ticketing.drawn command (handler command env state).1 = some number →
      number = ticketing.counter state ∧ number < ticketing.counter (handler command env state).2
  uses : ∀ command env state number, ticketing.used (handler command env state).2 number →
    ticketing.used state number ∨ ticketing.redeemed command = some number

/-- What a thread has: no number yet, a number to redeem, or one it has sent off. -/
inductive Hand (Number : Type) where
  | empty
  | holding (number : Number)
  | spent (number : Number)

/-- The number that was drawn last. -/
def Hand.number : Hand Number → Option Number
  | .empty => none
  | .holding number => some number
  | .spent number => some number

/-- The hand after a reply. -/
def Ticketing.after (ticketing : Ticketing Command Reply State Number) (hand : Hand Number)
    (command : Command) (reply : Reply command) : Hand Number :=
  match ticketing.drawn command reply with
  | some number => .holding number
  | none =>
    match ticketing.redeemed command with
    | some number => .spent number
    | none => hand

/-- Programs that redeem only what they hold, and whose outcome is as promised for the hand they
end with. -/
def Program.Redeems (ticketing : Ticketing Command Reply State Number)
    (promise : Hand Number → Except Error Result → Prop) :
    Hand Number → Program Command Reply Error Result → Prop
  | hand, .done outcome => promise hand outcome
  | hand, .ask command next =>
    (∀ number, ticketing.redeemed command = some number → hand = .holding number) ∧
      ∀ reply, (next reply).Redeems ticketing promise (ticketing.after hand command reply)

section Redeems

variable {ticketing : Ticketing Command Reply State Number}
  {promise : Hand Number → Except Error Other → Prop} {hand : Hand Number} {command : Command}
  {reply : Reply command} {number : Number}

/-- A number in the hand after a reply was drawn with it or was there before. -/
theorem Ticketing.after_number
    (redeems : ∀ number, ticketing.redeemed command = some number → hand = .holding number)
    (has : (ticketing.after hand command reply).number = some number) :
    ticketing.drawn command reply = some number ∨ hand.number = some number := by
  unfold Ticketing.after at has
  split at has
  · rename_i drawn
    exact .inl (drawn.trans has)
  · split at has
    · rename_i redeemed
      rw [redeems _ redeemed]
      exact .inr has
    · exact .inr has

/-- A number to redeem after a reply was drawn with it, or was held and is held still. -/
theorem Ticketing.after_holding (holds : ticketing.after hand command reply = .holding number) :
    ticketing.drawn command reply = some number ∨
      (hand = .holding number ∧ ticketing.redeemed command = none) := by
  unfold Ticketing.after at holds
  split at holds
  · rename_i drawn
    cases holds
    exact .inl drawn
  · split at holds
    · cases holds
    · rename_i kept
      exact .inr ⟨holds, kept⟩

/-- A command that neither draws nor redeems. -/
def Ticketing.Plain (ticketing : Ticketing Command Reply State Number) (command : Command) : Prop :=
  ticketing.redeemed command = none ∧ ∀ reply, ticketing.drawn command reply = none

/-- A plain command leaves the hand as it is. -/
theorem Program.redeems_ask_of_plain {next : Reply command → Program Command Reply Error Other}
    (plain : ticketing.Plain command)
    (rest : ∀ reply, (next reply).Redeems ticketing promise hand) :
    (Program.ask command next).Redeems ticketing promise hand := by
  obtain ⟨redeems, draws⟩ := plain
  refine ⟨fun number redeemed => ?_, fun reply => ?_⟩
  · rw [redeems] at redeemed
    cases redeemed
  · have same : ticketing.after hand command reply = hand := by
      simp only [Ticketing.after, draws, redeems]
    rw [same]
    exact rest reply

/-- A program of plain commands keeps its hand. -/
theorem Program.Issues.redeems {program : Program Command Reply Error Other}
    (issues : program.Issues ticketing.Plain) (ends : ∀ outcome, promise hand outcome) :
    program.Redeems ticketing promise hand := by
  induction program with
  | done outcome => exact ends outcome
  | ask command next inductionHypothesis =>
    obtain ⟨plain, others⟩ := Program.issues_ask_iff.mp issues
    exact redeems_ask_of_plain plain fun reply => inductionHypothesis reply (others reply)

/-- A first part of plain commands leaves the hand as it is. -/
theorem Program.Issues.redeems_bind {program : Program Command Reply Error Result}
    {continuation : Result → Program Command Reply Error Other}
    (issues : program.Issues ticketing.Plain) (fails : ∀ error, promise hand (.error error))
    (rest : ∀ result, (continuation result).Redeems ticketing promise hand) :
    (program >>= continuation).Redeems ticketing promise hand := by
  induction program with
  | done outcome =>
    cases outcome with
    | error error => exact fails error
    | ok result => exact rest result
  | ask command next inductionHypothesis =>
    obtain ⟨plain, others⟩ := Program.issues_ask_iff.mp issues
    exact redeems_ask_of_plain plain fun reply => inductionHypothesis reply (others reply)

end Redeems

/-! ### Pools -/

/-- The hands of the threads of a pool. Numbers start at `least`. -/
structure Pool.Ticketed [Preorder Number] (ticketing : Ticketing Command Reply State Number)
    (promise : Thread → Hand Number → Except Error Result → Prop) (least : Number)
    (hands : Thread → Hand Number)
    (pool : Pool Thread Command Reply Error Result State) : Prop where
  programs : ∀ thread, (pool.threads thread).Redeems ticketing (promise thread) (hands thread)
  bounds : ∀ thread number, (hands thread).number = some number →
    least ≤ number ∧ number < ticketing.counter pool.state
  unused : ∀ thread number, hands thread = .holding number → ¬ticketing.used pool.state number
  distinct : ∀ first second number, (hands first).number = some number →
    (hands second).number = some number → first = second
  below : ∀ number, ticketing.used pool.state number → number < ticketing.counter pool.state
  started : least ≤ ticketing.counter pool.state

section Pools

variable [Preorder Number] {handler : Handler Command Reply Env State}
  {ticketing : Ticketing Command Reply State Number}
  {promise : Thread → Hand Number → Except Error Result → Prop} {least : Number}
  {hands : Thread → Hand Number}
  {pool start : Pool Thread Command Reply Error Result State} {thread : Thread}
  {command : Command} {next : Reply command → Program Command Reply Error Result}

/-- What a thread is about to redeem is not in use, and in no other hand. -/
theorem Pool.Ticketed.redeems (ticketed : pool.Ticketed ticketing promise least hands)
    (asks : pool.threads thread = .ask command next) {number : Number}
    (redeemed : ticketing.redeemed command = some number) : hands thread = .holding number := by
  have program := ticketed.programs thread
  rw [asks] at program
  exact program.1 number redeemed

/-- Threads that start with empty hands. -/
theorem Pool.ticketed_of_empty
    (programs : ∀ thread, (start.threads thread).Redeems ticketing (promise thread) .empty)
    (below : ∀ number, ticketing.used start.state number →
      number < ticketing.counter start.state) :
    start.Ticketed ticketing promise (ticketing.counter start.state) fun _ => .empty where
  programs := programs
  bounds _ _ has := by cases has
  unused _ _ holds := by cases holds
  distinct _ _ _ has := by cases has
  below := below
  started := le_refl _

variable [DecidableEq Thread]

/-- One step of any thread. -/
theorem Pool.Ticketed.step (lawful : ticketing.Lawful handler)
    (ticketed : pool.Ticketed ticketing promise least hands) (env : Env)
    (asks : pool.threads thread = .ask command next) :
    (pool.step handler thread env).Ticketed ticketing promise least
      (Function.update hands thread
        (ticketing.after (hands thread) command (handler command env pool.state).1)) := by
  have counts := lawful.counts command env pool.state
  have uses := lawful.uses command env pool.state
  have program := ticketed.programs thread
  rw [asks] at program
  have redeems := program.1
  -- What comes into use was held by the mover, so it is below the counter.
  have usedBelow : ∀ number, ticketing.used (handler command env pool.state).2 number →
      number < ticketing.counter pool.state := by
    intro number used
    rcases uses number used with already | redeemed
    · exact ticketed.below number already
    · exact (ticketed.bounds thread number (by rw [redeems number redeemed]; rfl)).2
  -- What the mover draws is the counter itself, so nobody has it.
  have draws : ∀ number, ticketing.drawn command (handler command env pool.state).1 =
      some number → number = ticketing.counter pool.state ∧
        number < ticketing.counter (handler command env pool.state).2 :=
    fun number drawn => lawful.draws command env pool.state number drawn
  have fresh : ∀ number, ticketing.drawn command (handler command env pool.state).1 =
      some number → ∀ other, (hands other).number ≠ some number := by
    intro number drawn other has
    have bound := (ticketed.bounds other number has).2
    rw [(draws number drawn).1] at bound
    exact lt_irrefl _ bound
  rw [Pool.step_of_ask asks]
  refine ⟨fun other => ?_, fun other number has => ?_, fun other number holds used => ?_,
    fun first second number left right => ?_, fun number used => (usedBelow number used).trans_le
      counts, ticketed.started.trans counts⟩
  · by_cases same : other = thread
    · subst same
      simpa only [Function.update_self] using program.2 _
    · simpa only [Function.update_of_ne same] using ticketed.programs other
  · by_cases same : other = thread
    · subst same
      rw [Function.update_self] at has
      rcases Ticketing.after_number redeems has with drawn | before
      · exact ⟨(draws number drawn).1 ▸ ticketed.started, (draws number drawn).2⟩
      · obtain ⟨lower, upper⟩ := ticketed.bounds other number before
        exact ⟨lower, upper.trans_le counts⟩
    · rw [Function.update_of_ne same] at has
      obtain ⟨lower, upper⟩ := ticketed.bounds other number has
      exact ⟨lower, upper.trans_le counts⟩
  · by_cases same : other = thread
    · subst same
      rw [Function.update_self] at holds
      rcases Ticketing.after_holding holds with drawn | ⟨held, kept⟩
      · exact absurd (usedBelow number used) ((draws number drawn).1 ▸ lt_irrefl _)
      · rcases uses number used with already | redeemed
        · exact ticketed.unused other number held already
        · rw [kept] at redeemed
          cases redeemed
    · rw [Function.update_of_ne same] at holds
      rcases uses number used with already | redeemed
      · exact ticketed.unused other number holds already
      · exact same (ticketed.distinct other thread number (by rw [holds]; rfl)
          (by rw [redeems number redeemed]; rfl))
  · have mine : ∀ other, (Function.update hands thread
        (ticketing.after (hands thread) command (handler command env pool.state).1) other).number =
          some number → (hands other).number = some number ∨ (other = thread ∧
            ticketing.drawn command (handler command env pool.state).1 = some number) := by
      intro other has
      by_cases same : other = thread
      · subst same
        rw [Function.update_self] at has
        exact (Ticketing.after_number redeems has).symm.imp_right fun drawn => ⟨rfl, drawn⟩
      · rw [Function.update_of_ne same] at has
        exact .inl has
    rcases mine first left with before | ⟨rfl, drawn⟩
    · rcases mine second right with before' | ⟨_, drawn⟩
      · exact ticketed.distinct first second number before before'
      · exact absurd before (fresh number drawn first)
    · rcases mine second right with before' | ⟨rfl, _⟩
      · exact absurd before' (fresh number drawn second)
      · rfl

/-- In every run some assignment of hands fits, and the counter has not run back. -/
theorem Reaches.ticketed {permits : State → Thread → Command → Env → Prop}
    (lawful : ticketing.Lawful handler) (ticketed : start.Ticketed ticketing promise least hands)
    (reaches : Reaches handler permits start pool) :
    (∃ hands, pool.Ticketed ticketing promise least hands) ∧
      ticketing.counter start.state ≤ ticketing.counter pool.state := by
  induction reaches with
  | refl => exact ⟨⟨hands, ticketed⟩, le_refl _⟩
  | step before env asks _ inductionHypothesis =>
    obtain ⟨⟨hands, ticketed⟩, counted⟩ := inductionHypothesis
    refine ⟨⟨_, ticketed.step lawful env asks⟩, counted.trans ?_⟩
    rw [Pool.step_of_ask asks]
    exact lawful.counts _ env _

end Pools

end Interaction
