/-
This file defines the programs the development reasons about: a program asks
commands of a shared machine, waits for each reply and continues on it, and
ends with a result or an error. One definition of a program then has two
meanings. Run alone, it is a function of the state it starts from and of the
conditions the environment sets at each command. Run next to others, it is a
thread of a pool in which any thread may take the next command, so the state
may change between two commands of one program in every way the other threads
allow.
-/

import Mathlib.Logic.Function.Basic

namespace Interaction

/-! ### Programs -/

/-- A program is finished with an outcome, or asks one command and continues on its reply. -/
inductive Program (Command : Type) (Reply : Command → Type) (Error Result : Type) : Type where
  | done (outcome : Except Error Result)
  | ask (command : Command) (next : Reply command → Program Command Reply Error Result)

variable {Command : Type} {Reply : Command → Type} {Error Result Other Env State : Type}

namespace Program

/-- Sequential composition: the first error ends the program. -/
def bind : Program Command Reply Error Result →
    (Result → Program Command Reply Error Other) → Program Command Reply Error Other
  | .done (.ok result), continuation => continuation result
  | .done (.error error), _ => .done (.error error)
  | .ask command next, continuation => .ask command fun reply => (next reply).bind continuation

/-- Exception handling: an error of the body continues as the handler. -/
def catching : Program Command Reply Error Result →
    (Error → Program Command Reply Error Result) → Program Command Reply Error Result
  | .done (.ok result), _ => .done (.ok result)
  | .done (.error error), handler => handler error
  | .ask command next, handler => .ask command fun reply => (next reply).catching handler

instance : Monad (Program Command Reply Error) where
  pure result := .done (.ok result)
  bind := Program.bind

instance : MonadExceptOf Error (Program Command Reply Error) where
  throw error := .done (.error error)
  tryCatch := Program.catching

instance : MonadLift (Except Error) (Program Command Reply Error) where
  monadLift outcome := .done outcome

/-- Ask one command and return its reply. -/
def perform (command : Command) : Program Command Reply Error (Reply command) :=
  .ask command fun reply => .done (.ok reply)

/-- Whether a program has ended. -/
def ended : Program Command Reply Error Result → Bool
  | .done _ => true
  | .ask _ _ => false

theorem ended_iff {program : Program Command Reply Error Result} :
    program.ended = true ↔ ∃ outcome, program = .done outcome := by
  rcases program with outcome | ⟨command, next⟩ <;> simp [ended]

/-- What a program has ended with. -/
def outcome? : Program Command Reply Error Result → Option (Except Error Result)
  | .done outcome => some outcome
  | .ask _ _ => none

theorem outcome?_eq_some_iff {program : Program Command Reply Error Result}
    {outcome : Except Error Result} :
    program.outcome? = some outcome ↔ program = .done outcome := by
  rcases program with finished | ⟨command, next⟩ <;> simp [outcome?]

/-- Whether a program has ended without an error. -/
def succeeded : Program Command Reply Error Result → Bool
  | .done (.ok _) => true
  | .done (.error _) => false
  | .ask _ _ => false

theorem succeeded_iff {program : Program Command Reply Error Result} :
    program.succeeded = true ↔ ∃ result, program = .done (.ok result) := by
  rcases program with (error | result) | ⟨command, next⟩ <;> simp [succeeded]

/-- However its commands are answered, the program ends with this outcome. -/
def Ends (outcome : Except Error Result) : Program Command Reply Error Result → Prop
  | .done finished => finished = outcome
  | .ask _ next => ∀ reply, (next reply).Ends outcome

theorem ends_done_iff {finished outcome : Except Error Result} :
    (done finished : Program Command Reply Error Result).Ends outcome ↔ finished = outcome :=
  Iff.rfl

theorem ends_ask_iff {outcome : Except Error Result} {command : Command}
    {next : Reply command → Program Command Reply Error Result} :
    (ask command next).Ends outcome ↔ ∀ reply, (next reply).Ends outcome :=
  Iff.rfl

@[simp] theorem pure_eq (result : Result) :
    (pure result : Program Command Reply Error Result) = .done (.ok result) := rfl

@[simp] theorem throw_eq (error : Error) :
    (throw error : Program Command Reply Error Result) = .done (.error error) := rfl

@[simp] theorem lift_eq (outcome : Except Error Result) :
    (liftM outcome : Program Command Reply Error Result) = .done outcome := rfl

@[simp] theorem monadLift_eq (outcome : Except Error Result) :
    (MonadLift.monadLift outcome : Program Command Reply Error Result) = .done outcome := rfl

@[simp] theorem ok_bind (result : Result)
    (continuation : Result → Program Command Reply Error Other) :
    (.done (.ok result) : Program Command Reply Error Result) >>= continuation =
      continuation result := rfl

@[simp] theorem error_bind (error : Error)
    (continuation : Result → Program Command Reply Error Other) :
    (.done (.error error) : Program Command Reply Error Result) >>= continuation =
      .done (.error error) := rfl

@[simp] theorem ask_bind (command : Command)
    (next : Reply command → Program Command Reply Error Result)
    (continuation : Result → Program Command Reply Error Other) :
    (Program.ask command next) >>= continuation =
      .ask command fun reply => next reply >>= continuation := rfl

@[simp] theorem perform_bind (command : Command)
    (continuation : Reply command → Program Command Reply Error Other) :
    (perform command) >>= continuation = .ask command continuation := rfl

@[simp] theorem tryCatch_ok (result : Result)
    (handler : Error → Program Command Reply Error Result) :
    tryCatch (.done (.ok result) : Program Command Reply Error Result) handler =
      .done (.ok result) := rfl

@[simp] theorem tryCatch_error (error : Error)
    (handler : Error → Program Command Reply Error Result) :
    tryCatch (.done (.error error) : Program Command Reply Error Result) handler =
      handler error := rfl

@[simp] theorem tryCatch_ask (command : Command)
    (next : Reply command → Program Command Reply Error Result)
    (handler : Error → Program Command Reply Error Result) :
    tryCatch (Program.ask command next) handler =
      .ask command fun reply => tryCatch (next reply) handler := rfl

theorem bind_assoc {Last : Type} (program : Program Command Reply Error Result)
    (first : Result → Program Command Reply Error Other)
    (second : Other → Program Command Reply Error Last) :
    (program >>= first) >>= second = program >>= fun result => first result >>= second := by
  induction program with
  | done outcome => cases outcome <;> rfl
  | ask command next inductionHypothesis =>
    simp only [ask_bind]
    exact congrArg (Program.ask command) (funext fun reply => inductionHypothesis reply)

theorem bind_pure (program : Program Command Reply Error Result) :
    program >>= (fun result => (.done (.ok result) : Program Command Reply Error Result)) =
      program := by
  induction program with
  | done outcome => cases outcome <;> rfl
  | ask command next inductionHypothesis =>
    simp only [ask_bind]
    exact congrArg (Program.ask command) (funext fun reply => inductionHypothesis reply)

instance : LawfulMonad (Program Command Reply Error) :=
  LawfulMonad.mk' _ bind_pure (fun _ _ => rfl) bind_assoc

end Program

/-! ### Running alone -/

/-- How a machine answers a command: the reply and the state it leaves behind, under the
conditions the environment sets for that step. -/
abbrev Handler (Command : Type) (Reply : Command → Type) (Env State : Type) :=
  (command : Command) → Env → State → Reply command × State

/-- Run a program alone; step `n` is taken under the conditions `envs n`. -/
def Program.run (handler : Handler Command Reply Env State) :
    (Nat → Env) → Program Command Reply Error Result → State → Except Error Result × State
  | _, .done outcome, state => (outcome, state)
  | envs, .ask command next, state =>
    let (reply, after) := handler command (envs 0) state
    (next reply).run handler (fun step => envs (step + 1)) after

theorem Program.run_ask {handler : Handler Command Reply Env State} {envs : Nat → Env}
    {command : Command} {next : Reply command → Program Command Reply Error Result}
    {state : State} :
    (Program.ask command next).run handler envs state =
      (next (handler command (envs 0) state).1).run handler (fun step => envs (step + 1))
        (handler command (envs 0) state).2 := rfl

/-- The runs of a program alone whose steps are all permitted. -/
inductive Runs (handler : Handler Command Reply Env State)
    (permits : State → Command → Env → Prop) :
    Program Command Reply Error Result → State → Except Error Result → State → Prop where
  | done (outcome : Except Error Result) (state : State) :
      Runs handler permits (.done outcome) state outcome state
  | ask {command : Command} {next : Reply command → Program Command Reply Error Result}
      {state after : State} {outcome : Except Error Result} (env : Env)
      (permitted : permits state command env)
      (rest : Runs handler permits (next (handler command env state).1)
        (handler command env state).2 outcome after) :
      Runs handler permits (.ask command next) state outcome after

section Runs

variable {handler : Handler Command Reply Env State} {permits : State → Command → Env → Prop}

theorem runs_done_iff {outcome result : Except Error Result} {state after : State} :
    Runs handler permits (.done outcome) state result after ↔
      result = outcome ∧ after = state := by
  constructor
  · rintro ⟨⟩
    exact ⟨rfl, rfl⟩
  · rintro ⟨rfl, rfl⟩
    exact .done _ _

theorem runs_ask_iff {command : Command}
    {next : Reply command → Program Command Reply Error Result} {state after : State}
    {outcome : Except Error Result} :
    Runs handler permits (.ask command next) state outcome after ↔
      ∃ env, permits state command env ∧ Runs handler permits
        (next (handler command env state).1) (handler command env state).2 outcome after := by
  constructor
  · rintro (_ | ⟨env, permitted, rest⟩)
    exact ⟨env, permitted, rest⟩
  · rintro ⟨env, permitted, rest⟩
    exact .ask env permitted rest

/-- The executable run is one of the runs, when its conditions are permitted throughout. -/
theorem runs_run (envs : Nat → Env) (permitted : ∀ state command step,
    permits state command (envs step)) (program : Program Command Reply Error Result)
    (state : State) :
    Runs handler permits program state (program.run handler envs state).1
      (program.run handler envs state).2 := by
  induction program generalizing envs state with
  | done outcome => exact .done _ _
  | ask command next inductionHypothesis =>
    exact .ask (envs 0) (permitted _ _ _)
      (inductionHypothesis _ _ (fun state command step => permitted state command (step + 1)) _)

end Runs

/-- What is left of a program when its next command has been served in a state. -/
def Program.resume (handler : Handler Command Reply Env State) (env : Env) (state : State) :
    Program Command Reply Error Result → Program Command Reply Error Result
  | .done outcome => .done outcome
  | .ask command next => next (handler command env state).1

/-! ### Running in a pool -/

/-- A pool of threads over one shared state. A thread is the program it has still to run. -/
structure Pool (Thread : Type) (Command : Type) (Reply : Command → Type)
    (Error Result State : Type) where
  state : State
  threads : Thread → Program Command Reply Error Result

variable {Thread : Type} [DecidableEq Thread]

/-- One thread takes its next command. A finished thread has none, and the pool stays as it
is. -/
def Pool.step (handler : Handler Command Reply Env State) (thread : Thread) (env : Env)
    (pool : Pool Thread Command Reply Error Result State) :
    Pool Thread Command Reply Error Result State :=
  match pool.threads thread with
  | .done _ => pool
  | .ask command next =>
    let (reply, after) := handler command env pool.state
    { state := after, threads := Function.update pool.threads thread (next reply) }

theorem Pool.step_of_ask {handler : Handler Command Reply Env State} {thread : Thread} {env : Env}
    {pool : Pool Thread Command Reply Error Result State} {command : Command}
    {next : Reply command → Program Command Reply Error Result}
    (asks : pool.threads thread = .ask command next) :
    pool.step handler thread env =
      { state := (handler command env pool.state).2
        threads := Function.update pool.threads thread
          (next (handler command env pool.state).1) } := by
  simp only [Pool.step, asks]

/-- The thread that moves goes on with what is left of its program. -/
theorem Pool.step_threads {handler : Handler Command Reply Env State} {thread : Thread} {env : Env}
    {pool : Pool Thread Command Reply Error Result State} :
    (pool.step handler thread env).threads thread =
      (pool.threads thread).resume handler env pool.state := by
  cases asks : pool.threads thread with
  | done outcome => simp only [Pool.step, asks, Program.resume]
  | ask command next =>
    rw [Pool.step_of_ask asks]
    exact Function.update_self ..

/-- The other threads stay where they are. -/
theorem Pool.step_other {handler : Handler Command Reply Env State} {thread mover : Thread}
    {env : Env} {pool : Pool Thread Command Reply Error Result State} (other : thread ≠ mover) :
    (pool.step handler mover env).threads thread = pool.threads thread := by
  cases asks : pool.threads mover with
  | done outcome => simp only [Pool.step, asks]
  | ask command next =>
    rw [Pool.step_of_ask asks]
    exact Function.update_of_ne other _ _

/-- The pools that permitted steps lead to, in any order of the threads. -/
inductive Reaches (handler : Handler Command Reply Env State)
    (permits : State → Thread → Command → Env → Prop)
    (start : Pool Thread Command Reply Error Result State) :
    Pool Thread Command Reply Error Result State → Prop where
  | refl : Reaches handler permits start start
  | step {pool : Pool Thread Command Reply Error Result State} {thread : Thread}
      {command : Command} {next : Reply command → Program Command Reply Error Result}
      (before : Reaches handler permits start pool) (env : Env)
      (asks : pool.threads thread = .ask command next)
      (permitted : permits pool.state thread command env) :
      Reaches handler permits start (pool.step handler thread env)

/-- Execute a schedule: which thread moves next, and under which conditions. -/
def Pool.execute (handler : Handler Command Reply Env State) (schedule : List (Thread × Env))
    (pool : Pool Thread Command Reply Error Result State) :
    Pool Thread Command Reply Error Result State :=
  schedule.foldl (fun current move => current.step handler move.1 move.2) pool

/-- Whether every move of a schedule is permitted when its turn comes. -/
def Pool.allows (handler : Handler Command Reply Env State)
    (permits : State → Thread → Command → Env → Prop)
    [∀ state thread command env, Decidable (permits state thread command env)] :
    List (Thread × Env) → Pool Thread Command Reply Error Result State → Bool
  | [], _ => true
  | move :: rest, pool =>
    (match pool.threads move.1 with
      | .done _ => true
      | .ask command _ => decide (permits pool.state move.1 command move.2)) &&
    Pool.allows handler permits rest (pool.step handler move.1 move.2)

/-- A thread whose turn never comes stays where it is. -/
theorem Pool.execute_untouched {handler : Handler Command Reply Env State} {thread : Thread}
    {schedule : List (Thread × Env)} (others : ∀ move ∈ schedule, move.1 ≠ thread)
    (pool : Pool Thread Command Reply Error Result State) :
    (pool.execute handler schedule).threads thread = pool.threads thread := by
  induction schedule generalizing pool with
  | nil => rfl
  | cons move rest inductionHypothesis =>
    have still : (pool.step handler move.1 move.2).threads thread = pool.threads thread :=
      Pool.step_other (others move List.mem_cons_self).symm
    rw [← still]
    exact inductionHypothesis (fun other member => others other (List.mem_cons_of_mem _ member)) _

section Reaches

variable {handler : Handler Command Reply Env State}
  {permits : State → Thread → Command → Env → Prop}
  {start : Pool Thread Command Reply Error Result State}

theorem Reaches.trans {middle last : Pool Thread Command Reply Error Result State}
    (first : Reaches handler permits start middle)
    (second : Reaches handler permits middle last) : Reaches handler permits start last := by
  induction second with
  | refl => exact first
  | step before env asks permitted inductionHypothesis =>
    exact inductionHypothesis.step env asks permitted

theorem Reaches.mono {stricter : State → Thread → Command → Env → Prop}
    (weaker : ∀ state thread command env, stricter state thread command env →
      permits state thread command env) {pool : Pool Thread Command Reply Error Result State}
    (reaches : Reaches handler stricter start pool) : Reaches handler permits start pool := by
  induction reaches with
  | refl => exact .refl
  | step before env asks permitted inductionHypothesis =>
    exact inductionHypothesis.step env asks (weaker _ _ _ _ permitted)

/-- What every command keeps holds in every state of a run. -/
theorem Reaches.keeps {invariant : State → Prop}
    (keeps : ∀ state thread command env, permits state thread command env → invariant state →
      invariant (handler command env state).2)
    {pool : Pool Thread Command Reply Error Result State}
    (reaches : Reaches handler permits start pool) (holds : invariant start.state) :
    invariant pool.state := by
  induction reaches with
  | refl => exact holds
  | step before env asks permitted inductionHypothesis =>
    rw [Pool.step_of_ask asks]
    exact keeps _ _ _ env permitted inductionHypothesis

/-- A thread that has ended keeps its outcome. -/
theorem Reaches.keeps_outcome {pool : Pool Thread Command Reply Error Result State}
    (reaches : Reaches handler permits start pool) {thread : Thread}
    {outcome : Except Error Result} (ended : start.threads thread = .done outcome) :
    pool.threads thread = .done outcome := by
  induction reaches with
  | refl => exact ended
  | @step pool mover command next before env asks permitted inductionHypothesis =>
    have different : thread ≠ mover := by
      rintro rfl
      rw [inductionHypothesis] at asks
      cases asks
    rw [Pool.step_other different]
    exact inductionHypothesis

/-- A move leads to a reachable pool when what its thread asks for is permitted. -/
theorem reaches_move {thread : Thread} {env : Env}
    (permitted : ∀ command next, start.threads thread = .ask command next →
      permits start.state thread command env) :
    Reaches handler permits start (start.step handler thread env) := by
  cases asks : start.threads thread with
  | done outcome =>
    have still : start.step handler thread env = start := by
      simp only [Pool.step, asks]
    rw [still]
    exact .refl
  | ask command next => exact Reaches.refl.step env asks (permitted command next asks)

/-- A schedule of permitted moves leads to a reachable pool. -/
theorem reaches_execute [∀ state thread command env, Decidable (permits state thread command env)]
    (schedule : List (Thread × Env)) (allowed : start.allows handler permits schedule = true) :
    Reaches handler permits start (start.execute handler schedule) := by
  induction schedule generalizing start with
  | nil => exact .refl
  | cons move rest inductionHypothesis =>
    obtain ⟨first, others⟩ := Bool.and_eq_true_iff.mp allowed
    refine (reaches_move fun command next asks => ?_).trans (inductionHypothesis others)
    rw [asks] at first
    exact of_decide_eq_true first

/-- So does one whose moves are permitted in every state. -/
theorem reaches_execute_of_forall (schedule : List (Thread × Env))
    (allowed : ∀ move ∈ schedule, ∀ state command, permits state move.1 command move.2) :
    Reaches handler permits start (start.execute handler schedule) := by
  induction schedule generalizing start with
  | nil => exact .refl
  | cons move rest inductionHypothesis =>
    have moved : Reaches handler permits start (start.step handler move.1 move.2) :=
      reaches_move fun command _ _ => allowed move List.mem_cons_self start.state command
    exact moved.trans (inductionHypothesis fun later member =>
      allowed later (List.mem_cons_of_mem _ member))

end Reaches

end Interaction
