/-
This file proves properties of programs that run in a pool, one program at a
time. Other threads may change the state between two commands of a program, but
only as far as a regime allows: every state keeps an invariant, and every step
is a step of a reflexive and transitive relation. A program is valid in a state
when each of its commands keeps the regime, whatever the others have done
before it, and its outcome is as promised in every later state. If every thread
of a pool is valid at the start, then every reachable pool keeps the invariant
and every thread is still valid in it.
-/

import Trutina.Interaction

namespace Interaction

variable {Command : Type} {Reply : Command → Type} {Error Result Other Env State Thread : Type}

/-! ### Regimes and tasks -/

/-- What all threads of a pool rely on and keep: an invariant of the shared state, and a
relation between each state and the later ones. -/
structure Regime (State : Type) where
  invariant : State → Prop
  evolves : State → State → Prop
  refl : ∀ state, evolves state state
  trans : ∀ {first second third}, evolves first second → evolves second third →
    evolves first third

/-- What one thread is held to: the conditions under which its commands are taken, what each
of its steps must look like, and what its outcome means. -/
structure Task (Command : Type) (Reply : Command → Type) (Error Result Env State : Type) where
  permits : State → Command → Env → Prop
  shows : State → Command → Env → Program Command Reply Error Result → Prop
  ensures : Except Error Result → State → Prop

/-- Valid programs. Each command is taken in some later state, keeps the regime and shows what
the task asks for; the outcome holds in every later state. -/
def Program.Valid (handler : Handler Command Reply Env State) (regime : Regime State)
    (task : Task Command Reply Error Result Env State) :
    Program Command Reply Error Result → State → Prop
  | .done outcome, state => ∀ later, regime.evolves state later → regime.invariant later →
      task.ensures outcome later
  | .ask command next, state => ∀ later, regime.evolves state later → regime.invariant later →
      ∀ env, task.permits later command env →
        regime.invariant (handler command env later).2 ∧
        regime.evolves later (handler command env later).2 ∧
        task.shows later command env (next (handler command env later).1) ∧
        (next (handler command env later).1).Valid handler regime task
          (handler command env later).2

variable {handler : Handler Command Reply Env State} {regime : Regime State}
  {task : Task Command Reply Error Result Env State}
  {program : Program Command Reply Error Result} {state : State}

theorem Program.valid_done {outcome : Except Error Result}
    (promised : ∀ later, regime.evolves state later → regime.invariant later →
      task.ensures outcome later) : (Program.done outcome).Valid handler regime task state :=
  promised

theorem Program.valid_ask {command : Command}
    {next : Reply command → Program Command Reply Error Result}
    (step : ∀ later, regime.evolves state later → regime.invariant later →
      ∀ env, task.permits later command env →
        regime.invariant (handler command env later).2 ∧
        regime.evolves later (handler command env later).2 ∧
        task.shows later command env (next (handler command env later).1) ∧
        (next (handler command env later).1).Valid handler regime task
          (handler command env later).2) :
    (Program.ask command next).Valid handler regime task state :=
  step

theorem Program.Valid.later {after : State} (valid : program.Valid handler regime task state)
    (evolved : regime.evolves state after) : program.Valid handler regime task after := by
  cases program with
  | done outcome =>
    exact fun later further => valid later (regime.trans evolved further)
  | ask command next =>
    exact fun later further => valid later (regime.trans evolved further)

theorem Program.valid_of_later (valid : ∀ later, regime.evolves state later →
    regime.invariant later → program.Valid handler regime task later) :
    program.Valid handler regime task state := by
  cases program with
  | done outcome =>
    exact fun later evolved holds => valid later evolved holds later (regime.refl later) holds
  | ask command next =>
    exact fun later evolved holds => valid later evolved holds later (regime.refl later) holds

theorem Program.Valid.mono {weaker : Task Command Reply Error Result Env State}
    (valid : program.Valid handler regime task state)
    (permits : ∀ state command env, weaker.permits state command env →
      task.permits state command env)
    (shows : ∀ state command env next, task.shows state command env next →
      weaker.shows state command env next)
    (ensures : ∀ outcome state, regime.invariant state → task.ensures outcome state →
      weaker.ensures outcome state) :
    program.Valid handler regime weaker state := by
  induction program generalizing state with
  | done outcome =>
    exact fun later evolved holds => ensures _ _ holds (valid later evolved holds)
  | ask command next inductionHypothesis =>
    intro later evolved holds env permitted
    obtain ⟨keeps, moves, shown, rest⟩ := valid later evolved holds env
      (permits _ _ _ permitted)
    exact ⟨keeps, moves, shows _ _ _ _ shown, inductionHypothesis _ rest⟩

/-! ### Composition -/

/-- The rule for sequential composition. The first part is held to a task of its own, whose
steps must show what the whole asks for once the rest is appended. -/
theorem Program.Valid.bind {whole : Task Command Reply Error Other Env State}
    {continuation : Result → Program Command Reply Error Other}
    (first : program.Valid handler regime task state)
    (permits : ∀ state command env, whole.permits state command env →
      task.permits state command env)
    (shows : ∀ state command env next, task.shows state command env next →
      whole.shows state command env (next >>= continuation))
    (succeeds : ∀ result later, regime.invariant later → task.ensures (.ok result) later →
      (continuation result).Valid handler regime whole later)
    (fails : ∀ error later, regime.invariant later → task.ensures (.error error) later →
      whole.ensures (.error error) later) :
    (program >>= continuation).Valid handler regime whole state := by
  induction program generalizing state with
  | done outcome =>
    cases outcome with
    | error error =>
      exact fun later evolved holds => fails error later holds (first later evolved holds)
    | ok result =>
      exact Program.valid_of_later fun later evolved holds =>
        succeeds result later holds (first later evolved holds)
  | ask command next inductionHypothesis =>
    intro later evolved holds env permitted
    obtain ⟨keeps, moves, shown, rest⟩ := first later evolved holds env
      (permits _ _ _ permitted)
    exact ⟨keeps, moves, shows _ _ _ _ shown, inductionHypothesis _ rest⟩

/-- The rule for exception handling. -/
theorem Program.Valid.catching {whole : Task Command Reply Error Result Env State}
    {onError : Error → Program Command Reply Error Result}
    (first : program.Valid handler regime task state)
    (permits : ∀ state command env, whole.permits state command env →
      task.permits state command env)
    (shows : ∀ state command env next, task.shows state command env next →
      whole.shows state command env (tryCatch next onError))
    (succeeds : ∀ result later, regime.invariant later → task.ensures (.ok result) later →
      whole.ensures (.ok result) later)
    (fails : ∀ error later, regime.invariant later → task.ensures (.error error) later →
      (onError error).Valid handler regime whole later) :
    (tryCatch program onError).Valid handler regime whole state := by
  induction program generalizing state with
  | done outcome =>
    cases outcome with
    | error error =>
      exact Program.valid_of_later fun later evolved holds =>
        fails error later holds (first later evolved holds)
    | ok result =>
      exact fun later evolved holds => succeeds result later holds (first later evolved holds)
  | ask command next inductionHypothesis =>
    intro later evolved holds env permitted
    obtain ⟨keeps, moves, shown, rest⟩ := first later evolved holds env
      (permits _ _ _ permitted)
    exact ⟨keeps, moves, shows _ _ _ _ shown, inductionHypothesis _ rest⟩

/-- A program whose commands all belong to a set asks only commands of that set. -/
def Program.Issues (commands : Command → Prop) : Program Command Reply Error Result → Prop
  | .done _ => True
  | .ask command next => commands command ∧ ∀ reply, (next reply).Issues commands

theorem Program.issues_done {commands : Command → Prop} (outcome : Except Error Result) :
    (Program.done outcome : Program Command Reply Error Result).Issues commands :=
  trivial

theorem Program.issues_ask {commands : Command → Prop} {command : Command}
    {next : Reply command → Program Command Reply Error Result} (first : commands command)
    (rest : ∀ reply, (next reply).Issues commands) :
    (Program.ask command next).Issues commands :=
  ⟨first, rest⟩

theorem Program.issues_ask_iff {commands : Command → Prop} {command : Command}
    {next : Reply command → Program Command Reply Error Result} :
    (Program.ask command next).Issues commands ↔
      commands command ∧ ∀ reply, (next reply).Issues commands :=
  Iff.rfl

/-- Every program asks only commands. -/
theorem Program.issues_all (program : Program Command Reply Error Result) :
    program.Issues fun _ => True := by
  induction program with
  | done outcome => trivial
  | ask command next inductionHypothesis => exact ⟨trivial, inductionHypothesis⟩

theorem Program.Issues.mono {commands others : Command → Prop} (issues : program.Issues commands)
    (weaker : ∀ command, commands command → others command) : program.Issues others := by
  induction program with
  | done outcome => trivial
  | ask command next inductionHypothesis =>
    exact ⟨weaker _ issues.1, fun reply => inductionHypothesis reply (issues.2 reply)⟩

theorem Program.Issues.bind {commands : Command → Prop}
    {continuation : Result → Program Command Reply Error Other}
    (first : program.Issues commands) (rest : ∀ result, (continuation result).Issues commands) :
    (program >>= continuation).Issues commands := by
  induction program with
  | done outcome =>
    cases outcome with
    | error error => trivial
    | ok result => exact rest result
  | ask command next inductionHypothesis =>
    exact ⟨first.1, fun reply => inductionHypothesis reply (first.2 reply)⟩

theorem Program.Issues.catching {commands : Command → Prop}
    {onError : Error → Program Command Reply Error Result}
    (first : program.Issues commands) (rest : ∀ error, (onError error).Issues commands) :
    (tryCatch program onError).Issues commands := by
  induction program with
  | done outcome =>
    cases outcome with
    | error error => exact rest error
    | ok result => trivial
  | ask command next inductionHypothesis =>
    exact ⟨first.1, fun reply => inductionHypothesis reply (first.2 reply)⟩

/-- A program that only asks commands which always keep the regime is valid, with nothing to
show and nothing promised. -/
theorem Program.Issues.valid {commands : Command → Prop} (issues : program.Issues commands)
    (keeps : ∀ command env later, commands command → regime.invariant later →
      task.permits later command env →
      regime.invariant (handler command env later).2 ∧
        regime.evolves later (handler command env later).2)
    (shows : ∀ later command env next, commands command → regime.invariant later →
      task.permits later command env → task.shows later command env next)
    (ensures : ∀ outcome later, task.ensures outcome later) :
    program.Valid handler regime task state := by
  induction program generalizing state with
  | done outcome => exact fun later _ _ => ensures outcome later
  | ask command next inductionHypothesis =>
    intro later _ holds env permitted
    obtain ⟨kept, moved⟩ := keeps command env later issues.1 holds permitted
    exact ⟨kept, moved, shows _ _ _ _ issues.1 holds permitted,
      inductionHypothesis _ (issues.2 _)⟩

/-- The rule for a first part of which only the commands matter. -/
theorem Program.Issues.valid_bind {commands : Command → Prop}
    {whole : Task Command Reply Error Other Env State}
    {continuation : Result → Program Command Reply Error Other}
    (issues : program.Issues commands)
    (keeps : ∀ command env later, commands command → regime.invariant later →
      whole.permits later command env →
      regime.invariant (handler command env later).2 ∧
        regime.evolves later (handler command env later).2)
    (shows : ∀ command env later next, commands command → whole.shows later command env next)
    (fails : ∀ error later, whole.ensures (.error error) later)
    (rest : ∀ result later, regime.evolves state later → regime.invariant later →
      (continuation result).Valid handler regime whole later) :
    (program >>= continuation).Valid handler regime whole state := by
  induction program generalizing state with
  | done outcome =>
    cases outcome with
    | error error => exact fun later _ _ => fails error later
    | ok result => exact Program.valid_of_later (rest result)
  | ask command next inductionHypothesis =>
    intro later evolved holds env permitted
    obtain ⟨kept, moved⟩ := keeps command env later issues.1 holds permitted
    refine ⟨kept, moved, shows _ _ _ _ issues.1, inductionHypothesis _ (issues.2 _) ?_⟩
    exact fun result last further => rest result last
      (regime.trans evolved (regime.trans moved further))

/-- A valid program that runs alone keeps the invariant and its promise. -/
theorem Program.Valid.runs {permits : State → Command → Env → Prop} {after : State}
    {outcome : Except Error Result} (valid : program.Valid handler regime task state)
    (holds : regime.invariant state)
    (permitted : ∀ state command env, permits state command env → task.permits state command env)
    (runs : Runs handler permits program state outcome after) :
    regime.invariant after ∧ regime.evolves state after ∧ task.ensures outcome after := by
  induction runs with
  | done outcome state =>
    exact ⟨holds, regime.refl _, valid state (regime.refl _) holds⟩
  | ask env allowed _ inductionHypothesis =>
    obtain ⟨keeps, moves, _, rest⟩ := valid _ (regime.refl _) holds env (permitted _ _ _ allowed)
    obtain ⟨holds, further, promised⟩ := inductionHypothesis rest keeps
    exact ⟨holds, regime.trans moves further, promised⟩

/-! ### Pools of valid threads -/

/-- Every thread is valid with respect to its own task, and the invariant holds. -/
structure Pool.Valid (handler : Handler Command Reply Env State) (regime : Regime State)
    (tasks : Thread → Task Command Reply Error Result Env State)
    (pool : Pool Thread Command Reply Error Result State) : Prop where
  invariant : regime.invariant pool.state
  threads : ∀ thread, (pool.threads thread).Valid handler regime (tasks thread) pool.state

variable {tasks : Thread → Task Command Reply Error Result Env State}
  {start pool : Pool Thread Command Reply Error Result State} {thread : Thread}
  {command : Command} {next : Reply command → Program Command Reply Error Result}

/-- In a valid pool, a finished thread has kept its promise. -/
theorem Pool.Valid.ensures (valid : pool.Valid handler regime tasks)
    {outcome : Except Error Result} (finished : pool.threads thread = .done outcome) :
    (tasks thread).ensures outcome pool.state := by
  have mover := valid.threads thread
  rw [finished] at mover
  exact mover pool.state (regime.refl _) valid.invariant

variable [DecidableEq Thread]

/-- What one permitted step of a valid pool does. -/
theorem Pool.Valid.step_spec (valid : pool.Valid handler regime tasks) (env : Env)
    (asks : pool.threads thread = .ask command next)
    (permitted : (tasks thread).permits pool.state command env) :
    regime.evolves pool.state (pool.step handler thread env).state ∧
      (tasks thread).shows pool.state command env
        (next (handler command env pool.state).1) ∧
      (pool.step handler thread env).Valid handler regime tasks := by
  have mover := valid.threads thread
  rw [asks] at mover
  obtain ⟨keeps, moves, shown, rest⟩ :=
    mover pool.state (regime.refl _) valid.invariant env permitted
  rw [Pool.step_of_ask asks]
  refine ⟨moves, shown, keeps, fun other => ?_⟩
  by_cases same : other = thread
  · subst same
    simpa only [Function.update_self] using rest
  · simpa only [Function.update_of_ne same] using (valid.threads other).later moves

/-- A thread never issues a command that its program does not. -/
theorem Reaches.issues {permits : State → Thread → Command → Env → Prop}
    {commands : Thread → Command → Prop}
    (issues : ∀ thread, (start.threads thread).Issues (commands thread))
    (reaches : Reaches handler permits start pool) :
    ∀ thread, (pool.threads thread).Issues (commands thread) := by
  induction reaches with
  | refl => exact issues
  | @step current mover command next before env asks _ inductionHypothesis =>
    intro thread
    rw [Pool.step_of_ask asks]
    by_cases same : thread = mover
    · subst same
      have own := inductionHypothesis thread
      rw [asks] at own
      simpa only [Function.update_self] using own.2 _
    · simpa only [Function.update_of_ne same] using inductionHypothesis thread

/-- Valid pools stay valid, and their states evolve. -/
theorem Reaches.valid (valid : start.Valid handler regime tasks)
    (reaches : Reaches handler (fun state thread => (tasks thread).permits state) start pool) :
    pool.Valid handler regime tasks ∧ regime.evolves start.state pool.state := by
  induction reaches with
  | refl => exact ⟨valid, regime.refl _⟩
  | step before env asks permitted inductionHypothesis =>
    obtain ⟨moves, _, still⟩ := inductionHypothesis.1.step_spec env asks permitted
    exact ⟨still, regime.trans inductionHypothesis.2 moves⟩

/-- A milestone that takes something free can be passed once: what is taken stays taken, so of a
group of threads at most one has passed. -/
theorem Reaches.passes_once (group : Thread → Prop)
    (passed : Program Command Reply Error Result → Prop) (taken : State → Prop)
    (valid : start.Valid handler regime tasks)
    (reaches : Reaches handler (fun state thread => (tasks thread).permits state) start pool)
    (fresh : ∀ thread, group thread → ¬passed (start.threads thread))
    (stays : ∀ state after, regime.evolves state after → taken state → taken after)
    (takes : ∀ state thread command next env, group thread →
      (tasks thread).shows state command env (next (handler command env state).1) →
      ¬passed (.ask command next) → passed (next (handler command env state).1) →
      ¬taken state ∧ taken (handler command env state).2) :
    (∀ thread, group thread → passed (pool.threads thread) → taken pool.state) ∧
      ∀ first second, group first → group second → passed (pool.threads first) →
        passed (pool.threads second) → first = second := by
  induction reaches with
  | refl =>
    exact ⟨fun thread member past => absurd past (fresh thread member),
      fun first _ member _ past => absurd past (fresh first member)⟩
  | @step current mover command next before env asks permitted inductionHypothesis =>
    obtain ⟨implies, unique⟩ := inductionHypothesis
    obtain ⟨moves, shown, _⟩ := (Reaches.valid valid before).1.step_spec env asks permitted
    have own : (current.step handler mover env).threads mover =
        next (handler command env current.state).1 := by
      rw [Pool.step_of_ask asks]
      exact Function.update_self _ _ _
    have others : ∀ other, other ≠ mover →
        (current.step handler mover env).threads other = current.threads other := fun other no => by
      rw [Pool.step_of_ask asks]
      exact Function.update_of_ne no _ _
    have after :
        (current.step handler mover env).state = (handler command env current.state).2 := by
      rw [Pool.step_of_ask asks]
    -- The mover either had passed before, or takes what nobody else has taken.
    have mine : group mover → passed (next (handler command env current.state).1) →
        passed (current.threads mover) ∨
          (¬taken current.state ∧ taken (current.step handler mover env).state) := by
      intro member past
      by_cases already : passed (current.threads mover)
      · exact .inl already
      · rw [asks] at already
        rw [after]
        exact .inr (takes _ mover command next env member shown already past)
    have passes : ∀ thread, group thread →
        passed ((current.step handler mover env).threads thread) →
          passed (current.threads thread) ∨ (thread = mover ∧ ¬taken current.state ∧
            taken (current.step handler mover env).state) := by
      intro thread member past
      by_cases same : thread = mover
      · subst same
        rw [own] at past
        exact (mine member past).imp_right fun took => ⟨rfl, took⟩
      · rw [others thread same] at past
        exact .inl past
    refine ⟨fun thread member past => ?_, fun first second left right pastFirst pastSecond => ?_⟩
    · rcases passes thread member past with already | ⟨_, _, took⟩
      · exact stays _ _ moves (implies thread member already)
      · exact took
    · rcases passes first left pastFirst with earlier | ⟨rfl, free, _⟩
      · rcases passes second right pastSecond with earlier' | ⟨rfl, free, _⟩
        · exact unique first second left right earlier earlier'
        · exact absurd (implies first left earlier) free
      · rcases passes second right pastSecond with earlier' | ⟨same, _⟩
        · exact absurd (implies second right earlier') free
        · exact same.symm

-- From here on these are used through their rules. Unfolding them would run the program.
attribute [irreducible] Program.Valid Program.Issues

end Interaction
