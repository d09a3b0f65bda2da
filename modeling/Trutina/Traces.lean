/-
This file follows programs by what they ask and what they are told. A run alone
has the list of its commands. A run of a pool has a trace: for each step the
thread that moved, its command, the conditions and the state it found. A monitor
reads along with one thread. A program conforms to it when it asks only what the
monitor allows and ends as promised, whatever it is told of what the monitor
expects. In every run of a pool whose replies are the expected ones, each thread
conforms to its monitor from where its own moves have led it, so what the
monitors allow is what the steps of the run look like.
-/

import Mathlib.Data.List.Dedup
import Mathlib.Data.List.Induction
import Trutina.Interference

namespace Interaction

variable {Command : Type} {Reply : Command → Type} {Error Result Other Env State Thread : Type}

/-! ### Running alone -/

/-- The commands of a run alone. -/
def Program.asked (handler : Handler Command Reply Env State) :
    (Nat → Env) → Program Command Reply Error Result → State → List Command
  | _, .done _, _ => []
  | envs, .ask command next, state =>
    command :: (next (handler command (envs 0) state).1).asked handler
      (fun step => envs (step + 1)) (handler command (envs 0) state).2

/-- A program whose errors are converted. -/
def Program.mapError {Failure : Type} (convert : Error → Failure) :
    Program Command Reply Error Result → Program Command Reply Failure Result
  | .done outcome => .done (outcome.mapError convert)
  | .ask command next => .ask command fun reply => (next reply).mapError convert

section Parts

variable {handler : Handler Command Reply Env State} {permits : State → Command → Env → Prop}
  {state after : State} {program : Program Command Reply Error Result}

theorem runs_mapError_iff {Failure : Type} {convert : Error → Failure}
    {outcome : Except Failure Result} :
    Runs handler permits (program.mapError convert) state outcome after ↔
      ∃ own, Runs handler permits program state own after ∧ outcome = own.mapError convert := by
  induction program generalizing state with
  | done own =>
    rw [Program.mapError, runs_done_iff]
    constructor
    · rintro ⟨rfl, rfl⟩
      exact ⟨own, .done _ _, rfl⟩
    · rintro ⟨_, runs, rfl⟩
      obtain ⟨rfl, rfl⟩ := runs_done_iff.mp runs
      exact ⟨rfl, rfl⟩
  | ask command next inductionHypothesis =>
    rw [Program.mapError, runs_ask_iff]
    constructor
    · rintro ⟨env, permitted, rest⟩
      obtain ⟨own, runs, same⟩ := (inductionHypothesis _).mp rest
      exact ⟨own, .ask env permitted runs, same⟩
    · rintro ⟨own, runs, same⟩
      obtain ⟨env, permitted, rest⟩ := runs_ask_iff.mp runs
      exact ⟨env, permitted, (inductionHypothesis _).mpr ⟨own, rest, same⟩⟩

/-- A run of a composition that succeeds runs both parts. -/
theorem runs_bind_ok {continuation : Result → Program Command Reply Error Other} {last : Other}
    (runs : Runs handler permits (program >>= continuation) state (.ok last) after) :
    ∃ result middle, Runs handler permits program state (.ok result) middle ∧
      Runs handler permits (continuation result) middle (.ok last) after := by
  induction program generalizing state with
  | done own =>
    cases own with
    | error error => cases (runs_done_iff.mp runs).1
    | ok result => exact ⟨result, state, .done _ _, runs⟩
  | ask command next inductionHypothesis =>
    obtain ⟨env, permitted, rest⟩ := runs_ask_iff.mp runs
    obtain ⟨result, middle, first, second⟩ := inductionHypothesis _ rest
    exact ⟨result, middle, .ask env permitted first, second⟩

theorem Runs.map {outcome : Except Error Result} (function : Result → Other)
    (runs : Runs handler permits program state outcome after) :
    Runs handler permits (function <$> program) state (outcome.map function) after := by
  induction runs with
  | done outcome state => cases outcome <;> exact .done _ _
  | ask env permitted rest inductionHypothesis => exact .ask env permitted inductionHypothesis

/-- A run with a handler for errors succeeds at once, or runs the handler for its error. -/
theorem runs_tryCatch {onError : Error → Program Command Reply Error Result}
    {outcome : Except Error Result}
    (runs : Runs handler permits (tryCatch program onError) state outcome after) :
    (∃ result, Runs handler permits program state (.ok result) after ∧ outcome = .ok result) ∨
    ∃ error middle, Runs handler permits program state (.error error) middle ∧
      Runs handler permits (onError error) middle outcome after := by
  induction program generalizing state with
  | done own =>
    cases own with
    | error error => exact .inr ⟨error, state, .done _ _, runs⟩
    | ok result =>
      obtain ⟨rfl, rfl⟩ := runs_done_iff.mp runs
      exact .inl ⟨result, .done _ _, rfl⟩
  | ask command next inductionHypothesis =>
    obtain ⟨env, permitted, rest⟩ := runs_ask_iff.mp runs
    rcases inductionHypothesis _ rest with ⟨result, first, same⟩ | ⟨error, middle, first, second⟩
    · exact .inl ⟨result, .ask env permitted first, same⟩
    · exact .inr ⟨error, middle, .ask env permitted first, second⟩

end Parts

theorem Program.issues_perform {commands : Command → Prop} {command : Command}
    (own : commands command) :
    (Program.perform command : Program Command Reply Error (Reply command)).Issues commands :=
  Program.issues_ask own fun _ => Program.issues_done _

section Asked

variable {handler : Handler Command Reply Env State} {envs : Nat → Env} {state : State}

@[simp] theorem Program.asked_done (outcome : Except Error Result) :
    (Program.done outcome : Program Command Reply Error Result).asked handler envs state = [] :=
  rfl

theorem Program.asked_ask {command : Command}
    {next : Reply command → Program Command Reply Error Result} :
    (Program.ask command next).asked handler envs state =
      command :: (next (handler command (envs 0) state).1).asked handler
        (fun step => envs (step + 1)) (handler command (envs 0) state).2 := rfl

end Asked

/-! ### Traces of a pool -/

/-- What all commands that the threads issue keep holds in every state of a run. -/
theorem Reaches.keeps_issued [DecidableEq Thread] {handler : Handler Command Reply Env State}
    {permits : State → Thread → Command → Env → Prop}
    {start pool : Pool Thread Command Reply Error Result State}
    {commands : Thread → Command → Prop} {invariant : State → Prop}
    (issues : ∀ thread, (start.threads thread).Issues (commands thread))
    (keeps : ∀ state thread command env, commands thread command → invariant state →
      invariant (handler command env state).2)
    (reaches : Reaches handler permits start pool) (holds : invariant start.state) :
    invariant pool.state := by
  induction reaches with
  | refl => exact holds
  | @step current mover command next before env asks _ inductionHypothesis =>
    have own := Reaches.issues issues before mover
    rw [asks] at own
    rw [Pool.step_of_ask asks]
    exact keeps _ mover _ env (Program.issues_ask_iff.mp own).1 inductionHypothesis

/-- One step of a pool, with the state it was taken in. -/
structure Move (Thread Command Env State : Type) where
  thread : Thread
  command : Command
  env : Env
  before : State

/-- What the thread that moved was told. -/
def Move.reply (handler : Handler Command Reply Env State)
    (move : Move Thread Command Env State) : Reply move.command :=
  (handler move.command move.env move.before).1

/-- The state the move left behind. -/
def Move.after (handler : Handler Command Reply Env State)
    (move : Move Thread Command Env State) : State :=
  (handler move.command move.env move.before).2

variable [DecidableEq Thread]

/-- The runs of a pool with their traces. Which move is permitted may depend on the trace so far
and on the whole pool. -/
inductive Walks (handler : Handler Command Reply Env State)
    (permits : List (Move Thread Command Env State) →
      Pool Thread Command Reply Error Result State → Move Thread Command Env State → Prop)
    (start : Pool Thread Command Reply Error Result State) :
    List (Move Thread Command Env State) → Pool Thread Command Reply Error Result State → Prop where
  | refl : Walks handler permits start [] start
  | step {trace : List (Move Thread Command Env State)}
      {pool : Pool Thread Command Reply Error Result State} {thread : Thread}
      {command : Command} {next : Reply command → Program Command Reply Error Result}
      (before : Walks handler permits start trace pool) (env : Env)
      (asks : pool.threads thread = .ask command next)
      (permitted : permits trace pool ⟨thread, command, env, pool.state⟩) :
      Walks handler permits start (trace ++ [⟨thread, command, env, pool.state⟩])
        (pool.step handler thread env)

/-- The threads that have moved and have not ended. -/
def Pool.inFlight (trace : List (Move Thread Command Env State))
    (pool : Pool Thread Command Reply Error Result State) : List Thread :=
  (trace.map Move.thread).dedup.filter fun thread => !(pool.threads thread).ended

/-- The trace of a schedule that continues a trace. -/
def Pool.traceOf (handler : Handler Command Reply Env State) :
    List (Thread × Env) → List (Move Thread Command Env State) →
      Pool Thread Command Reply Error Result State → List (Move Thread Command Env State)
  | [], trace, _ => trace
  | (thread, env) :: rest, trace, pool =>
    match pool.threads thread with
    | .done _ => Pool.traceOf handler rest trace pool
    | .ask command _ =>
      Pool.traceOf handler rest (trace ++ [⟨thread, command, env, pool.state⟩])
        (pool.step handler thread env)

/-- Whether every move of a schedule is permitted when its turn comes. -/
def Pool.permitsAll (handler : Handler Command Reply Env State)
    (permits : List (Move Thread Command Env State) →
      Pool Thread Command Reply Error Result State → Move Thread Command Env State → Prop)
    [∀ trace pool move, Decidable (permits trace pool move)] :
    List (Thread × Env) → List (Move Thread Command Env State) →
      Pool Thread Command Reply Error Result State → Bool
  | [], _, _ => true
  | (thread, env) :: rest, trace, pool =>
    match pool.threads thread with
    | .done _ => Pool.permitsAll handler permits rest trace pool
    | .ask command _ =>
      decide (permits trace pool ⟨thread, command, env, pool.state⟩) &&
        Pool.permitsAll handler permits rest (trace ++ [⟨thread, command, env, pool.state⟩])
          (pool.step handler thread env)

section Walks

variable {handler : Handler Command Reply Env State}
  {permits : List (Move Thread Command Env State) →
    Pool Thread Command Reply Error Result State → Move Thread Command Env State → Prop}
  {start pool : Pool Thread Command Reply Error Result State}
  {trace : List (Move Thread Command Env State)} {thread : Thread}

theorem Pool.mem_inFlight_iff :
    thread ∈ pool.inFlight trace ↔
      (∃ move ∈ trace, move.thread = thread) ∧ (pool.threads thread).ended = false := by
  rw [Pool.inFlight, List.mem_filter, List.mem_dedup, List.mem_map, Bool.not_eq_true']

/-- A run with its trace is a run. -/
theorem Walks.reaches {allowed : State → Thread → Command → Env → Prop}
    (weaker : ∀ trace pool move, permits trace pool move →
      allowed move.before move.thread move.command move.env)
    (walks : Walks handler permits start trace pool) : Reaches handler allowed start pool := by
  induction walks with
  | refl => exact .refl
  | step before env asks permitted inductionHypothesis =>
    exact inductionHypothesis.step env asks (weaker _ _ _ permitted)

/-- A run passes through the state that each of its moves has found. -/
theorem Walks.through {allowed : State → Thread → Command → Env → Prop}
    (weaker : ∀ trace pool move, permits trace pool move →
      allowed move.before move.thread move.command move.env)
    (walks : Walks handler permits start trace pool) {move : Move Thread Command Env State}
    (member : move ∈ trace) :
    ∃ middle : Pool Thread Command Reply Error Result State, middle.state = move.before ∧
      Reaches handler allowed start middle ∧ Reaches handler allowed middle pool := by
  induction walks with
  | refl => cases member
  | @step trace pool mover command next before env asks permitted inductionHypothesis =>
    rcases List.mem_append.mp member with earlier | last
    · obtain ⟨middle, same, first, second⟩ := inductionHypothesis earlier
      exact ⟨middle, same, first, second.step env asks (weaker _ _ _ permitted)⟩
    · obtain rfl := List.mem_singleton.mp last
      exact ⟨pool, rfl, before.reaches weaker, Reaches.refl.step env asks (weaker _ _ _ permitted)⟩

/-- A schedule whose moves are all permitted continues a run. -/
theorem Walks.execute [∀ trace pool move, Decidable (permits trace pool move)]
    (walks : Walks handler permits start trace pool) (schedule : List (Thread × Env))
    (allowed : pool.permitsAll handler permits schedule trace = true) :
    Walks handler permits start (pool.traceOf handler schedule trace)
      (pool.execute handler schedule) := by
  induction schedule generalizing trace pool with
  | nil => exact walks
  | cons turn rest inductionHypothesis =>
    obtain ⟨thread, env⟩ := turn
    rw [Pool.execute, List.foldl_cons, ← Pool.execute]
    cases asks : pool.threads thread with
    | done outcome =>
      have still : pool.step handler thread env = pool := by simp only [Pool.step, asks]
      simp only [Pool.permitsAll, Pool.traceOf, asks, still] at allowed ⊢
      exact inductionHypothesis walks allowed
    | ask command next =>
      simp only [Pool.permitsAll, Pool.traceOf, asks, Bool.and_eq_true] at allowed ⊢
      exact inductionHypothesis (walks.step env asks (of_decide_eq_true allowed.1)) allowed.2

/-- A thread that had ended at the start never moves. -/
theorem Walks.still {outcome : Except Error Result}
    (walks : Walks handler permits start trace pool)
    (ended : start.threads thread = .done outcome) :
    pool.threads thread = .done outcome ∧ ∀ move ∈ trace, move.thread ≠ thread := by
  induction walks with
  | refl => exact ⟨ended, by simp⟩
  | @step trace pool mover command next before env asks permitted inductionHypothesis =>
    obtain ⟨same, others⟩ := inductionHypothesis
    have different : mover ≠ thread := by
      rintro rfl
      rw [same] at asks
      cases asks
    rw [Pool.step_of_ask asks]
    refine ⟨?_, fun move member => ?_⟩
    · simpa only [Function.update_of_ne different.symm] using same
    · rcases List.mem_append.mp member with earlier | last
      · exact others move earlier
      · rw [List.mem_singleton.mp last]
        exact different

end Walks

/-! ### Monitors -/

/-- What one thread may ask next, which replies it may have to go on with, and how its status
changes with what it is told. -/
structure Monitor (Command : Type) (Reply : Command → Type) (Status : Type) where
  allows : Status → Command → Prop
  expects : (command : Command) → Reply command → Prop := fun _ _ => True
  next : Status → (command : Command) → Reply command → Status

variable {Status : Type}

/-- Programs that ask only what a monitor allows and end as promised, if they are told what it
expects. -/
def Program.Conforms (monitor : Monitor Command Reply Status)
    (promise : Status → Except Error Result → Prop) :
    Status → Program Command Reply Error Result → Prop
  | status, .done outcome => promise status outcome
  | status, .ask command next => monitor.allows status command ∧
      ∀ reply, monitor.expects command reply →
        (next reply).Conforms monitor promise (monitor.next status command reply)

/-- The status after the moves of one thread in a trace. -/
def Monitor.after (monitor : Monitor Command Reply Status)
    (handler : Handler Command Reply Env State) (thread : Thread) (initial : Status)
    (trace : List (Move Thread Command Env State)) : Status :=
  trace.foldl (fun status move =>
    if move.thread = thread then monitor.next status move.command (move.reply handler)
    else status) initial

section Conforms

variable {monitor : Monitor Command Reply Status} {promise : Status → Except Error Result → Prop}
  {status initial : Status} {command : Command}
  {next : Reply command → Program Command Reply Error Result}
  {program : Program Command Reply Error Result}

omit [DecidableEq Thread] in
theorem Program.conforms_done {outcome : Except Error Result} (promised : promise status outcome) :
    (Program.done outcome).Conforms monitor promise status := promised

omit [DecidableEq Thread] in
theorem Program.conforms_ask (allowed : monitor.allows status command)
    (rest : ∀ reply, (next reply).Conforms monitor promise (monitor.next status command reply)) :
    (Program.ask command next).Conforms monitor promise status :=
  ⟨allowed, fun reply _ => rest reply⟩

omit [DecidableEq Thread] in
/-- The rule for a command on whose expected replies the rest depends. -/
theorem Program.conforms_ask_expecting (allowed : monitor.allows status command)
    (rest : ∀ reply, monitor.expects command reply →
      (next reply).Conforms monitor promise (monitor.next status command reply)) :
    (Program.ask command next).Conforms monitor promise status :=
  ⟨allowed, rest⟩

omit [DecidableEq Thread] in
theorem Program.Conforms.promised {outcome : Except Error Result}
    (conforms : (Program.done outcome).Conforms monitor promise status) :
    promise status outcome :=
  conforms

omit [DecidableEq Thread] in
theorem Program.Conforms.allowed
    (conforms : (Program.ask command next).Conforms monitor promise status) :
    monitor.allows status command :=
  conforms.1

omit [DecidableEq Thread] in
/-- The rule for sequential composition. -/
theorem Program.Conforms.bind {whole : Status → Except Error Other → Prop}
    {continuation : Result → Program Command Reply Error Other}
    (first : program.Conforms monitor promise status)
    (succeeds : ∀ status result, promise status (.ok result) →
      (continuation result).Conforms monitor whole status)
    (fails : ∀ status error, promise status (.error error) → whole status (.error error)) :
    (program >>= continuation).Conforms monitor whole status := by
  induction program generalizing status with
  | done outcome =>
    cases outcome with
    | error error => exact fails _ _ first
    | ok result => exact succeeds _ _ first
  | ask command next inductionHypothesis =>
    exact ⟨first.1, fun reply told => inductionHypothesis reply (first.2 reply told)⟩

omit [DecidableEq Thread] in
/-- The rule for a result that is only wrapped. -/
theorem Program.conforms_map_iff {whole : Status → Except Error Other → Prop}
    {function : Result → Other} :
    (function <$> program).Conforms monitor whole status ↔
      program.Conforms monitor (fun reached outcome => whole reached (outcome.map function))
        status := by
  induction program generalizing status with
  | done outcome => cases outcome <;> exact Iff.rfl
  | ask command next inductionHypothesis =>
    exact and_congr_right fun _ => forall_congr' fun reply =>
      imp_congr_right fun _ => inductionHypothesis reply

omit [DecidableEq Thread] in
/-- The rule for a promise that says less. -/
theorem Program.Conforms.mono {weaker : Status → Except Error Result → Prop}
    (conforms : program.Conforms monitor promise status)
    (less : ∀ status outcome, promise status outcome → weaker status outcome) :
    program.Conforms monitor weaker status := by
  induction program generalizing status with
  | done outcome => exact less _ _ conforms
  | ask command next inductionHypothesis =>
    exact ⟨conforms.1, fun reply told => inductionHypothesis reply (conforms.2 reply told)⟩

omit [DecidableEq Thread] in
/-- The rule for errors that are only converted. -/
theorem Program.conforms_mapError_iff {Failure : Type}
    {whole : Status → Except Failure Result → Prop} {convert : Error → Failure} :
    (program.mapError convert).Conforms monitor whole status ↔
      program.Conforms monitor (fun reached outcome => whole reached (outcome.mapError convert))
        status := by
  induction program generalizing status with
  | done outcome => exact Iff.rfl
  | ask command next inductionHypothesis =>
    exact and_congr_right fun _ => forall_congr' fun reply =>
      imp_congr_right fun _ => inductionHypothesis reply

omit [DecidableEq Thread] in
/-- The rule for exception handling. -/
theorem Program.Conforms.catching {whole : Status → Except Error Result → Prop}
    {onError : Error → Program Command Reply Error Result}
    (first : program.Conforms monitor promise status)
    (succeeds : ∀ status result, promise status (.ok result) → whole status (.ok result))
    (fails : ∀ status error, promise status (.error error) →
      (onError error).Conforms monitor whole status) :
    (tryCatch program onError).Conforms monitor whole status := by
  induction program generalizing status with
  | done outcome =>
    cases outcome with
    | error error => exact fails _ _ first
    | ok result => exact succeeds _ _ first
  | ask command next inductionHypothesis =>
    exact ⟨first.1, fun reply told => inductionHypothesis reply (first.2 reply told)⟩

omit [DecidableEq Thread] in
/-- What conforms to a monitor and issues certain commands conforms to one that allows these,
expects no more replies, and keeps its status meanwhile. -/
theorem Program.Conforms.under {Other : Type} {outer : Monitor Command Reply Other}
    {whole : Other → Except Error Result → Prop} {kept : Other} {commands : Command → Prop}
    (conforms : program.Conforms monitor promise status) (issues : program.Issues commands)
    (idle : ∀ status command, monitor.allows status command → commands command →
      outer.allows kept command ∧ ∀ reply, outer.next kept command reply = kept)
    (expected : ∀ command reply, outer.expects command reply → monitor.expects command reply)
    (ends : ∀ status outcome, promise status outcome → whole kept outcome) :
    program.Conforms outer whole kept := by
  induction program generalizing status with
  | done outcome => exact ends _ _ conforms
  | ask command next inductionHypothesis =>
    obtain ⟨own, rest⟩ := Program.issues_ask_iff.mp issues
    obtain ⟨allowed, still⟩ := idle _ _ conforms.1 own
    refine ⟨allowed, fun reply told => ?_⟩
    rw [still]
    exact inductionHypothesis reply (conforms.2 reply (expected _ _ told)) (rest reply)

omit [DecidableEq Thread] in
/-- A program whose commands leave the status as it is. -/
theorem Program.Issues.conforms {commands : Command → Prop} (issues : program.Issues commands)
    (idle : ∀ command, commands command → monitor.allows status command ∧
      ∀ reply, monitor.next status command reply = status)
    (ends : ∀ outcome, promise status outcome) : program.Conforms monitor promise status := by
  induction program with
  | done outcome => exact ends outcome
  | ask command next inductionHypothesis =>
    obtain ⟨first, rest⟩ := Program.issues_ask_iff.mp issues
    obtain ⟨allowed, still⟩ := idle command first
    refine ⟨allowed, fun reply _ => ?_⟩
    rw [still]
    exact inductionHypothesis reply (rest reply)

omit [DecidableEq Thread] in
/-- The rule for a first part whose commands leave the status as it is. -/
theorem Program.Issues.conforms_bind {commands : Command → Prop}
    {whole : Status → Except Error Other → Prop}
    {continuation : Result → Program Command Reply Error Other}
    (issues : program.Issues commands)
    (idle : ∀ command, commands command → monitor.allows status command ∧
      ∀ reply, monitor.next status command reply = status)
    (fails : ∀ error, whole status (.error error))
    (rest : ∀ result, (continuation result).Conforms monitor whole status) :
    (program >>= continuation).Conforms monitor whole status := by
  have still : program.Conforms monitor (fun reached _ => reached = status) status :=
    issues.conforms idle fun _ => rfl
  exact still.bind (fun _ result same => same ▸ rest result) fun _ error same => same ▸ fails error

variable {handler : Handler Command Reply Env State}
  {permits : List (Move Thread Command Env State) →
    Pool Thread Command Reply Error Result State → Move Thread Command Env State → Prop}
  {start pool : Pool Thread Command Reply Error Result State}
  {trace : List (Move Thread Command Env State)} {thread : Thread}
  {move : Move Thread Command Env State}

@[simp] theorem Monitor.after_nil :
    monitor.after handler thread initial ([] : List (Move Thread Command Env State)) = initial :=
  rfl

theorem Monitor.after_append_self (own : move.thread = thread) :
    monitor.after handler thread initial (trace ++ [move]) =
      monitor.next (monitor.after handler thread initial trace) move.command
        (move.reply handler) := by
  rw [Monitor.after, Monitor.after, List.foldl_append, List.foldl_cons, List.foldl_nil,
    if_pos own]

theorem Monitor.after_append_other (other : move.thread ≠ thread) :
    monitor.after handler thread initial (trace ++ [move]) =
      monitor.after handler thread initial trace := by
  rw [Monitor.after, Monitor.after, List.foldl_append, List.foldl_cons, List.foldl_nil,
    if_neg other]

/-- A move changes the status of the thread that moved. -/
theorem Monitor.after_append {monitors : Thread → Monitor Command Reply Status} :
    (fun thread => (monitors thread).after handler thread initial (trace ++ [move])) =
      Function.update (fun thread => (monitors thread).after handler thread initial trace)
        move.thread
        ((monitors move.thread).next
          ((monitors move.thread).after handler move.thread initial trace) move.command
          (move.reply handler)) := by
  funext thread
  by_cases same : move.thread = thread
  · subst same
    rw [Function.update_self, Monitor.after_append_self rfl]
  · rw [Function.update_of_ne (Ne.symm same), Monitor.after_append_other same]

/-- A thread whose status has changed has moved. -/
theorem Monitor.moved_of_after_ne
    (changed : monitor.after handler thread initial trace ≠ initial) :
    ∃ move ∈ trace, move.thread = thread := by
  induction trace using List.reverseRecOn with
  | nil => exact absurd rfl changed
  | append_singleton earlier last inductionHypothesis =>
    by_cases own : last.thread = thread
    · exact ⟨last, List.mem_append_right _ (List.mem_singleton_self _), own⟩
    · rw [Monitor.after_append_other own] at changed
      obtain ⟨move, member, moved⟩ := inductionHypothesis changed
      exact ⟨move, List.mem_append_left _ member, moved⟩

/-- In every run that tells a thread what its monitor expects, it conforms from where its own moves
have led its monitor. -/
theorem Walks.conforms (monitor : Monitor Command Reply Status)
    (promise : Status → Except Error Result → Prop) (initial : Status) (thread : Thread)
    (program : (start.threads thread).Conforms monitor promise initial)
    (walks : Walks handler permits start trace pool)
    (told : ∀ move ∈ trace, move.thread = thread →
      monitor.expects move.command (move.reply handler)) :
    (pool.threads thread).Conforms monitor promise
      (monitor.after handler thread initial trace) := by
  induction walks with
  | refl => exact program
  | @step trace pool mover command next before env asks permitted inductionHypothesis =>
    have inductionHypothesis := inductionHypothesis fun move member =>
      told move (List.mem_append_left _ member)
    have last := told _ (List.mem_append_right _ (List.mem_singleton_self _))
    rw [Pool.step_of_ask asks]
    by_cases same : mover = thread
    · subst same
      rw [asks] at inductionHypothesis
      have observed : monitor.after handler mover initial
          (trace ++ [⟨mover, command, env, pool.state⟩]) =
            monitor.next (monitor.after handler mover initial trace) command
              (handler command env pool.state).1 := Monitor.after_append_self rfl
      rw [observed]
      simpa only [Function.update_self, Move.reply] using inductionHypothesis.2 _ (last rfl)
    · rw [Monitor.after_append_other same]
      simpa only [Function.update_of_ne (Ne.symm same)] using inductionHypothesis

/-- What holds of the trace and the status at first, and is kept by every move, always holds. Of
the moves of the thread itself, only those that the monitor allows have to keep it. -/
theorem Walks.observes {monitor : Monitor Command Reply Status}
    {promise : Status → Except Error Result → Prop} {initial : Status} {thread : Thread}
    (invariant : List (Move Thread Command Env State) → Status → Prop)
    (holds : invariant [] initial)
    (others : ∀ trace status move, move.thread ≠ thread → invariant trace status →
      invariant (trace ++ [move]) status)
    (keeps : ∀ trace status move, move.thread = thread → invariant trace status →
      monitor.allows status move.command →
        invariant (trace ++ [move]) (monitor.next status move.command (move.reply handler)))
    (program : (start.threads thread).Conforms monitor promise initial)
    (walks : Walks handler permits start trace pool)
    (told : ∀ move ∈ trace, move.thread = thread →
      monitor.expects move.command (move.reply handler)) :
    invariant trace (monitor.after handler thread initial trace) := by
  induction walks with
  | refl => exact holds
  | @step trace pool mover command next before env asks permitted inductionHypothesis =>
    have earlier : ∀ move ∈ trace, move.thread = thread →
        monitor.expects move.command (move.reply handler) := fun move member =>
      told move (List.mem_append_left _ member)
    have inductionHypothesis := inductionHypothesis earlier
    by_cases same : mover = thread
    · subst same
      have conforms := before.conforms monitor promise initial mover program earlier
      rw [asks] at conforms
      have observed : monitor.after handler mover initial
          (trace ++ [⟨mover, command, env, pool.state⟩]) =
            monitor.next (monitor.after handler mover initial trace) command
              (handler command env pool.state).1 := Monitor.after_append_self rfl
      rw [observed]
      exact keeps trace _ ⟨mover, command, env, pool.state⟩ rfl inductionHypothesis
        conforms.allowed
    · rw [Monitor.after_append_other same]
      exact others trace _ _ same inductionHypothesis

end Conforms

-- From here on it is used through its rules. Unfolding it would run the program.
attribute [irreducible] Program.Conforms

end Interaction
