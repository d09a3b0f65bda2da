/-
This file collects the rules by which properties of services are proved: which
commands each operation issues, and how validity passes through the steps the
operations are made of. A step that reads, writes or logs is followed by what the
operation does with its reply, and the rules say what has to be shown of that.
-/

import Trutina.Interference
import Trutina.Service

namespace Trutina

open Interaction

/-! ### Operations that read -/

/-- A command that only reads. -/
def Command.Reads : Command → Prop
  | .query _ => True
  | _ => False

section Reads

variable {commands : Command → Prop} {Result : Type}

theorem lift_issues (outcome : Except Raised Result) :
    (liftM outcome : Action Result).Issues commands := Program.issues_done outcome

variable (reads : ∀ query, commands (.query query))

include reads

theorem execute_issues (query : Query) : (execute query).Issues commands :=
  Program.issues_ask (reads query) fun _ => Program.issues_done _

namespace PostgresAccountRepo

theorem load_issues (code : String) : (load code).Issues commands :=
  (execute_issues reads _).bind fun _ => lift_issues _

theorem existsByCode_issues (code : String) : (existsByCode code).Issues commands :=
  (execute_issues reads _).bind fun _ => (lift_issues _).bind fun _ => Program.issues_done _

theorem existsByName_issues (name : String) : (existsByName name).Issues commands :=
  (execute_issues reads _).bind fun _ => (lift_issues _).bind fun _ => Program.issues_done _

theorem getByCode_issues (code : String) : (getByCode code).Issues commands := by
  refine (execute_issues reads _).bind fun rows => (lift_issues _).bind fun found => ?_
  cases found with
  | none => exact Program.issues_done _
  | some row => exact (lift_issues _).bind fun _ => Program.issues_done _

theorem listAll_issues : listAll.Issues commands :=
  (execute_issues reads _).bind fun _ => lift_issues _

end PostgresAccountRepo

namespace PostgresJournalRepo

theorem getByNumber_issues (number : Int) : (getByNumber number).Issues commands := by
  refine (execute_issues reads _).bind fun rows => (lift_issues _).bind fun found => ?_
  cases found with
  | none => exact Program.issues_done _
  | some entry =>
    exact (execute_issues reads _).bind fun _ => (lift_issues _).bind fun _ => Program.issues_done _

theorem listEntries_issues : listEntries.Issues commands :=
  (execute_issues reads _).bind fun _ => (execute_issues reads _).bind fun _ => lift_issues _

end PostgresJournalRepo

namespace PostgresPostingRepo

theorem getByAccount_issues (account : String) : (getByAccount account).Issues commands :=
  (execute_issues reads _).bind fun _ => lift_issues _

theorem getByJournalNumber_issues (number : Int) : (getByJournalNumber number).Issues commands :=
  (execute_issues reads _).bind fun _ => (lift_issues _).bind fun _ => Program.issues_done _

end PostgresPostingRepo

namespace AccountService

theorem hasPostings_issues (name : String) : (hasPostings name).Issues commands :=
  (PostgresPostingRepo.getByAccount_issues reads _).bind fun _ => Program.issues_done _

theorem nameTakenOnChange_issues (existing : Account) (name : String) :
    (nameTakenOnChange existing name).Issues commands := by
  unfold nameTakenOnChange
  split
  · exact Program.issues_done _
  · exact PostgresAccountRepo.existsByName_issues reads _

theorem getAccount_issues (code : String) : (getAccount code).Issues commands :=
  (PostgresAccountRepo.getByCode_issues reads _).bind fun _ =>
    (lift_issues _).bind fun _ => Program.issues_done _

theorem getChart_issues : getChart.Issues commands :=
  (PostgresAccountRepo.listAll_issues reads).bind fun _ => lift_issues _

theorem resolveAccount_issues (reference : String) : (resolveAccount reference).Issues commands :=
  (getChart_issues reads).bind fun _ => (lift_issues _).bind fun _ => Program.issues_done _

theorem listAccounts_issues : listAccounts.Issues commands :=
  (PostgresAccountRepo.listAll_issues reads).bind fun _ => Program.issues_done _

end AccountService

namespace JournalService

theorem validateAccounts_issues (lines : List JournalLineInput) :
    (validateAccounts lines).Issues commands :=
  (AccountService.getChart_issues reads).bind fun _ => lift_issues _

theorem getJournalEntry_issues (number : Int) : (getJournalEntry number).Issues commands :=
  (PostgresJournalRepo.getByNumber_issues reads _).bind fun _ =>
    (lift_issues _).bind fun _ => lift_issues _

theorem listJournalEntries_issues : listJournalEntries.Issues commands :=
  (PostgresJournalRepo.listEntries_issues reads).bind fun _ => lift_issues _

end JournalService

end Reads

/-! ### Rows -/

theorem fromRows_eq_ok_iff {Row Value : Type} {toDomain : Row → Except Raised Value}
    {rows : List Row} {values : List Value} :
    fromRows toDomain rows = .ok values ↔
      List.Forall₂ (fun row value => toDomain row = .ok value) rows values :=
  List.mapM_eq_ok_iff

/-- Where the rows are not all rebuilt, the error is that of one of them. -/
theorem fromRows_error {Row Value : Type} {toDomain : Row → Except Raised Value}
    {property : Raised → Prop}
    (each : ∀ row error, toDomain row = .error error → property error) {rows : List Row}
    {error : Raised} (raised : fromRows toDomain rows = .error error) : property error := by
  unfold fromRows at raised
  induction rows with
  | nil => cases raised
  | cons row rest inductionHypothesis =>
    rw [List.mapM_cons] at raised
    cases head : toDomain row with
    | error other =>
      rw [head] at raised
      cases raised
      exact each row _ head
    | ok value =>
      cases tail : rest.mapM toDomain with
      | error other =>
        rw [head, tail] at raised
        cases raised
        exact inductionHypothesis tail
      | ok values =>
        rw [head, tail] at raised
        cases raised

/-- Every row has its value among the results. -/
theorem mem_of_fromRows {Row Value : Type} {toDomain : Row → Except Raised Value}
    {rows : List Row} {values : List Value} (converted : fromRows toDomain rows = .ok values)
    {row : Row} (member : row ∈ rows) : ∃ value ∈ values, toDomain row = .ok value := by
  have pairs := fromRows_eq_ok_iff.mp converted
  clear converted
  induction pairs with
  | nil => cases member
  | @cons first value rest others same _ inductionHypothesis =>
    rcases List.mem_cons.mp member with rfl | later
    · exact ⟨value, List.mem_cons_self, same⟩
    · obtain ⟨found, present, equal⟩ := inductionHypothesis later
      exact ⟨found, List.mem_cons_of_mem _ present, equal⟩

/-- Rows that are each rebuilt are rebuilt together. -/
theorem fromRows_total {Row Value : Type} {toDomain : Row → Except Raised Value} {rows : List Row}
    (rebuilt : ∀ row ∈ rows, ∃ value, toDomain row = .ok value) :
    ∃ values, fromRows toDomain rows = .ok values := by
  obtain ⟨values, pairs⟩ := List.Forall₂.exists_of_forall rebuilt
  exact ⟨values, fromRows_eq_ok_iff.mpr pairs⟩

/-! ### Steps -/

/-- A write transaction is one command, and its reply decides the outcome. -/
theorem commitOr_eq (onViolation : Option String → Raised) (transaction : Transaction) :
    commitOr onViolation transaction = .ask (.transact transaction) fun reply =>
      .done (match reply.value with
        | .ok () => .ok ()
        | .error (.integrity constraint) => .error (onViolation (some constraint))
        | .error (.failed fault) => .error (translatePostgresErrors (.failed fault))) := by
  unfold commitOr commit
  rw [Program.tryCatch_ask]
  refine congrArg _ (funext fun reply => ?_)
  obtain ⟨value, now⟩ := reply
  rcases value with (constraint | fault) | done
  · rfl
  · cases fault <;> rfl
  · rfl

theorem commitOr_issues {commands : Command → Prop} {transaction : Transaction}
    (writes : commands (.transact transaction)) (onViolation : Option String → Raised) :
    (commitOr onViolation transaction).Issues commands := by
  rw [commitOr_eq]
  exact Program.issues_ask writes fun _ => Program.issues_done _

/-! ### Running alone -/

section Run

variable {Result Other : Type} {envs : Nat → Env} {world : World}

/-- A SELECT without a failure. -/
theorem run_execute_bind {query : Query} {continuation : List query.Row × Timestamp → Action Other}
    (calm : (envs 0).fault = none) :
    (execute query >>= continuation).run handle envs world =
      (continuation (query.rows (envs 0) world, (envs 0).now)).run handle
        (fun step => envs (step + 1)) world := by
  simp only [execute, Program.ask_bind, Program.run, handle, calm]
  rfl

/-- A SELECT that is served while others run. -/
theorem resume_execute_bind {env : Env} {query : Query}
    {continuation : List query.Row × Timestamp → Action Other} (calm : env.fault = none) :
    (execute query >>= continuation).resume handle env world =
      continuation (query.rows env world, env.now) := by
  simp only [execute, Program.ask_bind, Program.resume, handle, calm]
  rfl

theorem run_lift_bind_ok {outcome : Except Raised Result} {result : Result}
    {continuation : Result → Action Other} (succeeds : outcome = .ok result) :
    ((liftM outcome : Action Result) >>= continuation).run handle envs world =
      (continuation result).run handle envs world := by
  rw [succeeds]
  rfl

theorem run_lift {outcome : Except Raised Result} :
    (liftM outcome : Action Result).run handle envs world = (outcome, world) := rfl

end Run

section Steps

variable {regime : Regime World} {Result Other : Type}
  {task : Task Command Reply Raised Other Env World} {world : World}

/-- A step of a thread is fine when it shows what the task asks for and the rest is valid. -/
def Continues (regime : Regime World) (task : Task Command Reply Raised Other Env World)
    (world : World) (command : Command) (env : Env) (next : Action Other) (after : World) : Prop :=
  task.shows world command env next ∧ next.Valid handle regime task after

/-- An error that is fine after a command that has left the state as it is, and promises
nothing. -/
structure Harmless (task : Task Command Reply Raised Other Env World) (command : Command)
    (error : Raised) : Prop where
  shows : ∀ world env, (handle command env world).2 = world →
    task.shows world command env (.done (.error error))
  ensures : ∀ world, task.ensures (.error error) world

theorem Harmless.continues {error : Raised} {command : Command}
    (harmless : Harmless task command error) {world : World} {env : Env}
    (still : (handle command env world).2 = world) (after : World) :
    Continues regime task world command env (.done (.error error)) after :=
  ⟨harmless.shows _ _ still, Program.valid_done fun later _ _ => harmless.ensures later⟩

/-- A computation without commands. -/
theorem valid_lift_bind {outcome : Except Raised Result} {continuation : Result → Action Other}
    (fails : ∀ error, outcome = .error error → ∀ later, task.ensures (.error error) later)
    (succeeds : ∀ result, outcome = .ok result →
      (continuation result).Valid handle regime task world) :
    ((liftM outcome : Action Result) >>= continuation).Valid handle regime task world := by
  cases outcome with
  | error error => exact Program.valid_done fun later _ _ => fails error rfl later
  | ok result => exact succeeds result rfl

theorem continues_lift_bind {outcome : Except Raised Result}
    {continuation : Result → Action Other} {command : Command} {env : Env} {after : World}
    (still : (handle command env world).2 = world)
    (fails : ∀ error, outcome = .error error → Harmless task command error)
    (succeeds : ∀ result, outcome = .ok result →
      Continues regime task world command env (continuation result) after) :
    Continues regime task world command env
      ((liftM outcome : Action Result) >>= continuation) after := by
  cases outcome with
  | error error => exact (fails error rfl).continues still _
  | ok result => exact succeeds result rfl

/-- A SELECT: the state stays, and the operation goes on with the rows. -/
theorem valid_execute_bind {query : Query}
    {continuation : List query.Row × Timestamp → Action Other}
    (faults : ∀ later env fault, task.permits later (.query query) env → env.fault = some fault →
      Harmless task (.query query) (translatePostgresErrors (.failed fault)))
    (answered : ∀ later, regime.evolves world later → regime.invariant later →
      ∀ env, task.permits later (.query query) env →
        Continues regime task later (.query query) env
          (continuation (query.rows env later, env.now)) later) :
    (execute query >>= continuation).Valid handle regime task world := by
  refine Program.valid_ask fun later evolved holds env permitted => ?_
  rw [handle_query_state]
  refine ⟨holds, regime.refl _, ?_⟩
  cases failed : env.fault with
  | some fault =>
    simp only [handle, failed]
    exact (faults later env fault permitted failed).continues (handle_query_state query env later) _
  | none =>
    simp only [handle, failed]
    exact answered later evolved holds env permitted

/-- A transaction that fails leaves the state as it is. -/
theorem handle_transact_failed {transaction : Transaction} {env : Env} {world : World}
    (failed : env.fault ≠ none ∨ ∃ error, transaction.apply env world = .error error) :
    (handle (.transact transaction) env world).2 = world := by
  cases fault : env.fault with
  | some fault => simp only [handle, fault]
  | none =>
    obtain ⟨error, refused⟩ := failed.resolve_left fun present => present fault
    simp only [handle, fault, refused]

/-- A transaction leaves the state as it is, or is applied. -/
theorem handle_transact_cases (transaction : Transaction) (env : Env) (world : World) :
    (handle (.transact transaction) env world).2 = world ∨
      ∃ after, transaction.apply env world = .ok after ∧
        (handle (.transact transaction) env world).2 = after := by
  cases fault : env.fault with
  | some fault => exact .inl (by simp only [handle, fault])
  | none =>
    cases applied : transaction.apply env world with
    | error error => exact .inl (by simp only [handle, fault, applied])
    | ok after => exact .inr ⟨after, rfl, by simp only [handle, fault, applied]⟩

/-- A write transaction that reports its violations. -/
theorem valid_commitOr_bind {transaction : Transaction} {onViolation : Option String → Raised}
    {continuation : Unit → Action Other}
    (faults : ∀ later env fault, task.permits later (.transact transaction) env →
      env.fault = some fault ∨ transaction.apply env later = .error (.failed fault) →
      Harmless task (.transact transaction) (translatePostgresErrors (.failed fault)))
    (violated : ∀ later, regime.evolves world later → regime.invariant later →
      ∀ env, task.permits later (.transact transaction) env → ∀ constraint, env.fault = none →
        transaction.apply env later = .error (.integrity constraint) →
        Continues regime task later (.transact transaction) env
          (.done (.error (onViolation (some constraint)))) later)
    (committed : ∀ later, regime.evolves world later → regime.invariant later →
      ∀ env, task.permits later (.transact transaction) env → ∀ after, env.fault = none →
        transaction.apply env later = .ok after →
        regime.invariant after ∧ regime.evolves later after ∧
          Continues regime task later (.transact transaction) env (continuation ()) after) :
    (commitOr onViolation transaction >>= continuation).Valid handle regime task world := by
  rw [commitOr_eq]
  refine Program.valid_ask fun later evolved holds env permitted => ?_
  cases failed : env.fault with
  | some fault =>
    have still : (handle (.transact transaction) env later).2 = later :=
      handle_transact_failed (.inl (by rw [failed]; exact Option.some_ne_none fault))
    simp only [handle, failed]
    exact ⟨holds, regime.refl _,
      (faults later env fault permitted (.inl failed)).continues still _⟩
  | none =>
    cases applied : transaction.apply env later with
    | ok after =>
      simp only [handle, failed, applied]
      exact committed later evolved holds env permitted after failed applied
    | error error =>
      have still : (handle (.transact transaction) env later).2 = later :=
        handle_transact_failed (.inr ⟨error, applied⟩)
      simp only [handle, failed, applied]
      cases error with
      | integrity constraint =>
        exact ⟨holds, regime.refl _,
          violated later evolved holds env permitted constraint failed applied⟩
      | failed fault =>
        exact ⟨holds, regime.refl _,
          (faults later env fault permitted (.inr applied)).continues still _⟩

end Steps

end Trutina
