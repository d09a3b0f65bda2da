/-
This file says what one call does when it runs alone: it fails and leaves the
tables as they are, or it only reads, or it commits one write transaction that
its own reads have checked. Nothing comes between the reads and the write, so
what the checks found is still so when the transaction is applied.
-/

import Trutina.LedgerRuns
import Trutina.Uniqueness

namespace Trutina

open Interaction

/-! ### The tables -/

/-- Only the audit trail, the log and the sequence of journal numbers may differ. -/
structure World.SameTables (before after : World) : Prop where
  accounts : after.accounts = before.accounts
  sequence : after.nextAccountId = before.nextAccountId
  entries : after.journalEntries = before.journalEntries
  lines : after.journalLines = before.journalLines
  postings : after.postings = before.postings

namespace World.SameTables

variable {first second third : World}

theorem refl (world : World) : world.SameTables world := ⟨rfl, rfl, rfl, rfl, rfl⟩

theorem trans (left : first.SameTables second) (right : second.SameTables third) :
    first.SameTables third :=
  ⟨right.accounts.trans left.accounts, right.sequence.trans left.sequence,
    right.entries.trans left.entries, right.lines.trans left.lines,
    right.postings.trans left.postings⟩

end World.SameTables

/-- A run that ends with an error and leaves the tables as they are. -/
structure Fails {Result : Type} (world : World) (outcome : Except Raised Result) (after : World) :
    Prop where
  raises : ∃ error, outcome = .error error
  same : world.SameTables after

/-- The store after a journal number is drawn. -/
def World.drawn (world : World) : World :=
  { world with nextJournalNumber := world.nextJournalNumber + 1 }

/-- A run that ends with an error and leaves the state as it is. -/
structure Stops {Result : Type} (world : World) (outcome : Except Raised Result) (after : World) :
    Prop where
  raises : ∃ error, outcome = .error error
  still : after = world

theorem Stops.fails {Result : Type} {world after : World} {outcome : Except Raised Result}
    (stops : Stops world outcome after) : Fails world outcome after where
  raises := stops.raises
  same := stops.still ▸ .refl world

/-- A run that is left with an error stops there. -/
theorem stops_of_done {Result : Type} {permits : World → Command → Env → Prop}
    {world after : World} {error : Raised} {outcome : Except Raised Result}
    (runs : Runs handle permits (.done (.error error)) world outcome after) :
    Stops world outcome after := by
  obtain ⟨raised, still⟩ := runs_done_iff.mp runs
  exact ⟨⟨error, raised⟩, still⟩

/-- The row that a sequential update leaves: its code, and the name and key it was given. -/
theorem overwrite_loaded (loaded : AccountModel) (name nameKey : String)
    (category : AccountCategory) :
    loaded.overwrite name nameKey category loaded =
      ⟨loaded.id, loaded.code, name, nameKey, category⟩ := by
  simp only [AccountModel.overwrite, AccountModel.mk.injEq, true_and]
  refine ⟨?_, ?_, ?_⟩ <;> split <;> simp_all

/-- What an update changes, when nothing comes between its reads and its flush. -/
theorem updateAccount_rows {world after : World} (identified : world.Identified)
    {loaded : AccountModel} (found : loaded ∈ world.accounts) {name nameKey : String}
    {category : AccountCategory} {audit : AuditEventModel} {env : Env}
    (applied : (Transaction.updateAccount loaded name nameKey category audit).apply env world =
      .ok after) : after = { world with
        accounts := world.accounts.map fun row =>
          if row = loaded then ⟨loaded.id, loaded.code, name, nameKey, category⟩ else row
        auditEvents := world.auditEvents ++ [audit] } := by
  have same : ∀ row ∈ world.accounts, (row = loaded ↔ row.id = loaded.id) := fun row member =>
    ⟨fun equal => equal ▸ rfl, identified.eq_of_id member found⟩
  rcases updateAccount_ok applied with ⟨⟨rfl, rfl, rfl⟩, rfl⟩ | ⟨_, _, rfl⟩
  · have unchanged : (world.accounts.map fun row => if row = loaded then
        (⟨loaded.id, loaded.code, loaded.name, loaded.nameKey, loaded.category⟩ : AccountModel)
        else row) = world.accounts := by
      refine List.map_id'' (fun row => ?_) _
      split
      · rename_i equal
        rw [equal]
      · rfl
    rw [unchanged]
  · have overwritten : overwriteAccounts loaded name nameKey category world.accounts =
        world.accounts.map fun row =>
          if row = loaded then ⟨loaded.id, loaded.code, name, nameKey, category⟩ else row := by
      refine List.map_congr_left fun row member => ?_
      by_cases equal : row = loaded
      · rw [if_pos equal, if_pos (congrArg _ equal), equal, overwrite_loaded]
      · rw [if_neg equal, if_neg fun own => equal ((same row member).mpr own)]
    rw [overwritten]

/-! ### Steps of a run -/

section Steps

variable {permits : World → Command → Env → Prop} {Result Other : Type}
  {continuation : Result → Action Other} {world after : World} {outcome : Except Raised Other}

/-- A command that reads or logs. -/
def Command.Quiet : Command → Prop
  | .query _ => True
  | .emit _ => True
  | _ => False

/-- A program that only reads and logs leaves the tables as they are. -/
theorem runs_quiet {program : Action Result} {result : Except Raised Result}
    (issues : program.Issues Command.Quiet)
    (runs : Runs handle permits program world result after) :
    world.SameTables after := by
  induction runs with
  | done outcome state => exact .refl _
  | @ask command next state _ _ env _ _ inductionHypothesis =>
    obtain ⟨quiet, rest⟩ := Program.issues_ask_iff.mp issues
    refine World.SameTables.trans ?_ (inductionHypothesis (rest _))
    cases command with
    | query query =>
      rw [handle_query_state]
      exact .refl _
    | emit record => exact ⟨rfl, rfl, rfl, rfl, rfl⟩
    | transact transaction => exact quiet.elim
    | nextval => exact quiet.elim

theorem runs_lift_bind {result : Except Raised Result}
    (runs : Runs handle permits ((liftM result : Action Result) >>= continuation) world outcome
      after) :
    Stops world outcome after ∨
      ∃ value, result = .ok value ∧
        Runs handle permits (continuation value) world outcome after := by
  cases result with
  | error error => exact .inl (stops_of_done runs)
  | ok value => exact .inr ⟨value, rfl, runs⟩

/-- A SELECT: it fails, or the run goes on with its rows. -/
theorem runs_execute_bind {query : Query} {continuation : List query.Row × Timestamp → Action Other}
    (runs : Runs handle permits (execute query >>= continuation) world outcome after) :
    Stops world outcome after ∨
      ∃ env, Runs handle permits (continuation (query.rows env world, env.now)) world outcome
        after := by
  obtain ⟨env, _, rest⟩ := runs_ask_iff.mp runs
  rw [handle_query_state] at rest
  cases failed : env.fault with
  | some fault =>
    simp only [handle, failed] at rest
    exact .inl (stops_of_done rest)
  | none =>
    simp only [handle, failed] at rest
    exact .inr ⟨env, rest⟩

/-- A number is drawn, or the run fails. -/
theorem runs_nextJournalNumber_bind {continuation : Int × Timestamp → Action Other}
    (runs : Runs handle permits (PostgresJournalRepo.nextJournalNumber >>= continuation) world
      outcome after) :
    Stops world outcome after ∨
      ∃ now, Runs handle permits (continuation (world.nextJournalNumber, now)) world.drawn outcome
        after := by
  obtain ⟨env, _, rest⟩ := runs_ask_iff.mp runs
  cases failed : env.fault with
  | some fault =>
    simp only [handle, failed] at rest
    exact .inl (stops_of_done rest)
  | none =>
    simp only [handle, failed] at rest
    exact .inr ⟨env.now, rest⟩

/-- A part that only reads. -/
theorem runs_reads_bind {program : Action Result} (issues : program.Issues Command.Reads)
    (runs : Runs handle permits (program >>= continuation) world outcome after) :
    Stops world outcome after ∨
      ∃ value, Runs handle permits (continuation value) world outcome after := by
  induction program with
  | done result =>
    exact (runs_lift_bind runs).imp_right fun ⟨value, _, rest⟩ => ⟨value, rest⟩
  | ask command next inductionHypothesis =>
    obtain ⟨reads, rest⟩ := Program.issues_ask_iff.mp issues
    obtain ⟨env, _, runs⟩ := runs_ask_iff.mp runs
    cases command with
    | query query =>
      rw [handle_query_state] at runs
      exact inductionHypothesis _ (rest _) runs
    | transact transaction => exact reads.elim
    | nextval => exact reads.elim
    | emit record => exact reads.elim

/-- A write transaction: it fails, or it is applied and the run goes on. -/
theorem runs_commitOr_bind {transaction : Transaction} {onViolation : Option String → Raised}
    {continuation : Unit → Action Other}
    (runs : Runs handle permits (commitOr onViolation transaction >>= continuation) world outcome
      after) :
    Stops world outcome after ∨
      ∃ env stored, transaction.apply env world = .ok stored ∧
        Runs handle permits (continuation ()) stored outcome after := by
  rw [commitOr_eq] at runs
  obtain ⟨env, _, rest⟩ := runs_ask_iff.mp runs
  cases failed : env.fault with
  | some fault =>
    simp only [handle, failed] at rest
    exact .inl (stops_of_done rest)
  | none =>
    cases applied : transaction.apply env world with
    | ok stored =>
      simp only [handle, failed, applied] at rest
      exact .inr ⟨env, stored, applied, rest⟩
    | error error =>
      simp only [handle, failed, applied] at rest
      cases error <;> exact .inl (stops_of_done rest)

/-- A log record is appended. -/
theorem runs_logInfo_bind {event : String} {context : List (String × LogValue)}
    {continuation : Unit → Action Other}
    (runs : Runs handle permits (logInfo event context >>= continuation) world outcome after) :
    Runs handle permits (continuation ()) { world with log := world.log ++ [⟨event, context⟩] }
      outcome after := by
  obtain ⟨_, _, rest⟩ := runs_ask_iff.mp runs
  exact rest

/-- The end of a write: the transaction, the log record and the result. -/
theorem runs_commit_log {transaction : Transaction} {onViolation : Option String → Raised}
    {event : String} {context : List (String × LogValue)} {result : Except Raised Other}
    (runs : Runs handle permits (commitOr onViolation transaction >>= fun _ =>
      logInfo event context >>= fun _ => (.done result : Action Other)) world outcome after) :
    Stops world outcome after ∨
      ∃ env stored, transaction.apply env world = .ok stored ∧
        after = { stored with log := stored.log ++ [⟨event, context⟩] } ∧ outcome = result := by
  refine (runs_commitOr_bind runs).imp_right fun ⟨env, stored, applied, rest⟩ => ?_
  obtain ⟨rfl, rfl⟩ := runs_done_iff.mp (runs_logInfo_bind rest)
  exact ⟨env, stored, applied, rfl, rfl⟩

/-- Loading an account: what is found is stored under the code. -/
theorem runs_load_bind {code : String} {continuation : Option AccountModel → Action Other}
    (runs : Runs handle permits (PostgresAccountRepo.load code >>= continuation) world outcome
      after) :
    Stops world outcome after ∨
      ∃ found, (∀ row, found = some row → row ∈ world.accounts ∧ row.code = code) ∧
        Runs handle permits (continuation found) world outcome after := by
  rw [PostgresAccountRepo.load, bind_assoc] at runs
  rcases runs_execute_bind runs with failed | ⟨env, rest⟩
  · exact .inl failed
  · rcases runs_lift_bind rest with failed | ⟨found, loads, rest⟩
    · exact .inl failed
    refine .inr ⟨found, ?_, rest⟩
    exact fun row present => mem_of_accountsByCode (present ▸ loads)

/-- Reading an account: it is rebuilt from a row stored under the code. -/
theorem runs_getByCode_bind {code : String} {continuation : Option Account → Action Other}
    (runs : Runs handle permits (PostgresAccountRepo.getByCode code >>= continuation) world outcome
      after) :
    Stops world outcome after ∨
      ∃ found, (∀ account, found = some account → ∃ row ∈ world.accounts, row.code = code ∧
          PostgresAccountRepo.toDomain row = .ok account) ∧
        Runs handle permits (continuation found) world outcome after := by
  rw [getByCode_eq, bind_assoc] at runs
  rcases runs_load_bind runs with failed | ⟨found, stored, rest⟩
  · exact .inl failed
  cases found with
  | none =>
    refine .inr ⟨none, fun _ present => ?_, rest⟩
    cases present
  | some row =>
    obtain ⟨member, own⟩ := stored row rfl
    simp only [bind_assoc] at rest
    rcases runs_lift_bind rest with failed | ⟨account, rebuilt, rest⟩
    · exact .inl failed
    · refine .inr ⟨some account, fun _ present => ?_, rest⟩
      cases present
      exact ⟨row, member, own, rebuilt⟩

/-- Looking for postings of a name: when none are found, none has the lookup key. -/
theorem runs_hasPostings_bind {name : String} {continuation : Bool → Action Other}
    (runs : Runs handle permits (AccountService.hasPostings name >>= continuation) world outcome
      after) :
    Stops world outcome after ∨
      ∃ posted, (posted = false →
          ∀ posting ∈ world.postings, posting.accountKey ≠ accountLookupKey name) ∧
        Runs handle permits (continuation posted) world outcome after := by
  simp only [AccountService.hasPostings, PostgresPostingRepo.getByAccount, bind_assoc] at runs
  rcases runs_execute_bind runs with failed | ⟨env, rest⟩
  · exact .inl failed
  refine (runs_lift_bind rest).imp_right fun ⟨postings, rebuilt, rest⟩ => ⟨_, fun none => ?_, rest⟩
  intro posting member own
  have listed : posting ∈ Query.rows env world (.postingsByAccountKey (accountLookupKey name)) := by
    rw [Query.rows, List.mem_insertionSort]
    exact (env.arrangePostings_perm _).mem_iff.mpr
      (List.mem_filter.mpr ⟨member, decide_eq_true own⟩)
  obtain ⟨value, present, _⟩ := mem_of_fromRows rebuilt listed
  exact of_decide_eq_false none (List.length_pos_of_mem present)

end Steps

/-! ### Calls -/

/-- The calls that write. -/
def Call.Writes : Call → Prop
  | .createAccount _ _ => True
  | .updateAccount _ _ => True
  | .deleteAccount _ _ => True
  | .createJournalEntry _ _ => True
  | .postJournalEntry _ _ => True
  | _ => False

/-- The write transaction of a call, what its reads have checked, and what it returns. -/
inductive Call.Sends (world : World) : Call → Transaction → Response → Prop where
  | createAccount {dto : CreateAccountInput} {actor : String} {account : Account}
      (built : Account.validate dto.code dto.name dto.category = .ok account) :
      Sends world (.createAccount dto actor)
        (.insertAccount account.code account.name (accountLookupKey account.name) account.category
          (auditRow .create account.code actor))
        (.account (AccountService.toViewModel account))
  | updateAccount {dto : UpdateAccountInput} {actor : String} {row loaded : AccountModel}
      {existing updated : Account} (read : row ∈ world.accounts ∧ row.code = dto.code)
      (rebuilt : PostgresAccountRepo.toDomain row = .ok existing)
      (built : Account.validate existing.code (dto.name.getD existing.name)
        (dto.category.getD existing.category) = .ok updated)
      (found : loaded ∈ world.accounts ∧ loaded.code = updated.code) :
      Sends world (.updateAccount dto actor)
        (.updateAccount loaded updated.name (accountLookupKey updated.name) updated.category
          (auditRow .update updated.code actor))
        (.account (AccountService.toViewModel updated))
  | deleteAccount {code actor : String} {row loaded : AccountModel} {existing : Account}
      (read : row ∈ world.accounts ∧ row.code = code)
      (rebuilt : PostgresAccountRepo.toDomain row = .ok existing)
      (unposted : ∀ posting ∈ world.postings,
        posting.accountKey ≠ accountLookupKey existing.name)
      (found : loaded ∈ world.accounts ∧ loaded.code = code) :
      Sends world (.deleteAccount code actor)
        (.deleteAccount loaded (auditRow .delete code actor)) .deleted
  | createJournalEntry {input : CreateJournalInput} {actor : String} {env : Env}
      {chart : ChartOfAccounts} {now : Timestamp} {number : Int} {entry : JournalEntry}
      {view : JournalViewModel}
      (charted : fromRows PostgresAccountRepo.toDomain (Query.rows env world .allAccounts) =
        .ok chart.accounts)
      (resolved : JournalService.resolveLines chart input.lines = .ok ())
      (built : JournalService.buildEntry now number input = .ok entry)
      (viewed : toEntryView entry = .ok view) :
      Sends world (.createJournalEntry input actor)
        (.insertJournal (headerOf entry actor)
          (PostgresJournalRepo.lineRows entry.journalNumber entry.lines))
        (.journal view)
  | postJournalEntry {number : Int} {actor : String} {header : JournalEntryModel}
      {views : List PostingViewModel} (stored : header ∈ world.journalEntries)
      (own : header.journalNumber = number)
      (readable : ∃ now entry, PostgresJournalRepo.toDomain now header
        (world.linesOf header.journalNumber) = .ok entry) :
      Sends world (.postJournalEntry number actor)
        (.insertPostings (((world.linesOf header.journalNumber).map
          (postingOf header (some actor))).map PostingModel.sent))
        (.postings views)

/-- The actor of a call that writes. -/
def Call.actor : Call → Option String
  | .createAccount _ actor => some actor
  | .updateAccount _ actor => some actor
  | .deleteAccount _ actor => some actor
  | .createJournalEntry _ actor => some actor
  | .postJournalEntry _ actor => some actor
  | _ => none

/-- The log record of a successful call. -/
inductive Call.Logs : Call → Response → LogRecord → Prop where
  | createAccount {dto : CreateAccountInput} {actor : String} {view : AccountViewModel} :
      Logs (.createAccount dto actor) (.account view)
        ⟨"account.created",
          [("code", .text view.code), ("category", .text view.category.value)]⟩
  | updateAccount {dto : UpdateAccountInput} {actor : String} {view : AccountViewModel} :
      Logs (.updateAccount dto actor) (.account view)
        ⟨"account.updated", [("code", .text view.code)]⟩
  | deleteAccount {code actor : String} :
      Logs (.deleteAccount code actor) .deleted ⟨"account.deleted", [("code", .text code)]⟩
  | createJournalEntry {input : CreateJournalInput} {actor : String} {view : JournalViewModel} :
      Logs (.createJournalEntry input actor) (.journal view)
        ⟨"journal.created", [("journal_number", .number view.journalNumber),
          ("line_count", .number view.lines.length)]⟩
  | postJournalEntry {number : Int} {actor : String} {views : List PostingViewModel} :
      Logs (.postJournalEntry number actor) (.postings views)
        ⟨"posting.created",
          [("journal_number", .number number), ("line_count", .number views.length)]⟩

/-- The store a call sends its transaction to. -/
def Call.prepared (world : World) : Call → World
  | .createJournalEntry _ _ => world.drawn
  | _ => world

theorem Call.sameTables_prepared (call : Call) (world : World) :
    world.SameTables (call.prepared world) := by
  cases call <;> exact ⟨rfl, rfl, rfl, rfl, rfl⟩

/-- The references of an input resolve in the chart of a store. -/
def World.Resolves (world : World) (input : CreateJournalInput) : Prop :=
  ∃ (env : Env) (chart : ChartOfAccounts),
    fromRows PostgresAccountRepo.toDomain (Query.rows env world .allAccounts) =
      .ok chart.accounts ∧ JournalService.resolveLines chart input.lines = .ok ()

/-- The number that the transaction of a call inserts an entry under. -/
def Transaction.Numbered (number : Int) : Transaction → Prop
  | .insertJournal header _ => header.journalNumber = number
  | _ => True

/-- What a call that writes does, in full: it stops and leaves the state as it is, it stops after
it has drawn a number, or it commits its transaction and logs once. -/
inductive Call.Run (call : Call) (world : World) : Except Raised Response → World → Prop where
  | stopped {outcome : Except Raised Response} {after : World}
      (stops : Stops world outcome after) : call.Run world outcome after
  | drew {input : CreateJournalInput} {actor : String} {error : Raised}
      (creates : call = .createJournalEntry input actor) (named : isNonBlankActor actor = true)
      (resolves : world.Resolves input) : call.Run world (.error error) world.drawn
  | wrote {transaction : Transaction} {response : Response} {record : LogRecord} {env : Env}
      {stored : World} (named : ∀ actor ∈ call.actor, isNonBlankActor actor = true)
      (sends : call.Sends world transaction response) (logs : call.Logs response record)
      (numbered : transaction.Numbered world.nextJournalNumber)
      (applied : transaction.apply env (call.prepared world) = .ok stored) :
      call.Run world (.ok response) { stored with log := stored.log ++ [record] }

/-- What a call does: it fails, it reads, or it commits its transaction. -/
inductive Call.Effect (call : Call) (world : World) : Except Raised Response → World → Prop where
  | failed {outcome : Except Raised Response} {after : World} (fails : Fails world outcome after) :
      call.Effect world outcome after
  | read {outcome : Except Raised Response} {after : World} (reads : ¬call.Writes)
      (same : world.SameTables after) : call.Effect world outcome after
  | wrote {transaction : Transaction} {response : Response} {env : Env}
      {middle stored after : World} (sends : call.Sends world transaction response)
      (before : world.SameTables middle) (applied : transaction.apply env middle = .ok stored)
      (rest : stored.SameTables after) : call.Effect world (.ok response) after

theorem Call.Run.effect {call : Call} {world after : World} {outcome : Except Raised Response}
    (run : call.Run world outcome after) : call.Effect world outcome after := by
  cases run with
  | stopped stops => exact .failed stops.fails
  | drew creates named resolves => exact .failed ⟨⟨_, rfl⟩, ⟨rfl, rfl, rfl, rfl, rfl⟩⟩
  | wrote named sends logs numbered applied =>
    exact .wrote sends (call.sameTables_prepared world) applied ⟨rfl, rfl, rfl, rfl, rfl⟩

/-- An entry is built from built lines, under the number it is given. -/
theorem buildEntry_eq_ok_iff {now : Timestamp} {number : Int} {input : CreateJournalInput}
    {entry : JournalEntry} : JournalService.buildEntry now number input = .ok entry ↔
      ∃ lines, JournalService.buildLines input.lines = .ok lines ∧
        JournalEntry.validate now number input.postingDate lines input.description =
          .ok entry := by
  unfold JournalService.buildEntry
  cases JournalService.buildLines input.lines with
  | error error => exact iff_of_false (fun same => by cases same) (by rintro ⟨_, ⟨⟩, _⟩)
  | ok lines =>
    constructor
    · exact fun built => ⟨lines, rfl, built⟩
    · rintro ⟨_, ⟨⟩, built⟩
      exact built

theorem resolveLines_eq_ok_iff {chart : ChartOfAccounts} {lines : List JournalLineInput} :
    JournalService.resolveLines chart lines = .ok () ↔
      ∀ line ∈ lines, ∃ account, chart.getByName line.account = some account := by
  rw [JournalService.resolveLines, List.forM_eq_forM]
  induction lines with
  | nil => exact ⟨fun _ _ member => (List.not_mem_nil member).elim, fun _ => rfl⟩
  | cons line rest inductionHypothesis =>
    rw [List.forM_cons, List.forall_mem_cons, ← inductionHypothesis]
    cases found : chart.getByName line.account with
    | none => simp [refuseIf, bind, Except.bind]
    | some account => simp [refuseIf, bind, Except.bind]

/-- Lines that are not resolved have a reference that the chart does not know. -/
theorem resolveLines_error {chart : ChartOfAccounts} {lines : List JournalLineInput}
    {error : Raised} (raised : JournalService.resolveLines chart lines = .error error) :
    ∃ reference, error = AccountService.unknownAccount reference := by
  rw [JournalService.resolveLines, List.forM_eq_forM] at raised
  induction lines with
  | nil => cases raised
  | cons line rest inductionHypothesis =>
    rw [List.forM_cons] at raised
    cases unknown : (chart.getByName line.account).isNone with
    | true =>
      rw [unknown] at raised
      cases raised
      exact ⟨line.account, rfl⟩
    | false =>
      rw [unknown] at raised
      exact inductionHypothesis raised

theorem named_of_requireActor {actor : String} {done : Unit}
    (required : requireActor actor = .ok done) : isNonBlankActor actor = true := by
  unfold requireActor at required
  split at required
  · assumption
  · cases required

section Calls

variable {permits : World → Command → Env → Prop} {world after : World}
  {outcome : Except Raised Response}

theorem createAccount_run {dto : CreateAccountInput} {actor : String}
    (runs : Runs handle permits (Call.createAccount dto actor).program world outcome after) :
    (Call.createAccount dto actor).Run world outcome after := by
  simp only [Call.program, AccountService.createAccount, map_eq_pure_bind, bind_assoc,
    pure_bind] at runs
  rcases runs_lift_bind runs with stops | ⟨_, named, runs⟩
  · exact .stopped stops
  rcases runs_reads_bind (PostgresAccountRepo.existsByCode_issues (fun _ => trivial) _) runs with
    stops | ⟨_, runs⟩
  · exact .stopped stops
  rcases runs_lift_bind runs with stops | ⟨_, _, runs⟩
  · exact .stopped stops
  rcases runs_reads_bind (PostgresAccountRepo.existsByName_issues (fun _ => trivial) _) runs with
    stops | ⟨_, runs⟩
  · exact .stopped stops
  rcases runs_lift_bind runs with stops | ⟨_, _, runs⟩
  · exact .stopped stops
  rcases runs_lift_bind runs with stops | ⟨account, built, runs⟩
  · exact .stopped stops
  rcases runs_commit_log runs with stops | ⟨env, stored, applied, rfl, rfl⟩
  · exact .stopped stops
  refine .wrote ?_ (.createAccount (translating_eq_ok_iff.mp built)) .createAccount trivial applied
  rintro _ ⟨⟩
  exact named_of_requireActor named

theorem updateAccount_run {dto : UpdateAccountInput} {actor : String}
    (runs : Runs handle permits (Call.updateAccount dto actor).program world outcome after) :
    (Call.updateAccount dto actor).Run world outcome after := by
  simp only [Call.program, AccountService.updateAccount, PostgresAccountRepo.update,
    map_eq_pure_bind, bind_assoc, pure_bind] at runs
  rcases runs_lift_bind runs with stops | ⟨_, named, runs⟩
  · exact .stopped stops
  rcases runs_getByCode_bind runs with stops | ⟨found, fromRow, runs⟩
  · exact .stopped stops
  rcases runs_lift_bind runs with stops | ⟨existing, present, runs⟩
  · exact .stopped stops
  obtain ⟨row, member, own, rebuilt⟩ := fromRow existing (orRaise_eq_ok_iff.mp present)
  rcases runs_reads_bind (AccountService.nameTakenOnChange_issues (fun _ => trivial) _ _) runs with
    stops | ⟨_, runs⟩
  · exact .stopped stops
  rcases runs_lift_bind runs with stops | ⟨_, _, runs⟩
  · exact .stopped stops
  rcases runs_lift_bind runs with stops | ⟨updated, built, runs⟩
  · exact .stopped stops
  rcases runs_load_bind runs with stops | ⟨found, stored, runs⟩
  · exact .stopped stops
  cases found with
  | none => exact .stopped (stops_of_done runs)
  | some loaded =>
    rcases runs_commit_log runs with stops | ⟨env, flushed, applied, rfl, rfl⟩
    · exact .stopped stops
    refine .wrote ?_ (.updateAccount ⟨member, own⟩ rebuilt (translating_eq_ok_iff.mp built)
      (stored loaded rfl)) .updateAccount trivial applied
    rintro _ ⟨⟩
    exact named_of_requireActor named

theorem deleteAccount_run {code actor : String}
    (runs : Runs handle permits (Call.deleteAccount code actor).program world outcome after) :
    (Call.deleteAccount code actor).Run world outcome after := by
  simp only [Call.program, AccountService.deleteAccount, PostgresAccountRepo.deleteByCode,
    map_eq_pure_bind, bind_assoc] at runs
  rcases runs_lift_bind runs with stops | ⟨_, named, runs⟩
  · exact .stopped stops
  rcases runs_getByCode_bind runs with stops | ⟨found, fromRow, runs⟩
  · exact .stopped stops
  rcases runs_lift_bind runs with stops | ⟨existing, present, runs⟩
  · exact .stopped stops
  obtain ⟨row, member, own, rebuilt⟩ := fromRow existing (orRaise_eq_ok_iff.mp present)
  rcases runs_hasPostings_bind runs with stops | ⟨posted, none, runs⟩
  · exact .stopped stops
  rcases runs_lift_bind runs with stops | ⟨_, unposted, runs⟩
  · exact .stopped stops
  have free : posted = false := by
    cases posted with
    | false => rfl
    | true => cases unposted
  rcases runs_load_bind runs with stops | ⟨found, stored, runs⟩
  · exact .stopped stops
  cases found with
  | none => exact .stopped (stops_of_done runs)
  | some loaded =>
    rcases runs_commit_log runs with stops | ⟨env, flushed, applied, rfl, rfl⟩
    · exact .stopped stops
    refine .wrote ?_ (.deleteAccount ⟨member, own⟩ rebuilt (none free) (stored loaded rfl))
      .deleteAccount trivial applied
    rintro _ ⟨⟩
    exact named_of_requireActor named

theorem createJournalEntry_run {input : CreateJournalInput} {actor : String}
    (runs : Runs handle permits (Call.createJournalEntry input actor).program world outcome
      after) : (Call.createJournalEntry input actor).Run world outcome after := by
  simp only [Call.program, JournalService.createJournalEntry, JournalService.validateAccounts,
    AccountService.getChart, PostgresAccountRepo.listAll, map_eq_pure_bind, bind_assoc] at runs
  rcases runs_lift_bind runs with stops | ⟨_, named, runs⟩
  · exact .stopped stops
  rcases runs_execute_bind runs with stops | ⟨env, runs⟩
  · exact .stopped stops
  rcases runs_lift_bind runs with stops | ⟨accounts, charted, runs⟩
  · exact .stopped stops
  rcases runs_lift_bind runs with stops | ⟨chart, indexed, runs⟩
  · exact .stopped stops
  rcases runs_lift_bind runs with stops | ⟨_, resolved, runs⟩
  · exact .stopped stops
  rw [← ChartOfAccounts.validate_eq_ok_iff.mp indexed] at charted
  rcases runs_nextJournalNumber_bind runs with stops | ⟨now, runs⟩
  · exact .stopped stops
  -- From here on the sequence of journal numbers has moved.
  have drew : Stops world.drawn outcome after →
      (Call.createJournalEntry input actor).Run world outcome after := by
    rintro ⟨⟨error, rfl⟩, rfl⟩
    exact .drew rfl (named_of_requireActor named) ⟨env, chart, charted, resolved⟩
  rcases runs_lift_bind runs with stops | ⟨entry, built, runs⟩
  · exact drew stops
  obtain ⟨view, viewed, sameNumber, _, _, sameLines, _⟩ := toEntryView_eq_ok entry
  simp only [JournalService.computing, viewed] at runs
  rcases runs_commit_log runs with stops | ⟨env', stored, applied, rfl, rfl⟩
  · exact drew stops
  have built := translating_eq_ok_iff.mp built
  obtain ⟨_, _, validated⟩ := buildEntry_eq_ok_iff.mp built
  have logs := @Call.Logs.createJournalEntry input actor view
  rw [sameNumber, sameLines, List.length_map] at logs
  refine .wrote ?_ (.createJournalEntry charted resolved built viewed) logs
    (JournalEntry.validate_eq_ok_iff.mp validated).1 applied
  rintro _ ⟨⟩
  exact named_of_requireActor named

/-- On a sound ledger, posting reads its entry as it is stored and sends its lines. -/
theorem postJournalEntry_run (sound : world.Sound) {number : Int} {actor : String}
    (runs : Runs handle permits (Call.postJournalEntry number actor).program world outcome after) :
    (Call.postJournalEntry number actor).Run world outcome after := by
  simp only [Call.program, PostingService.postJournalEntry, JournalService.getJournalEntry,
    PostgresJournalRepo.getByNumber, PostgresPostingRepo.getByJournalNumber, map_eq_pure_bind,
    bind_assoc, pure_bind] at runs
  rcases runs_lift_bind runs with stops | ⟨_, named, runs⟩
  · exact .stopped stops
  rcases runs_execute_bind runs with stops | ⟨env, runs⟩
  · exact .stopped stops
  rcases runs_lift_bind runs with stops | ⟨found, loads, runs⟩
  · exact .stopped stops
  cases found with
  | none => exact .stopped (stops_of_done runs)
  | some header =>
    obtain ⟨stored, own⟩ := mem_of_journalEntriesByNumber env loads
    simp only [bind_assoc] at runs
    rcases runs_execute_bind runs with stops | ⟨env, runs⟩
    · exact .stopped stops
    rw [journalLinesByNumber_rows sound, ← own] at runs
    rcases runs_lift_bind runs with stops | ⟨entry, rebuilt, runs⟩
    · exact .stopped stops
    obtain ⟨view, viewed, sameNumber, date, lines⟩ := view_of_toDomain
      (fun line member => sound.clean line (mem_linesOf.mp member).1) rebuilt
    simp only [orRaise, JournalService.computing, viewed, Program.lift_eq, Program.pure_eq,
      Program.ok_bind] at runs
    rcases runs_execute_bind runs with stops | ⟨env, runs⟩
    · exact .stopped stops
    rcases runs_lift_bind runs with stops | ⟨existing, _, runs⟩
    · exact .stopped stops
    rcases runs_lift_bind runs with stops | ⟨_, _, runs⟩
    · exact .stopped stops
    rcases runs_lift_bind runs with stops | ⟨postings, derived, runs⟩
    · exact .stopped stops
    have read : ReadEntry number world header view :=
      ⟨stored, own, ⟨_, entry, rebuilt⟩, sameNumber, date, lines⟩
    rw [PostgresPostingRepo.saveMany, read.rows_eq sound derived] at runs
    rcases runs_commit_log runs with stops | ⟨env, flushed, applied, rfl, rfl⟩
    · exact .stopped stops
    have logs := @Call.Logs.postJournalEntry number actor
      (postings.map PostingService.toViewModel)
    rw [List.length_map] at logs
    rw [own]
    refine .wrote ?_ (.postJournalEntry stored own ⟨_, entry, rebuilt⟩) logs trivial applied
    rintro _ ⟨⟩
    exact named_of_requireActor named

/-- What a call that writes does when it runs alone on a sound ledger. -/
theorem write_run (sound : world.Sound) {call : Call} (writes : call.Writes)
    (runs : Runs handle permits call.program world outcome after) :
    call.Run world outcome after := by
  cases call with
  | createAccount dto actor => exact createAccount_run runs
  | updateAccount dto actor => exact updateAccount_run runs
  | deleteAccount code actor => exact deleteAccount_run runs
  | createJournalEntry input actor => exact createJournalEntry_run runs
  | postJournalEntry number actor => exact postJournalEntry_run sound runs
  | _ => exact writes.elim

/-- What a call does when it runs alone on a sound ledger. -/
theorem call_effect (sound : world.Sound) {call : Call}
    (runs : Runs handle permits call.program world outcome after) :
    call.Effect world outcome after := by
  have quiet : ∀ query, Command.Quiet (.query query) := fun _ => trivial
  cases call with
  | createAccount dto actor => exact (createAccount_run runs).effect
  | updateAccount dto actor => exact (updateAccount_run runs).effect
  | deleteAccount code actor => exact (deleteAccount_run runs).effect
  | createJournalEntry input actor => exact (createJournalEntry_run runs).effect
  | postJournalEntry number actor => exact (postJournalEntry_run sound runs).effect
  | getAccount code =>
    exact .read id (runs_quiet (issues_map (AccountService.getAccount_issues quiet code) _) runs)
  | getChart =>
    exact .read id (runs_quiet (issues_map (AccountService.getChart_issues quiet) _) runs)
  | resolveAccount reference =>
    exact .read id
      (runs_quiet (issues_map (AccountService.resolveAccount_issues quiet reference) _) runs)
  | listAccounts =>
    exact .read id (runs_quiet (issues_map (AccountService.listAccounts_issues quiet) _) runs)
  | getJournalEntry number =>
    exact .read id
      (runs_quiet (issues_map (JournalService.getJournalEntry_issues quiet number) _) runs)
  | listJournalEntries =>
    exact .read id (runs_quiet (issues_map (JournalService.listJournalEntries_issues quiet) _) runs)
  | getPostingsByAccount account =>
    exact .read id (runs_quiet (issues_map (getPostingsByAccount_issues quiet account) _) runs)
  | getPostingsByJournalNumber number =>
    exact .read id (runs_quiet (issues_map (getPostingsByJournalNumber_issues quiet number) _) runs)
  | getTrialBalance asOf =>
    exact .read id
      (runs_quiet (issues_map (getTrialBalance_issues quiet (fun _ => trivial) asOf) _) runs)

end Calls

end Trutina
