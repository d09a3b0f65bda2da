/-
This file proves that what a caller is told is what happened, in every
interleaving of calls. A call that returns has committed one transaction and then
logged one record, and its response, the transaction and the record say the same,
about the rows that the call itself has found; what a reading call returns is what
it has found. A call that raises has committed nothing and logged nothing, also
when the error is found after other calls have gone on. A call that is abandoned
has committed at most once, and a call that only reads never commits. The log of
the application holds what the calls have logged, and nothing else.
-/

import Trutina.Lookups
import Trutina.Sequential

namespace Trutina

open Interaction

/-! ### Deeds -/

/-- The transactions that were committed and the records that were logged, in order. -/
structure Deeds where
  committed : List Transaction
  logged : List LogRecord
  deriving DecidableEq, Repr

def Deeds.none : Deeds := ⟨[], []⟩

/-- The deeds after one more command. A transaction counts when the database has accepted it. -/
def Deeds.after (deeds : Deeds) : (command : Command) → Reply command → Deeds
  | .transact transaction, reply =>
    match reply.value with
    | .ok () => { deeds with committed := deeds.committed ++ [transaction] }
    | .error _ => deeds
  | .emit record, _ => { deeds with logged := deeds.logged ++ [record] }
  | .query _, _ => deeds
  | .nextval, _ => deeds

/-- What one thread of a run has done. -/
def deedsOf {Thread : Type} [DecidableEq Thread] (thread : Thread)
    (trace : List (Move Thread Command Env World)) : Deeds :=
  trace.foldl (fun deeds move =>
    if move.thread = thread then deeds.after move.command (move.reply handle) else deeds) .none

/-- The record a command logs. -/
def Command.logs : Command → Option LogRecord
  | .emit record => some record
  | _ => .none

/-! ### What a call achieves -/

/-- What a call has done when it returns: the transaction is the one that the response shows, of the
rows that its steps have found, and the record is about it. -/
inductive Call.Achieves (steps : OwnSteps) : Call → Response → Deeds → Prop where
  | createAccount {dto : CreateAccountInput} {actor : String} {account : Account}
      (built : Account.validate dto.code dto.name dto.category = .ok account) :
      Achieves steps (.createAccount dto actor) (.account (AccountService.toViewModel account))
        ⟨[.insertAccount account.code account.name (accountLookupKey account.name)
            account.category (auditRow .create account.code actor)],
          [⟨"account.created",
            [("code", .text account.code), ("category", .text account.category.value)]⟩]⟩
  | updateAccount {dto : UpdateAccountInput} {actor : String} {loaded : AccountModel}
      {existing updated : Account} {now : Timestamp} (read : steps.Found dto.code existing)
      (built : Account.validate dto.code (dto.name.getD existing.name)
        (dto.category.getD existing.category) = .ok updated)
      (found : steps.Answered (.accountsByCode dto.code) [loaded] now) :
      Achieves steps (.updateAccount dto actor) (.account (AccountService.toViewModel updated))
        ⟨[.updateAccount loaded updated.name (accountLookupKey updated.name) updated.category
            (auditRow .update dto.code actor)],
          [⟨"account.updated", [("code", .text dto.code)]⟩]⟩
  | deleteAccount {code actor : String} {loaded : AccountModel} {now : Timestamp}
      (found : steps.Answered (.accountsByCode code) [loaded] now) :
      Achieves steps (.deleteAccount code actor) .deleted
        ⟨[.deleteAccount loaded (auditRow .delete code actor)],
          [⟨"account.deleted", [("code", .text code)]⟩]⟩
  | createJournalEntry {input : CreateJournalInput} {actor : String} {now : Timestamp}
      {number : Int} {entry : JournalEntry} {view : JournalViewModel}
      (drawn : steps.Drew number now)
      (built : JournalService.buildEntry now number input = .ok entry)
      (viewed : toEntryView entry = .ok view) :
      Achieves steps (.createJournalEntry input actor) (.journal view)
        ⟨[.insertJournal (headerOf entry actor)
            (PostgresJournalRepo.lineRows entry.journalNumber entry.lines)],
          [⟨"journal.created", [("journal_number", .number view.journalNumber),
            ("line_count", .number view.lines.length)]⟩]⟩
  | postJournalEntry {number : Int} {actor : String} {view : JournalViewModel}
      {postings : List LedgerPosting} {now : Timestamp} (read : steps.Viewed number view)
      (unposted : steps.FoundPostingsOf number [] now)
      (derived : PostingService.derivePostings now view = .ok postings) :
      Achieves steps (.postJournalEntry number actor)
        (.postings (postings.map PostingService.toViewModel))
        ⟨[.insertPostings (PostgresPostingRepo.postingRows postings actor)],
          [⟨"posting.created", [("journal_number", .number number),
            ("line_count", .number postings.length)]⟩]⟩
  | getTrialBalance {asOfDate : Option Timestamp} {entries : List AccountBalanceEntry}
      (read : steps.FoundBalances asOfDate entries) :
      Achieves steps (.getTrialBalance asOfDate) (.trialBalance { entries, asOfDate })
        ⟨[], [⟨"trial_balance.generated",
          [("entry_count", .number entries.length), ("as_of_date", .date asOfDate)]⟩]⟩
  | getAccount {code : String} {account : Account} (read : steps.Found code account) :
      Achieves steps (.getAccount code) (.account (AccountService.toViewModel account)) .none
  | getChart {chart : ChartOfAccounts} (read : steps.Charted chart) :
      Achieves steps .getChart (.chart chart) .none
  | resolveAccount {reference : String} {chart : ChartOfAccounts} {account : Account}
      (read : steps.Charted chart) (found : chart.getByName reference = some account) :
      Achieves steps (.resolveAccount reference) (.account (AccountService.toViewModel account))
        .none
  | listAccounts {accounts : List Account} (read : steps.Listed accounts) :
      Achieves steps .listAccounts (.accounts ⟨accounts.map AccountService.toViewModel⟩) .none
  | getJournalEntry {number : Int} {view : JournalViewModel} (read : steps.Viewed number view) :
      Achieves steps (.getJournalEntry number) (.journal view) .none
  | listJournalEntries {entries : List JournalEntry} {views : List JournalViewModel}
      (read : steps.ListedEntries entries)
      (viewed : JournalService.toEntryViews entries = .ok views) :
      Achieves steps .listJournalEntries (.journals views) .none
  | getPostingsByAccount {account : String} {postings : List LedgerPosting}
      (read : steps.FoundPostings account postings) :
      Achieves steps (.getPostingsByAccount account)
        (.postings (postings.map PostingService.toViewModel)) .none
  | getPostingsByJournalNumber {number : Int} {postings : List LedgerPosting} {now : Timestamp}
      (read : steps.FoundPostingsOf number postings now) :
      Achieves steps (.getPostingsByJournalNumber number)
        (.postings (postings.map PostingService.toViewModel)) .none

/-- What only reads has committed nothing. -/
theorem Call.Achieves.committed_eq_nil {steps : OwnSteps} {call : Call} {response : Response}
    {deeds : Deeds} (achieves : call.Achieves steps response deeds) (reads : ¬call.Writes) :
    deeds.committed = [] := by
  cases achieves
  case createAccount => exact absurd trivial reads
  case updateAccount => exact absurd trivial reads
  case deleteAccount => exact absurd trivial reads
  case createJournalEntry => exact absurd trivial reads
  case postJournalEntry => exact absurd trivial reads
  all_goals rfl

/-- A call has at most one deed of each kind, logs a write only after it, and commits nothing when
it reads. -/
structure Deeds.Orderly (call : Call) (deeds : Deeds) : Prop where
  once : deeds.committed.length ≤ 1
  loggedOnce : deeds.logged.length ≤ 1
  afterwards : call.Writes → deeds.logged.length ≤ deeds.committed.length
  reads : ¬call.Writes → deeds.committed = []

/-- What a call may do next, given what it has done. -/
def Call.mayDo (call : Call) (deeds : Deeds) : Command → Prop
  | .transact _ => call.Writes ∧ deeds = .none
  | .emit _ => deeds.logged = [] ∧ (call.Writes → deeds.committed ≠ [])
  | _ => True

/-- The monitor that keeps the deeds of a call, which is told what its steps are. -/
def Call.ledgerOfDeeds (call : Call) (steps : OwnSteps) : Monitor Command Reply Deeds where
  allows := call.mayDo
  expects := steps.Told
  next := Deeds.after

/-- A call that raises has done nothing, and one that returns has achieved what it returns. -/
def Call.Settled (call : Call) (steps : OwnSteps) (deeds : Deeds) : Except Raised Response → Prop
  | .error _ => deeds = .none
  | .ok response => call.Achieves steps response deeds

theorem Deeds.Orderly.after {call : Call} {deeds : Deeds} (orderly : deeds.Orderly call)
    {command : Command} (allowed : call.mayDo deeds command) (reply : Reply command) :
    (deeds.after command reply).Orderly call := by
  cases command with
  | query query => exact orderly
  | nextval => exact orderly
  | transact transaction =>
    obtain ⟨writes, rfl⟩ := allowed
    obtain ⟨error | done, now⟩ := reply
    · exact orderly
    · exact ⟨le_refl _, Nat.zero_le _, fun _ => Nat.zero_le _, absurd writes⟩
  | emit record =>
    obtain ⟨unlogged, committed⟩ := allowed
    have one : (deeds.after (.emit record) reply).logged.length = 1 := by
      simp only [Deeds.after, unlogged, List.nil_append, List.length_singleton]
    refine ⟨orderly.once, one.le, fun writes => ?_, orderly.reads⟩
    rw [one]
    exact List.length_pos_of_ne_nil (committed writes)

/-! ### The deeds of each call -/

section Calls

variable {call : Call} {steps : OwnSteps}

theorem Command.Idle.still {command : Command} (idle : command.Idle) (deeds : Deeds) :
    (call.ledgerOfDeeds steps).allows deeds command ∧
      ∀ reply, (call.ledgerOfDeeds steps).next deeds command reply = deeds := by
  cases command with
  | query query => exact ⟨trivial, fun _ => rfl⟩
  | nextval => exact ⟨trivial, fun _ => rfl⟩
  | transact transaction => exact idle.elim
  | emit record => exact idle.elim

/-- What an operation that only reads learns is no deed. -/
theorem Learns.conforms {Error Result : Type} {program : Program Command Reply Error Result}
    {learned : Result → Prop} (learns : Learns steps program learned) (deeds : Deeds) :
    program.Conforms (call.ledgerOfDeeds steps) (fun reached outcome => reached = deeds ∧
      ∀ result, outcome = .ok result → learned result) deeds :=
  Program.Conforms.under learns (Program.issues_all program) (fun _ _ idle _ => idle.still deeds)
    (fun _ _ told => told) fun _ _ holds => ⟨rfl, holds⟩

/-- A first part that only reads. -/
theorem learns_bind {Result : Type} {program : Action Result} {learned : Result → Prop}
    {continuation : Result → Action Response} (learns : Learns steps program learned)
    (rest : ∀ result, learned result →
      (continuation result).Conforms (call.ledgerOfDeeds steps) (call.Settled steps) .none) :
    (program >>= continuation).Conforms (call.ledgerOfDeeds steps) (call.Settled steps) .none := by
  refine (learns.conforms .none).bind (fun deeds result holds => ?_) fun deeds error holds => ?_
  · exact holds.1 ▸ rest result (holds.2 result rfl)
  · exact holds.1

/-- A call that only reads. -/
theorem settles_of_learns {Result : Type} {program : Action Result} {learned : Result → Prop}
    {wrap : Result → Response} (learns : Learns steps program learned)
    (achieves : ∀ result, learned result → call.Achieves steps (wrap result) .none) :
    (wrap <$> program).Conforms (call.ledgerOfDeeds steps) (call.Settled steps) .none := by
  rw [map_eq_pure_bind]
  exact learns_bind learns fun result holds => Program.conforms_done (achieves result holds)

/-- The end of a write: the transaction, the record and the response. -/
theorem commit_log_conforms {transaction : Transaction} {onViolation : Option String → Raised}
    {event : String} {context : List (String × LogValue)} {response : Response}
    (writes : call.Writes)
    (achieves : call.Achieves steps response ⟨[transaction], [⟨event, context⟩]⟩) :
    (commitOr onViolation transaction >>= fun _ => logInfo event context >>= fun _ =>
      (.done (.ok response) : Action Response)).Conforms (call.ledgerOfDeeds steps)
        (call.Settled steps) .none := by
  rw [commitOr_eq, Program.ask_bind]
  refine Program.conforms_ask ⟨writes, rfl⟩ fun reply => ?_
  obtain ⟨(constraint | fault) | done, now⟩ := reply
  · exact Program.conforms_done rfl
  · exact Program.conforms_done rfl
  · refine Program.conforms_ask ⟨rfl, fun _ => List.cons_ne_nil _ _⟩ fun _ => ?_
    exact Program.conforms_done achieves

theorem createAccount_settles (dto : CreateAccountInput) (actor : String) :
    (Call.createAccount dto actor).program.Conforms
      ((Call.createAccount dto actor).ledgerOfDeeds steps)
      ((Call.createAccount dto actor).Settled steps) .none := by
  simp only [Call.program, AccountService.createAccount, map_eq_pure_bind, bind_assoc, pure_bind]
  refine learns_bind (lift_learns _) fun _ _ => ?_
  refine learns_bind (idle_learns (PostgresAccountRepo.existsByCode_issues (fun _ => trivial) _))
    fun _ _ => ?_
  refine learns_bind (lift_learns _) fun _ _ => ?_
  refine learns_bind (idle_learns (PostgresAccountRepo.existsByName_issues (fun _ => trivial) _))
    fun _ _ => ?_
  refine learns_bind (lift_learns _) fun _ _ => learns_bind (lift_learns _) fun account built => ?_
  exact commit_log_conforms trivial (.createAccount (translating_eq_ok_iff.mp built))

theorem updateAccount_settles (dto : UpdateAccountInput) (actor : String) :
    (Call.updateAccount dto actor).program.Conforms
      ((Call.updateAccount dto actor).ledgerOfDeeds steps)
      ((Call.updateAccount dto actor).Settled steps) .none := by
  simp only [Call.program, AccountService.updateAccount, PostgresAccountRepo.update,
    map_eq_pure_bind, bind_assoc, pure_bind]
  refine learns_bind (lift_learns _) fun _ _ => ?_
  refine learns_bind (PostgresAccountRepo.getByCode_learns _) fun found looked => ?_
  refine learns_bind (lift_learns _) fun existing present => ?_
  have read : steps.Found dto.code existing := looked existing (orRaise_eq_ok_iff.mp present)
  refine learns_bind (idle_learns (AccountService.nameTakenOnChange_issues (fun _ => trivial) _ _))
    fun _ _ => ?_
  refine learns_bind (lift_learns _) fun _ _ => learns_bind (lift_learns _) fun updated valid => ?_
  have built := translating_eq_ok_iff.mp valid
  rw [read.code] at built
  rw [(Account.validate_eq_ok_iff.mp built).1]
  refine learns_bind (PostgresAccountRepo.load_learns _) fun found answered => ?_
  cases found with
  | none => exact Program.conforms_done rfl
  | some loaded =>
    obtain ⟨now, single⟩ := answered loaded rfl
    exact commit_log_conforms trivial (.updateAccount read built single)

theorem deleteAccount_settles (code actor : String) :
    (Call.deleteAccount code actor).program.Conforms
      ((Call.deleteAccount code actor).ledgerOfDeeds steps)
      ((Call.deleteAccount code actor).Settled steps) .none := by
  simp only [Call.program, AccountService.deleteAccount, PostgresAccountRepo.deleteByCode,
    map_eq_pure_bind, bind_assoc]
  refine learns_bind (lift_learns _) fun _ _ => ?_
  refine learns_bind (PostgresAccountRepo.getByCode_learns _) fun _ _ => ?_
  refine learns_bind (lift_learns _) fun existing _ => ?_
  refine learns_bind (idle_learns (AccountService.hasPostings_issues (fun _ => trivial) _))
    fun _ _ => ?_
  refine learns_bind (lift_learns _) fun _ _ => ?_
  refine learns_bind (PostgresAccountRepo.load_learns _) fun found answered => ?_
  cases found with
  | none => exact Program.conforms_done rfl
  | some loaded =>
    obtain ⟨now, single⟩ := answered loaded rfl
    exact commit_log_conforms trivial (.deleteAccount single)

theorem createJournalEntry_settles (input : CreateJournalInput) (actor : String) :
    (Call.createJournalEntry input actor).program.Conforms
      ((Call.createJournalEntry input actor).ledgerOfDeeds steps)
      ((Call.createJournalEntry input actor).Settled steps) .none := by
  simp only [Call.program, JournalService.createJournalEntry, map_eq_pure_bind, bind_assoc]
  refine learns_bind (lift_learns _) fun _ _ => ?_
  refine learns_bind (idle_learns (JournalService.validateAccounts_issues (fun _ => trivial) _))
    fun _ _ => ?_
  refine learns_bind PostgresJournalRepo.nextJournalNumber_learns fun drawn drew => ?_
  refine learns_bind (lift_learns _) fun entry built => ?_
  -- The view of an accepted entry is always computed, so nothing can fail after the commit.
  obtain ⟨view, viewed, sameNumber, _, _, sameLines, _⟩ := toEntryView_eq_ok entry
  simp only [JournalService.computing, viewed]
  have achieves : (Call.createJournalEntry input actor).Achieves steps (.journal view) _ :=
    .createJournalEntry drew (translating_eq_ok_iff.mp built) viewed
  rw [sameNumber, sameLines, List.length_map] at achieves
  exact commit_log_conforms trivial achieves

theorem postJournalEntry_settles (number : Int) (actor : String) :
    (Call.postJournalEntry number actor).program.Conforms
      ((Call.postJournalEntry number actor).ledgerOfDeeds steps)
      ((Call.postJournalEntry number actor).Settled steps) .none := by
  simp only [Call.program, PostingService.postJournalEntry, map_eq_pure_bind, bind_assoc,
    pure_bind]
  refine learns_bind (lift_learns _) fun _ _ => ?_
  refine learns_bind (JournalService.getJournalEntry_learns _) fun view read => ?_
  refine learns_bind (PostgresPostingRepo.getByJournalNumber_learns _) fun existing found => ?_
  refine learns_bind (lift_learns _) fun _ fresh => learns_bind (lift_learns _)
    fun postings derived => ?_
  have unposted : steps.FoundPostingsOf number [] existing.2 := by
    have none : existing.1 = [] := by simpa [refuseIf] using fresh
    rwa [none] at found
  exact commit_log_conforms trivial (.postJournalEntry read unposted derived)

theorem getTrialBalance_settles (asOfDate : Option Timestamp) :
    (Call.getTrialBalance asOfDate).program.Conforms
      ((Call.getTrialBalance asOfDate).ledgerOfDeeds steps)
      ((Call.getTrialBalance asOfDate).Settled steps) .none := by
  simp only [Call.program, TrialBalanceService.getTrialBalance, map_eq_pure_bind, bind_assoc,
    pure_bind]
  refine learns_bind (PostgresTrialBalanceRepo.getAccountBalances_learns _) fun entries read => ?_
  refine Program.conforms_ask ⟨rfl, fun writes => writes.elim⟩ fun _ => ?_
  have achieves : (Call.getTrialBalance asOfDate).Achieves steps
      (.trialBalance { entries, asOfDate }) _ := .getTrialBalance read
  exact Program.conforms_done achieves

/-- Every call settles as it should, if it is told what its steps are. -/
theorem call_settles (call : Call) (steps : OwnSteps) :
    call.program.Conforms (call.ledgerOfDeeds steps) (call.Settled steps) .none := by
  cases call with
  | createAccount dto actor => exact createAccount_settles dto actor
  | updateAccount dto actor => exact updateAccount_settles dto actor
  | deleteAccount code actor => exact deleteAccount_settles code actor
  | createJournalEntry input actor => exact createJournalEntry_settles input actor
  | postJournalEntry number actor => exact postJournalEntry_settles number actor
  | getTrialBalance asOfDate => exact getTrialBalance_settles asOfDate
  | getAccount code =>
    refine settles_of_learns (AccountService.getAccount_learns code) ?_
    rintro _ ⟨account, read, rfl⟩
    exact .getAccount read
  | getChart => exact settles_of_learns AccountService.getChart_learns fun _ => .getChart
  | resolveAccount reference =>
    refine settles_of_learns (AccountService.resolveAccount_learns reference) ?_
    rintro _ ⟨chart, account, read, found, rfl⟩
    exact .resolveAccount read found
  | listAccounts =>
    refine settles_of_learns AccountService.listAccounts_learns ?_
    rintro _ ⟨accounts, read, rfl⟩
    exact .listAccounts read
  | getJournalEntry number =>
    exact settles_of_learns (JournalService.getJournalEntry_learns number) fun _ =>
      .getJournalEntry
  | listJournalEntries =>
    refine settles_of_learns JournalService.listJournalEntries_learns ?_
    rintro views ⟨entries, read, viewed⟩
    exact .listJournalEntries read viewed
  | getPostingsByAccount account =>
    refine settles_of_learns (PostingService.getPostingsByAccount_learns account) ?_
    rintro _ ⟨postings, read, rfl⟩
    exact .getPostingsByAccount read
  | getPostingsByJournalNumber number =>
    refine settles_of_learns (PostingService.getPostingsByJournalNumber_learns number) ?_
    rintro _ ⟨postings, now, read, rfl⟩
    exact .getPostingsByJournalNumber read

end Calls

/-! ### Outcomes in a run -/

section Runs

variable {Thread : Type} [DecidableEq Thread] {calls : Thread → Call} {start : World}
  {permits : List (Move Thread Command Env World) →
    Pool Thread Command Reply Raised Response World → Move Thread Command Env World → Prop}
  {trace : List (Move Thread Command Env World)}
  {pool : Pool Thread Command Reply Raised Response World}

/-- Every thread of a run conforms from where its own deeds have led it. -/
theorem settles_of_walks
    (walks : Walks handle permits ⟨start, fun thread => (calls thread).program⟩ trace pool)
    (thread : Thread) :
    (pool.threads thread).Conforms ((calls thread).ledgerOfDeeds (stepsOf thread trace))
      ((calls thread).Settled (stepsOf thread trace)) (deedsOf thread trace) :=
  walks.conforms ((calls thread).ledgerOfDeeds (stepsOf thread trace)) _ .none thread
    (call_settles (calls thread) _) (told_stepsOf thread)

/-- A transaction leaves the log alone. -/
theorem apply_log {transaction : Transaction} {env : Env} {world after : World}
    (applied : transaction.apply env world = .ok after) : after.log = world.log := by
  cases transaction with
  | insertAccount code name nameKey category audit =>
    obtain ⟨_, _, rfl⟩ := insertAccount_ok applied
    rfl
  | updateAccount loaded name nameKey category audit =>
    rcases updateAccount_ok applied with ⟨_, rfl⟩ | ⟨_, _, rfl⟩ <;> rfl
  | deleteAccount loaded audit => rw [deleteAccount_ok applied]
  | insertJournal header lines =>
    obtain ⟨_, _, _, _, rfl⟩ := insertJournal_ok applied
    rfl
  | insertPostings postings =>
    obtain ⟨_, rfl⟩ := insertPostings_appends applied
    rfl

/-- The log grows by what is logged, and by nothing else. -/
theorem log_of_walks (walks : Walks handle permits ⟨start, fun thread => (calls thread).program⟩
    trace pool) :
    pool.state.log = start.log ++ trace.filterMap fun move => move.command.logs := by
  induction walks with
  | refl => exact (List.append_nil _).symm
  | @step trace pool mover command next before env asks permitted inductionHypothesis =>
    rw [Pool.step_of_ask asks, List.filterMap_append, ← List.append_assoc, ← inductionHypothesis]
    cases command with
    | query query =>
      rw [handle_query_state]
      exact (List.append_nil _).symm
    | emit record => rfl
    | nextval =>
      cases failed : env.fault <;> simp only [handle, failed] <;> exact (List.append_nil _).symm
    | transact transaction =>
      refine Eq.trans ?_ (List.append_nil _).symm
      rcases handle_transact_cases transaction env pool.state with still | ⟨after, applied, same⟩
      · rw [still]
      · rw [same]
        exact apply_log applied

/-- In every run of calls, with any order of their steps, any failures and any calls given up, what
a caller is told is what its call has done and found at its own steps, and the log has what the
calls have logged. -/
theorem outcomes_accounted
    (walks : Walks handle permits ⟨start, fun thread => (calls thread).program⟩ trace pool) :
    (∀ thread, (deedsOf thread trace).Orderly (calls thread)) ∧
      (∀ thread error, pool.threads thread = .done (.error error) →
        deedsOf thread trace = .none) ∧
      (∀ thread response, pool.threads thread = .done (.ok response) →
        (calls thread).Achieves (stepsOf thread trace) response (deedsOf thread trace)) ∧
      pool.state.log = start.log ++ trace.filterMap fun move => move.command.logs := by
  refine ⟨fun thread => ?_, fun thread error raised => ?_, fun thread response returned => ?_,
    log_of_walks walks⟩
  · have fresh : Deeds.none.Orderly (calls thread) :=
      ⟨Nat.zero_le _, Nat.zero_le _, fun _ => le_refl _, fun _ => rfl⟩
    exact Walks.observes (fun _ deeds => deeds.Orderly (calls thread)) fresh
      (fun _ _ _ _ orderly => orderly)
      (fun _ _ move _ orderly allowed => orderly.after allowed (move.reply handle))
      (call_settles (calls thread) _) walks (told_stepsOf thread)
  · have settled := settles_of_walks walks thread
    rw [raised] at settled
    exact settled.promised
  · have settled := settles_of_walks walks thread
    rw [returned] at settled
    exact settled.promised

end Runs

/-- Two creations under one code. Both find it free, and the store refuses the second. -/
def sameCode : Nat → Call
  | 0 => .createAccount ((CreateAccountInput.accept "1000" "Cash" .asset).get (.refl true)) "alice"
  | 1 => .createAccount ((CreateAccountInput.accept "1000" "Bank" .asset).get (.refl true)) "bob"
  | _ => .getChart

def sameCodeSchedule : List (Nat × Env) :=
  ([0, 1, 0, 1, 0, 1, 0] : List Nat).map fun thread => (thread, Env.calm 1700000000000000)

def sameCodePool : Pool Nat Command Reply Raised Response World :=
  Pool.execute handle sameCodeSchedule ⟨World.empty, fun thread => (sameCode thread).program⟩

theorem outcomes_accounted_of_sameCode :
    ∃ trace : List (Move Nat Command Env World),
      (∃ response, sameCodePool.threads 0 = .done (.ok response) ∧
        (sameCode 0).Achieves (stepsOf 0 trace) response (deedsOf 0 trace)) ∧
      (∃ error, sameCodePool.threads 1 = .done (.error error) ∧ deedsOf 1 trace = .none) ∧
      sameCodePool.state.log =
        World.empty.log ++ trace.filterMap fun move => move.command.logs := by
  have walks : Walks handle (fun _ _ _ => True)
      ⟨World.empty, fun thread => (sameCode thread).program⟩ _ sameCodePool :=
    Walks.refl.execute sameCodeSchedule (by decide +kernel)
  obtain ⟨_, raises, returns, logged⟩ := outcomes_accounted walks
  obtain ⟨response, returned⟩ := Program.succeeded_iff.mp
    (by decide +kernel : (sameCodePool.threads 0).succeeded = true)
  have refused : ∃ error, sameCodePool.threads 1 = .done (.error error) := by
    obtain ⟨error | response, ended⟩ := Program.ended_iff.mp
      (by decide +kernel : (sameCodePool.threads 1).ended = true)
    · exact ⟨error, ended⟩
    · have failed : (sameCodePool.threads 1).succeeded = false := by decide +kernel
      rw [ended] at failed
      cases failed
  obtain ⟨error, raised⟩ := refused
  exact ⟨_, ⟨response, returned, returns 0 response returned⟩,
    ⟨error, raised, raises 1 error raised⟩, logged⟩

end Trutina
