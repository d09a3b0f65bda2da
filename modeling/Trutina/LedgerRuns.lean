/-
This file proves that every call keeps the ledger sound, and what a posting call
does on the way. Of all commands only the insertion of postings can break the
ledger, and posting sends it for an entry it has read back from the store; the
lines it read are the lines that are stored when the batch arrives.
-/

import Trutina.Ledger

namespace Trutina

open Interaction

/-! ### Calls that do not post -/

/-- What all calls rely on: the ledger is sound, and what is stored in it stays. -/
def ledgerRegime : Regime World where
  invariant := World.Sound
  evolves := World.KeepsLedger
  refl := World.KeepsLedger.refl
  trans := World.KeepsLedger.trans

/-- The commands of all calls but posting. A stored entry comes with the lines of an accepted
one. -/
def Command.Ordinary : Command → Prop
  | .transact (.insertJournal header lines) =>
    ∃ accepted, lines = PostgresJournalRepo.lineRows header.journalNumber accepted
  | .transact (.insertPostings _) => False
  | _ => True

theorem ordinary_keepsLedger {command : Command} {env : Env} {world : World}
    (ordinary : command.Ordinary) (sound : world.Sound) :
    (handle command env world).2.Sound ∧ world.KeepsLedger (handle command env world).2 := by
  have still : world.Sound ∧ world.KeepsLedger world := ⟨sound, .refl world⟩
  have same : ∀ after : World, after.journalEntries = world.journalEntries →
      after.journalLines = world.journalLines → after.postings = world.postings →
      after.Sound ∧ world.KeepsLedger after := fun after entries lines postings =>
    ⟨sound.congr entries lines postings, .of_eq entries lines postings⟩
  cases command with
  | query query =>
    rw [handle_query_state]
    exact still
  | nextval =>
    cases failed : env.fault with
    | some fault =>
      simp only [handle, failed]
      exact still
    | none =>
      simp only [handle, failed]
      exact same _ rfl rfl rfl
  | emit record => exact same _ rfl rfl rfl
  | transact transaction =>
    rcases handle_transact_cases transaction env world with unchanged | ⟨after, applied, moved⟩
    · rw [unchanged]
      exact still
    rw [moved]
    cases transaction with
    | insertAccount =>
      obtain ⟨_, _, rfl⟩ := insertAccount_ok applied
      exact same _ rfl rfl rfl
    | updateAccount =>
      rcases updateAccount_ok applied with ⟨_, rfl⟩ | ⟨_, _, rfl⟩
      · exact same _ rfl rfl rfl
      · exact same _ rfl rfl rfl
    | deleteAccount =>
      rw [deleteAccount_ok applied]
      exact same _ rfl rfl rfl
    | insertJournal header lines =>
      obtain ⟨accepted, rfl⟩ := ordinary
      obtain ⟨sound, kept, _⟩ := insertJournal_sound sound applied
      exact ⟨sound, kept⟩
    | insertPostings => exact ordinary.elim

/-- A call that posts an entry. -/
def Call.Posts (number : Int) : Call → Prop
  | .postJournalEntry other _ => other = number
  | _ => False

theorem logInfo_issues {commands : Command → Prop} (logs : ∀ record, commands (.emit record))
    (event : String) (context : List (String × LogValue)) :
    (logInfo event context).Issues commands :=
  Program.issues_ask (logs _) fun _ => Program.issues_done _

theorem issues_map {Result Other : Type} {commands : Command → Prop} {program : Action Result}
    (issues : program.Issues commands) (function : Result → Other) :
    (function <$> program).Issues commands := by
  rw [map_eq_pure_bind]
  exact issues.bind fun _ => Program.issues_done _

/-- The commands each call may issue. -/
inductive Call.Issuable : Call → Command → Prop where
  | query {call : Call} {query : Query} : Issuable call (.query query)
  | emit {call : Call} {record : LogRecord} : Issuable call (.emit record)
  | insertAccount {dto : CreateAccountInput} {actor : String} {audit : AuditEventModel}
      (account : Account) :
      Issuable (.createAccount dto actor)
        (.transact (.insertAccount account.code account.name (accountLookupKey account.name)
          account.category audit))
  | updateAccount {dto : UpdateAccountInput} {actor : String} {loaded : AccountModel}
      {audit : AuditEventModel} (account : Account) :
      Issuable (.updateAccount dto actor)
        (.transact (.updateAccount loaded account.name (accountLookupKey account.name)
          account.category audit))
  | deleteAccount {code actor : String} {loaded : AccountModel} {audit : AuditEventModel} :
      Issuable (.deleteAccount code actor) (.transact (.deleteAccount loaded audit))
  | nextval {input : CreateJournalInput} {actor : String} :
      Issuable (.createJournalEntry input actor) .nextval
  | insertJournal {input : CreateJournalInput} {actor : String} (entry : JournalEntry) :
      Issuable (.createJournalEntry input actor)
        (.transact (.insertJournal (headerOf entry actor)
          (PostgresJournalRepo.lineRows entry.journalNumber entry.lines)))
  | insertPostings {number : Int} {actor : String} (postings : List LedgerPosting) :
      Issuable (.postJournalEntry number actor)
        (.transact (.insertPostings (PostgresPostingRepo.postingRows postings actor)))

theorem createAccount_issues (dto : CreateAccountInput) (actor : String) :
    (AccountService.createAccount dto actor).Issues (Call.createAccount dto actor).Issuable :=
  (lift_issues _).bind fun _ =>
    (PostgresAccountRepo.existsByCode_issues (fun _ => .query) _).bind fun _ =>
    (lift_issues _).bind fun _ =>
    (PostgresAccountRepo.existsByName_issues (fun _ => .query) _).bind fun _ =>
    (lift_issues _).bind fun _ => (lift_issues _).bind fun account =>
    (commitOr_issues (.insertAccount account) _).bind fun _ =>
    (logInfo_issues (fun _ => .emit) _ _).bind fun _ => Program.issues_done _

theorem updateAccount_issues (dto : UpdateAccountInput) (actor : String) :
    (AccountService.updateAccount dto actor).Issues (Call.updateAccount dto actor).Issuable := by
  refine (lift_issues _).bind fun _ =>
    (PostgresAccountRepo.getByCode_issues (fun _ => .query) _).bind fun _ =>
    (lift_issues _).bind fun _ =>
    (AccountService.nameTakenOnChange_issues (fun _ => .query) _ _).bind fun _ =>
    (lift_issues _).bind fun _ => (lift_issues _).bind fun _ => Program.Issues.bind ?_ fun _ =>
    (logInfo_issues (fun _ => .emit) _ _).bind fun _ => Program.issues_done _
  refine (PostgresAccountRepo.load_issues (fun _ => .query) _).bind fun found => ?_
  cases found with
  | none => exact Program.issues_done _
  | some loaded => exact commitOr_issues (.updateAccount _) _

theorem deleteAccount_issues (code actor : String) :
    (AccountService.deleteAccount code actor).Issues (Call.deleteAccount code actor).Issuable := by
  refine (lift_issues _).bind fun _ =>
    (PostgresAccountRepo.getByCode_issues (fun _ => .query) _).bind fun _ =>
    (lift_issues _).bind fun _ =>
    (AccountService.hasPostings_issues (fun _ => .query) _).bind fun _ =>
    (lift_issues _).bind fun _ =>
    Program.Issues.bind ?_ fun _ => logInfo_issues (fun _ => .emit) _ _
  refine (PostgresAccountRepo.load_issues (fun _ => .query) _).bind fun found => ?_
  cases found with
  | none => exact Program.issues_done _
  | some loaded => exact commitOr_issues .deleteAccount _

theorem createJournalEntry_issues (input : CreateJournalInput) (actor : String) :
    (JournalService.createJournalEntry input actor).Issues
      (Call.createJournalEntry input actor).Issuable := by
  refine (lift_issues _).bind fun _ =>
    (JournalService.validateAccounts_issues (fun _ => .query) _).bind fun _ => ?_
  refine Program.Issues.bind (Program.issues_ask .nextval fun _ => Program.issues_done _ :
    PostgresJournalRepo.nextJournalNumber.Issues
      (Call.createJournalEntry input actor).Issuable) fun reply => ?_
  exact (lift_issues _).bind fun entry => (commitOr_issues (.insertJournal entry) _).bind fun _ =>
    (logInfo_issues (fun _ => .emit) _ _).bind fun _ => lift_issues _

section Reads

variable {commands : Command → Prop} (reads : ∀ query, commands (.query query))

include reads

theorem getPostingsByAccount_issues (account : String) :
    (PostingService.getPostingsByAccount account).Issues commands :=
  (PostgresPostingRepo.getByAccount_issues reads account).bind fun _ => Program.issues_done _

theorem getPostingsByJournalNumber_issues (number : Int) :
    (PostingService.getPostingsByJournalNumber number).Issues commands :=
  (PostgresPostingRepo.getByJournalNumber_issues reads number).bind fun _ => Program.issues_done _

theorem getTrialBalance_issues (logs : ∀ record, commands (.emit record))
    (asOfDate : Option Timestamp) :
    (TrialBalanceService.getTrialBalance asOfDate).Issues commands :=
  ((execute_issues reads _).bind fun _ => lift_issues _).bind fun _ =>
    (logInfo_issues logs _ _).bind fun _ => Program.issues_done _

end Reads

theorem postJournalEntry_issues (number : Int) (actor : String) :
    (PostingService.postJournalEntry number actor).Issues
      (Call.postJournalEntry number actor).Issuable :=
  (lift_issues _).bind fun _ =>
    (JournalService.getJournalEntry_issues (fun _ => .query) _).bind fun _ =>
    (PostgresPostingRepo.getByJournalNumber_issues (fun _ => .query) _).bind fun _ =>
    (lift_issues _).bind fun _ => (lift_issues _).bind fun postings =>
    (commitOr_issues (.insertPostings postings) _).bind fun _ =>
    (logInfo_issues (fun _ => .emit) _ _).bind fun _ => Program.issues_done _

/-- Every call issues only its own commands. -/
theorem call_issuable (call : Call) : call.program.Issues call.Issuable := by
  have reads : ∀ query, call.Issuable (.query query) := fun _ => .query
  cases call with
  | createAccount dto actor => exact issues_map (createAccount_issues dto actor) _
  | updateAccount dto actor => exact issues_map (updateAccount_issues dto actor) _
  | getAccount code => exact issues_map (AccountService.getAccount_issues reads code) _
  | getChart => exact issues_map (AccountService.getChart_issues reads) _
  | resolveAccount reference =>
    exact issues_map (AccountService.resolveAccount_issues reads reference) _
  | listAccounts => exact issues_map (AccountService.listAccounts_issues reads) _
  | deleteAccount code actor => exact issues_map (deleteAccount_issues code actor) _
  | createJournalEntry input actor => exact issues_map (createJournalEntry_issues input actor) _
  | getJournalEntry number =>
    exact issues_map (JournalService.getJournalEntry_issues reads number) _
  | listJournalEntries => exact issues_map (JournalService.listJournalEntries_issues reads) _
  | postJournalEntry number actor => exact issues_map (postJournalEntry_issues number actor) _
  | getPostingsByAccount account =>
    exact issues_map (getPostingsByAccount_issues reads account) _
  | getPostingsByJournalNumber number =>
    exact issues_map (getPostingsByJournalNumber_issues reads number) _
  | getTrialBalance asOfDate =>
    exact issues_map (getTrialBalance_issues reads (fun _ => .emit) asOfDate) _

/-- Every call but posting only issues ordinary commands. -/
theorem call_issues {call : Call} (other : ∀ number, ¬call.Posts number) :
    call.program.Issues Command.Ordinary := by
  refine (call_issuable call).mono fun command issuable => ?_
  cases issuable with
  | insertJournal entry => exact ⟨entry.lines, rfl⟩
  | insertPostings postings => exact absurd rfl (other _)
  | _ => trivial

/-! ### Reading an entry back -/

/-- The view of a stored line. -/
def storedView (line : JournalLineModel Money) : JournalLineViewModel where
  account := line.account
  debitAmount := line.debitAmount.toDecimal
  creditAmount := line.creditAmount.toDecimal

/-- An entry is rebuilt from its lines, at a time not before its date. -/
theorem toDomain_eq_ok_iff {now : Timestamp} {header : JournalEntryModel}
    {lines : List (JournalLineModel Money)} {entry : JournalEntry} :
    PostgresJournalRepo.toDomain now header lines = .ok entry ↔
      fromRows PostgresJournalRepo.lineToDomain lines = .ok entry.lines ∧
        entry.journalNumber = header.journalNumber ∧ entry.postingDate = header.postingDate ∧
        header.postingDate ≤ now ∧ entry.description = header.description := by
  unfold PostgresJournalRepo.toDomain
  cases rebuilt : fromRows PostgresJournalRepo.lineToDomain lines with
  | error error => simp [bind, Except.bind]
  | ok values =>
    simp only [bind, Except.bind, JournalEntry.validate_eq_ok_iff, DateTime.mk.injEq, and_true,
      Except.ok.injEq]
    constructor
    · rintro ⟨number, ⟨date, past⟩, same, description⟩
      exact ⟨same.symm, number, date.symm, date ▸ past, description⟩
    · rintro ⟨same, number, date, past, description⟩
      exact ⟨number, ⟨date.symm, date ▸ past⟩, same.symm, description⟩

/-- Stored lines with clean accounts are rebuilt with their own values. -/
theorem rebuiltLines_views {stored : List (JournalLineModel Money)} {lines : List JournalLine}
    (clean : ∀ line ∈ stored, cleanAccountName line.account = some line.account)
    (rebuilt : fromRows PostgresJournalRepo.lineToDomain stored = .ok lines) :
    lines.map toLineView = stored.map storedView := by
  refine (fromRows_eq_ok_iff.mp rebuilt).map_eq fun line member value converted => ?_
  obtain ⟨⟨account, _⟩, debit, credit⟩ := JournalLine.validate_eq_ok_iff.mp converted
  rw [clean line member, Option.some.injEq] at account
  rw [toLineView, storedView, ← account, debit, credit]

/-- The view of an entry that was read back. -/
theorem view_of_toDomain {now : Timestamp} {header : JournalEntryModel}
    {stored : List (JournalLineModel Money)} {entry : JournalEntry}
    (clean : ∀ line ∈ stored, cleanAccountName line.account = some line.account)
    (rebuilt : PostgresJournalRepo.toDomain now header stored = .ok entry) :
    ∃ view, toEntryView entry = .ok view ∧ view.journalNumber = header.journalNumber ∧
      view.postingDate = header.postingDate ∧ view.lines = stored.map storedView := by
  obtain ⟨lines, number, date, _, _⟩ := toDomain_eq_ok_iff.mp rebuilt
  obtain ⟨view, built, sameNumber, sameDate, _, sameLines, _⟩ := toEntryView_eq_ok entry
  exact ⟨view, built, sameNumber.trans number, sameDate.trans date,
    sameLines.trans (rebuiltLines_views clean lines)⟩

/-- An entry that was read back has lines. -/
theorem lines_ne_nil {now : Timestamp} {header : JournalEntryModel}
    {stored : List (JournalLineModel Money)} {entry : JournalEntry}
    (rebuilt : PostgresJournalRepo.toDomain now header stored = .ok entry) : stored ≠ [] := by
  rintro rfl
  have none : entry.lines = [] := by
    obtain ⟨lines, _⟩ := toDomain_eq_ok_iff.mp rebuilt
    exact (Except.ok.inj lines).symm
  have two := entry.two_lines
  rw [none] at two
  exact absurd two (by decide)

/-! ### The batch of an entry -/

/-- The rows that posting sends are the postings of the lines it read. -/
theorem postingRows_eq {stored : List (JournalLineModel Money)} {header : JournalEntryModel}
    {now : Timestamp} {view : JournalViewModel} {postings : List LedgerPosting} {actor : String}
    (clean : ∀ line ∈ stored, cleanAccountName line.account = some line.account)
    (own : ∀ line ∈ stored, line.journalNumber = header.journalNumber)
    (indexes : stored.map JournalLineModel.lineIndex = List.range stored.length)
    (number : view.journalNumber = header.journalNumber)
    (date : view.postingDate = header.postingDate) (lines : view.lines = stored.map storedView)
    (derived : PostingService.derivePostings now view = .ok postings) :
    PostgresPostingRepo.postingRows postings actor =
      (stored.map (postingOf header (some actor))).map PostingModel.sent := by
  rw [PostingService.derivePostings, lines] at derived
  have pairs := fromRows_eq_ok_iff.mp derived
  rw [List.forall₂_map_left_iff] at pairs
  obtain ⟨length, pointwise⟩ := List.forall₂_iff_get.mp pairs
  refine List.ext_getElem (by simp [PostgresPostingRepo.postingRows, length])
    fun index left right => ?_
  have inStored : index < stored.length := by simpa using right
  have inPostings : index < postings.length := length ▸ inStored
  have member := List.getElem_mem inStored
  have position : stored[index].lineIndex = index := by
    have same := congrArg (·[index]?) indexes
    simpa [inStored] using same
  obtain ⟨⟨account, _⟩, debit, credit, sameNumber, sameDate, _⟩ :=
    LedgerPosting.validate_eq_ok_iff.mp (pointwise index inStored inPostings)
  simp only [storedView, List.get_eq_getElem, DateTime.mk.injEq, and_true]
    at account debit credit sameNumber sameDate
  rw [clean _ member, Option.some.injEq] at account
  simp only [PostgresPostingRepo.postingRows, List.getElem_mapIdx, List.getElem_map,
    PostingModel.sent, postingOf, position, own _ member, account, debit, credit, sameNumber,
    number, ← sameDate, date]

/-- A line that passes its checks makes a posting of its entry that passes them too. -/
theorem LedgerPosting.of_line {account : String} {debit credit : Decimal} {line : JournalLine}
    (converted : JournalLine.validate account debit credit = .ok line) (entry : JournalEntry)
    {now : Timestamp} (past : entry.postingDate ≤ now) :
    ∃ posting, LedgerPosting.validate now account debit credit entry.journalNumber
      ⟨entry.postingDate, none⟩ = .ok posting := by
  obtain ⟨clean, sameDebit, sameCredit⟩ := JournalLine.validate_eq_ok_iff.mp converted
  exact ⟨⟨line.account, line.debitAmount, line.creditAmount, entry.journalNumber,
    entry.postingDate, line.account_clean, line.account_length, line.debit_nonneg,
    line.credit_nonneg, entry.number_pos, entry.date_after, line.one_side⟩,
    LedgerPosting.validate_eq_ok_iff.mpr ⟨clean, sameDebit, sameCredit, rfl, rfl, past⟩⟩

/-- The postings of a posted entry are read back, at a time not before its date. -/
theorem posted_rebuilds {world : World} {header : JournalEntryModel} {now : Timestamp}
    (posted : world.Posted header) (dated : header.postingDate ≤ now)
    {posting : PostingModel Money} (member : posting ∈ world.postingsOf header.journalNumber) :
    ∃ value, PostgresPostingRepo.toDomain now posting = .ok value := by
  obtain ⟨createdBy, batch⟩ := posted.batch
  obtain ⟨time, entry, rebuilt⟩ := posted.readable
  rw [batch] at member
  obtain ⟨stored, listed, rfl⟩ := List.mem_map.mp member
  obtain ⟨lines, number, date, _⟩ := toDomain_eq_ok_iff.mp rebuilt
  obtain ⟨line, _, converted⟩ := mem_of_fromRows lines listed
  have own : stored.journalNumber = entry.journalNumber :=
    (mem_linesOf.mp listed).2.trans number.symm
  obtain ⟨value, validated⟩ :=
    LedgerPosting.of_line converted entry ((le_of_eq date).trans dated)
  refine ⟨value, ?_⟩
  rw [← own, date] at validated
  exact validated

section Stored

variable {world : World} {header : JournalEntryModel}

/-- Every stored posting is one of a posted entry. -/
theorem World.Sound.posted_of_mem (sound : world.Sound) {posting : PostingModel Money}
    (member : posting ∈ world.postings) :
    ∃ header, header.journalNumber = posting.journalNumber ∧ world.Posted header := by
  refine (sound.whole posting.journalNumber).resolve_left fun none => ?_
  have listed : posting ∈ world.postingsOf posting.journalNumber :=
    mem_postingsOf.mpr ⟨member, rfl⟩
  rw [none] at listed
  cases listed

/-- It stands among the postings of its entry. -/
theorem World.Sound.posted_listing (sound : world.Sound) {posting : PostingModel Money}
    (member : posting ∈ world.postings) :
    ∃ header, world.Posted header ∧ posting ∈ world.postingsOf header.journalNumber := by
  obtain ⟨header, own, posted⟩ := sound.posted_of_mem member
  exact ⟨header, posted, mem_postingsOf.mpr ⟨member, own.symm⟩⟩

/-- A stored posting has the date of its entry, one side, and an account a report accepts. -/
theorem World.Posted.posting (sound : world.Sound) (posted : world.Posted header)
    {posting : PostingModel Money} (member : posting ∈ world.postingsOf header.journalNumber) :
    posting.postingDate = header.postingDate ∧
      exactlyOneSide posting.debitAmount posting.creditAmount = true ∧
      cleanAccountName posting.account = some posting.account ∧
      2 ≤ posting.account.length ∧ posting.account.length ≤ 100 := by
  obtain ⟨createdBy, batch⟩ := posted.batch
  obtain ⟨now, entry, rebuilt⟩ := posted.readable
  rw [batch] at member
  obtain ⟨line, listed, rfl⟩ := List.mem_map.mp member
  obtain ⟨present, _⟩ := mem_linesOf.mp listed
  obtain ⟨value, _, converted⟩ := mem_of_fromRows (toDomain_eq_ok_iff.mp rebuilt).1 listed
  obtain ⟨⟨_, bounds⟩, _⟩ := JournalLine.validate_eq_ok_iff.mp converted
  exact ⟨rfl, sound.sides line present, sound.clean line present, bounds⟩

/-- A stored posting is keyed by its account, which is clean. -/
theorem World.Sound.posting_keyed (sound : world.Sound) {posting : PostingModel Money}
    (member : posting ∈ world.postings) :
    posting.accountKey = accountLookupKey posting.account ∧
      cleanAccountName posting.account = some posting.account := by
  obtain ⟨header, posted, listed⟩ := sound.posted_listing member
  refine ⟨?_, (posted.posting sound listed).2.2.1⟩
  obtain ⟨createdBy, batch⟩ := posted.batch
  rw [batch] at listed
  obtain ⟨line, _, rfl⟩ := List.mem_map.mp listed
  rfl

end Stored

/-! ### What validators raise -/

/-- The errors of validators, none of which belongs to the contract yet. -/
def Raised.Unmapped : Raised → Prop
  | .validationError _ => True
  | .typeError => True
  | .overflow => True
  | _ => False

theorem checkPostingDate_unmapped {now : Timestamp} {date : DateTime} {error : Raised}
    (raised : checkPostingDate now date = .error error) : error.Unmapped := by
  unfold checkPostingDate at raised
  split at raised
  · split at raised
    · cases raised
      trivial
    · split at raised <;> cases raised
  · cases raised

theorem JournalLine.validate_error {account : String} {debit credit : Decimal} {error : Raised}
    (raised : JournalLine.validate account debit credit = .error error) :
    ∃ details, error = .validationError details := by
  unfold JournalLine.validate at raised
  split at raised
  · exact ⟨_, (Except.error.inj raised).symm⟩
  · split at raised
    · cases raised
    · exact ⟨_, (Except.error.inj raised).symm⟩

theorem JournalLine.validate_unmapped {account : String} {debit credit : Decimal} {error : Raised}
    (raised : JournalLine.validate account debit credit = .error error) : error.Unmapped := by
  obtain ⟨details, rfl⟩ := JournalLine.validate_error raised
  trivial

theorem JournalEntry.validate_unmapped {now : Timestamp} {number : Int} {date : DateTime}
    {lines : List JournalLine} {description : Option String} {error : Raised}
    (raised : JournalEntry.validate now number date lines description = .error error) :
    error.Unmapped := by
  unfold JournalEntry.validate at raised
  split at raised
  · rename_i dated
    cases raised
    exact checkPostingDate_unmapped dated
  · split at raised
    · cases raised
      trivial
    · split at raised
      · cases raised
        trivial
      · cases raised
        trivial
      · cases raised

theorem LedgerPosting.validate_unmapped {now : Timestamp} {account : String}
    {debit credit : Decimal} {number : Int} {date : DateTime} {error : Raised}
    (raised : LedgerPosting.validate now account debit credit number date = .error error) :
    error.Unmapped := by
  unfold LedgerPosting.validate at raised
  split at raised
  · rename_i dated
    cases raised
    exact checkPostingDate_unmapped dated
  · split at raised
    · cases raised
      trivial
    · split at raised
      · cases raised
      · cases raised
        trivial

theorem toDomain_unmapped {now : Timestamp} {header : JournalEntryModel}
    {lines : List (JournalLineModel Money)} {error : Raised}
    (raised : PostgresJournalRepo.toDomain now header lines = .error error) : error.Unmapped := by
  unfold PostgresJournalRepo.toDomain at raised
  cases rebuilt : fromRows PostgresJournalRepo.lineToDomain lines with
  | error other =>
    rw [rebuilt] at raised
    cases raised
    exact fromRows_error (fun _ _ => JournalLine.validate_unmapped) rebuilt
  | ok values =>
    rw [rebuilt] at raised
    exact JournalEntry.validate_unmapped raised

/-! ### A posting call -/

/-- After its batch a posting call has only its log record and its result left. -/
def Program.pastBatch : Action Response → Bool
  | .done (.ok _) => true
  | .ask (.emit _) _ => true
  | _ => false

/-- What a step of a posting call shows. At its check and at its batch it reports an entry with
postings as posted already; it reports that only of an entry with postings, unless the database
is behind the dates of the stored entries; and its batch is the first of its entry. -/
structure PostShows (number : Int) (world : World) (command : Command) (env : Env)
    (next : Action Response) : Prop where
  reports : env.fault = none → world.postingsOf number ≠ [] →
    (command = .query (.postingsByNumber number) ∧ ∀ header ∈ world.journalEntries,
        header.journalNumber = number → header.postingDate ≤ env.now) ∨
      (∃ transaction, command = .transact transaction) →
    next = .done (.error (PostingService.alreadyPosted number))
  honest : ∀ context, next = .done (.error (.appError .journalAlreadyPosted context)) →
    (∀ header ∈ world.journalEntries, header.postingDate ≤ env.dbNow) →
    world.postingsOf number ≠ []
  first : Program.pastBatch next = true → (∀ record, command ≠ .emit record) →
    world.postingsOf number = [] ∧ (handle command env world).2.postingsOf number ≠ []

def postTask (number : Int) : Task Command Reply Raised Response Env World where
  permits _ _ _ := True
  shows := PostShows number
  ensures _ _ := True

section Post

variable {number : Int} {world : World} {command : Command} {env : Env}

/-- An error other than the conflict is fine at any step but the check and the batch. -/
theorem post_harmless {error : Raised}
    (other : ∀ context, error ≠ .appError .journalAlreadyPosted context)
    (check : command ≠ .query (.postingsByNumber number))
    (batch : ∀ transaction, command ≠ .transact transaction) :
    Harmless (postTask number) command error where
  shows world env _ :=
    { reports := fun _ _ reached => by
        rcases reached with ⟨same, _⟩ | ⟨transaction, same⟩
        · exact absurd same check
        · exact absurd same (batch transaction)
      honest := fun context same => absurd (by cases same; rfl) (other context)
      first := fun past => absurd past Bool.false_ne_true }
  ensures _ := trivial

theorem Raised.Unmapped.other {error : Raised} (unmapped : error.Unmapped)
    (context : List (String × String)) : error ≠ .appError .journalAlreadyPosted context := by
  rintro rfl
  exact unmapped

theorem fault_other (fault : Fault) (context : List (String × String)) :
    translatePostgresErrors (.failed fault) ≠ .appError .journalAlreadyPosted context := by
  cases fault <;> rintro ⟨⟩

/-- Every violated constraint of the batch is reported as the conflict of its entry. -/
theorem onDuplicate_eq {now : Timestamp} {view : JournalViewModel} {postings : List LedgerPosting}
    (derived : PostingService.derivePostings now view = .ok postings) (some' : view.lines ≠ [])
    (constraint : Option String) : PostgresPostingRepo.onDuplicate postings constraint =
      PostingService.alreadyPosted view.journalNumber := by
  have pairs := fromRows_eq_ok_iff.mp derived
  generalize view.lines = lines at pairs some'
  cases pairs with
  | nil => exact absurd rfl some'
  | cons head _ =>
    rw [PostgresPostingRepo.onDuplicate, PostingService.alreadyPosted,
      (LedgerPosting.validate_eq_ok_iff.mp head).2.2.2.1]

/-- What posting has read of its entry: the stored header, and the view of its stored lines. -/
structure ReadEntry (number : Int) (world : World) (header : JournalEntryModel)
    (view : JournalViewModel) : Prop where
  stored : header ∈ world.journalEntries
  own : header.journalNumber = number
  readable : ∃ now entry, PostgresJournalRepo.toDomain now header
    (world.linesOf header.journalNumber) = .ok entry
  number : view.journalNumber = header.journalNumber
  date : view.postingDate = header.postingDate
  lines : view.lines = (world.linesOf header.journalNumber).map storedView

/-- What was read is still stored. -/
theorem ReadEntry.later {header : JournalEntryModel} {view : JournalViewModel} {after : World}
    (read : ReadEntry number world header view) (kept : world.KeepsLedger after) :
    ReadEntry number after header view := by
  have lines := kept.lines header read.stored
  exact ⟨kept.entries header read.stored, read.own, lines.symm ▸ read.readable, read.number,
    read.date, lines.symm ▸ read.lines⟩

theorem ReadEntry.rows_eq {header : JournalEntryModel} {view : JournalViewModel}
    (read : ReadEntry number world header view) (sound : world.Sound) {now : Timestamp}
    {postings : List LedgerPosting}
    (derived : PostingService.derivePostings now view = .ok postings)
    (actor : String) : PostgresPostingRepo.postingRows postings actor =
      ((world.linesOf header.journalNumber).map (postingOf header (some actor))).map
        PostingModel.sent :=
  postingRows_eq (fun line member => sound.clean line (mem_linesOf.mp member).1)
    (fun _ member => (mem_linesOf.mp member).2) (sound.indexes _) read.number read.date read.lines
    derived

/-- The batch and what follows it. -/
theorem saveMany_valid {header : JournalEntryModel} {view : JournalViewModel}
    (read : ReadEntry number world header view) (sound : world.Sound) {now : Timestamp}
    {postings : List LedgerPosting}
    (derived : PostingService.derivePostings now view = .ok postings)
    (actor event : String) (context : List (String × LogValue)) (response : Response) :
    (PostgresPostingRepo.saveMany postings actor >>= fun _ => logInfo event context >>= fun _ =>
      (.done (.ok response) : Action Response)).Valid handle ledgerRegime (postTask number)
        world := by
  obtain ⟨time, entry, rebuilt⟩ := read.readable
  have nonempty : world.linesOf header.journalNumber ≠ [] := lines_ne_nil rebuilt
  have conflict : ∀ constraint, PostgresPostingRepo.onDuplicate postings constraint =
      PostingService.alreadyPosted number := fun constraint => by
    rw [onDuplicate_eq derived (by rw [read.lines]; simpa using nonempty), read.number, read.own]
  rw [PostgresPostingRepo.saveMany, read.rows_eq sound derived, commitOr_eq]
  refine Program.valid_ask fun later kept soundLater env _ => ?_
  have readLater := read.later kept
  rw [← kept.lines header read.stored] at nonempty ⊢
  cases failed : env.fault with
  | some fault =>
    simp only [handle, failed]
    refine ⟨soundLater, .refl later, ⟨fun calm => ?_, fun context same => ?_,
      fun past => absurd past Bool.false_ne_true⟩,
      Program.valid_done fun _ _ _ => trivial⟩
    · rw [failed] at calm
      cases calm
    · exact absurd (Except.error.inj (Program.done.inj same)) (fault_other fault context)
  | none =>
    cases applied : (Transaction.insertPostings (((later.linesOf header.journalNumber).map
        (postingOf header (some actor))).map PostingModel.sent)).apply env later with
    | ok after =>
      obtain ⟨soundAfter, keptAfter, unposted, batch⟩ :=
        insertPostings_sound soundLater readLater.stored readLater.readable applied
      rw [read.own] at unposted
      simp only [handle, failed, applied]
      refine ⟨soundAfter, keptAfter, ⟨fun _ posted => absurd unposted posted,
        fun _ same => (by cases same), fun _ _ => ?_⟩,
        ?_⟩
      · refine ⟨unposted, ?_⟩
        simp only [handle, failed, applied]
        rw [← read.own, batch]
        simpa using nonempty
      · refine Program.valid_ask fun last _ soundLast env _ => ?_
        refine ⟨soundLast.congr rfl rfl rfl, .of_eq rfl rfl rfl,
          ⟨fun _ _ reached => ?_, fun _ same => (by cases same),
            fun _ other => absurd rfl (other _)⟩, Program.valid_done fun _ _ _ => trivial⟩
        rcases reached with ⟨same, _⟩ | ⟨_, same⟩ <;> cases same
    | error error =>
      simp only [handle, failed, applied]
      cases error with
      | integrity constraint =>
        simp only [conflict]
        refine ⟨soundLater, .refl later,
          ⟨fun _ _ _ => rfl, fun _ _ dated posted => ?_,
            fun past => absurd past Bool.false_ne_true⟩,
          Program.valid_done fun _ _ _ => trivial⟩
        obtain ⟨after, inserted⟩ := insertPostings_unposted soundLater readLater.stored
          (some actor) (read.own ▸ posted) (dated header readLater.stored)
        rw [inserted] at applied
        cases applied
      | failed fault =>
        refine ⟨soundLater, .refl later,
          ⟨fun _ posted _ => ?_, fun context same => ?_,
            fun past => absurd past Bool.false_ne_true⟩,
          Program.valid_done fun _ _ _ => trivial⟩
        · obtain ⟨constraint, refused⟩ := insertPostings_posted env soundLater (some actor)
            (read.own ▸ posted : later.postingsOf header.journalNumber ≠ [])
          rw [refused] at applied
          cases applied
        · exact absurd (Except.error.inj (Program.done.inj same)) (fault_other fault context)

/-- The postings of an entry as its check reads them. -/
theorem postingsByNumber_rows (sound : world.Sound) (env : Env) (number : Int) :
    Query.rows env world (.postingsByNumber number) = world.postingsOf number := by
  refine List.Pairwise.insertionSort_eq ?_
  rcases sound.whole number with none | ⟨header, rfl, posted⟩
  · rw [none]
    exact List.Pairwise.nil
  · obtain ⟨createdBy, batch⟩ := posted.batch
    rw [batch, List.pairwise_map]
    exact sound.lines_sorted header.journalNumber

theorem journalLinesByNumber_rows (sound : world.Sound) (env : Env) (number : Int) :
    Query.rows env world (.journalLinesByNumber number) = world.linesOf number :=
  List.Pairwise.insertionSort_eq (sound.lines_sorted number)

/-- The check of an entry with postings finds them, or fails to rebuild them. -/
theorem check_posted (posted : world.postingsOf number ≠ [])
    {now : Timestamp} {existing : List LedgerPosting}
    (rebuilt :
      fromRows (PostgresPostingRepo.toDomain now) (world.postingsOf number) = .ok existing) :
    existing.isEmpty = false := by
  have pairs := fromRows_eq_ok_iff.mp rebuilt
  generalize world.postingsOf number = rows at pairs posted
  cases pairs with
  | nil => exact absurd rfl posted
  | cons _ _ => rfl

/-- The check and what follows it. -/
theorem check_valid {header : JournalEntryModel} {view : JournalViewModel}
    (read : ReadEntry number world header view) (actor event : String)
    (context : List LedgerPosting → List (String × LogValue))
    (response : List LedgerPosting → Response) :
    (execute (.postingsByNumber number) >>= fun reply =>
      (liftM (fromRows (PostgresPostingRepo.toDomain reply.2) reply.1) :
        Action (List LedgerPosting)) >>= fun existing =>
      (liftM (refuseIf (!existing.isEmpty) (PostingService.alreadyPosted number)) :
        Action Unit) >>= fun _ =>
      (liftM (PostingService.derivePostings reply.2 view) : Action (List LedgerPosting)) >>=
        fun postings => PostgresPostingRepo.saveMany postings actor >>= fun _ =>
      logInfo event (context postings) >>= fun _ =>
      (.done (.ok (response postings)) : Action Response)).Valid handle ledgerRegime
        (postTask number) world := by
  refine Program.valid_ask fun later kept sound env _ => ?_
  rw [handle_query_state]
  refine ⟨sound, .refl later, ?_⟩
  -- An error other than the conflict, raised where the check does not have to report.
  have quiet : ∀ error : Raised, (env.fault = none → later.postingsOf number ≠ [] →
      ¬∀ header ∈ later.journalEntries, header.journalNumber = number →
        header.postingDate ≤ env.now) →
      (∀ context, error ≠ .appError .journalAlreadyPosted context) →
      Continues ledgerRegime (postTask number) later (.query (.postingsByNumber number)) env
        (.done (.error error)) later := by
    intro error unreported other
    refine ⟨⟨fun calm posted reached => ?_, fun context same => ?_,
      fun past => absurd past Bool.false_ne_true⟩,
      Program.valid_done fun _ _ _ => trivial⟩
    · rcases reached with ⟨_, dated⟩ | ⟨_, same⟩
      · exact absurd dated (unreported calm posted)
      · cases same
    · exact absurd (Except.error.inj (Program.done.inj same)) (other context)
  cases failed : env.fault with
  | some fault =>
    simp only [handle, failed]
    refine quiet _ (fun calm => ?_) (fault_other fault)
    rw [failed] at calm
    cases calm
  | none =>
    simp only [handle, failed, postingsByNumber_rows sound]
    change Continues ledgerRegime (postTask number) later (.query (.postingsByNumber number)) env
      ((liftM (fromRows (PostgresPostingRepo.toDomain env.now) (later.postingsOf number)) :
        Action (List LedgerPosting)) >>= _) later
    cases rebuilt : fromRows (PostgresPostingRepo.toDomain env.now) (later.postingsOf number) with
    | error error =>
      refine quiet error (fun _ posted dated => ?_)
        (fromRows_error (fun _ _ => LedgerPosting.validate_unmapped) rebuilt).other
      obtain ⟨header, own, whole⟩ := (sound.whole number).resolve_left posted
      obtain ⟨existing, succeeds⟩ := fromRows_total fun posting member =>
        posted_rebuilds whole (dated header whole.stored own) (by rwa [own])
      rw [rebuilt] at succeeds
      cases succeeds
    | ok existing =>
      by_cases posted : later.postingsOf number = []
      · rw [posted] at rebuilt
        obtain rfl : existing = [] := (Except.ok.inj rebuilt).symm
        cases derived : PostingService.derivePostings env.now view with
        | error error =>
          exact quiet error (fun _ taken => absurd posted taken)
            (fromRows_error (fun _ _ => LedgerPosting.validate_unmapped) derived).other
        | ok postings =>
          refine ⟨⟨fun _ taken => absurd posted taken, fun _ same => (by cases same),
            fun past => absurd past Bool.false_ne_true⟩, ?_⟩
          exact saveMany_valid (read.later kept) sound derived actor event _ _
      · have refused : refuseIf (!existing.isEmpty) (PostingService.alreadyPosted number) =
            .error (PostingService.alreadyPosted number) := by
          rw [check_posted posted rebuilt]
          rfl
        simp only [Program.lift_eq, Program.ok_bind, refused, Program.error_bind]
        exact ⟨⟨fun _ _ _ => rfl, fun _ _ _ => posted,
          fun past => absurd past Bool.false_ne_true⟩,
          Program.valid_done fun _ _ _ => trivial⟩

theorem mem_of_journalEntriesByNumber (env : Env) {header : JournalEntryModel}
    (found : scalarOneOrNone (Query.rows env world (.journalEntriesByNumber number)) =
      .ok (some header)) : header ∈ world.journalEntries ∧ header.journalNumber = number := by
  have member : header ∈ Query.rows env world (.journalEntriesByNumber number) := by
    rw [scalarOneOrNone_eq_some found]
    exact List.mem_cons_self
  simpa [Query.rows] using member

theorem scalarOneOrNone_other {Row : Type} {rows : List Row} {error : Raised}
    (raised : scalarOneOrNone rows = .error error) (context : List (String × String)) :
    error ≠ .appError .journalAlreadyPosted context := by
  match rows with
  | [] => cases raised
  | [_] => cases raised
  | _ :: _ :: _ =>
    cases raised
    rintro ⟨⟩

/-- A posting call keeps the ledger sound and shows what it should at each step. -/
theorem post_valid (number : Int) (actor : String) (world : World) :
    (Call.postJournalEntry number actor).program.Valid handle ledgerRegime (postTask number)
      world := by
  simp only [Call.program, PostingService.postJournalEntry, JournalService.getJournalEntry,
    PostgresJournalRepo.getByNumber, PostgresPostingRepo.getByJournalNumber, map_eq_pure_bind,
    bind_assoc, pure_bind]
  refine valid_lift_bind (fun _ _ _ => trivial) fun _ _ => ?_
  refine valid_execute_bind (fun _ _ fault _ _ => post_harmless (fault_other fault)
    (fun same => by cases same) fun _ same => by cases same)
    fun first _ sound env _ => ?_
  refine continues_lift_bind (handle_query_state _ _ _)
    (fun error raised => post_harmless (scalarOneOrNone_other raised)
      (fun same => by cases same) fun _ same => by cases same)
    fun found loads => ?_
  cases found with
  | none =>
    simp only [orRaise, Program.pure_eq, Program.lift_eq, Program.ok_bind, Program.error_bind]
    exact Harmless.continues (post_harmless (fun _ same => by cases same)
      (fun same => by cases same) fun _ same => by cases same) (handle_query_state _ _ _) _
  | some header =>
    obtain ⟨stored, own⟩ := mem_of_journalEntriesByNumber env loads
    refine ⟨⟨fun _ _ reached => ?_, fun _ same => (by cases same),
      fun past => absurd past Bool.false_ne_true⟩, ?_⟩
    · rcases reached with ⟨same, _⟩ | ⟨_, same⟩ <;> cases same
    simp only [bind_assoc]
    refine valid_execute_bind (fun _ _ fault _ _ => post_harmless (fault_other fault)
      (fun same => by cases same) fun _ same => by cases same)
      fun second kept sound env _ => ?_
    simp only [journalLinesByNumber_rows sound]
    refine continues_lift_bind (handle_query_state _ _ _)
      (fun error raised => post_harmless (toDomain_unmapped raised).other
        (fun same => by cases same) fun _ same => by cases same)
      fun entry rebuilt => ?_
    rw [← own] at rebuilt
    obtain ⟨view, viewed, sameNumber, date, lines⟩ := view_of_toDomain
      (fun line member => sound.clean line (mem_linesOf.mp member).1) rebuilt
    simp only [orRaise, JournalService.computing, viewed, Program.lift_eq, Program.pure_eq,
      Program.ok_bind]
    refine ⟨⟨fun _ _ reached => ?_, fun _ same => (by cases same),
      fun past => absurd past Bool.false_ne_true⟩, ?_⟩
    · rcases reached with ⟨same, _⟩ | ⟨_, same⟩ <;> cases same
    exact check_valid
      ⟨kept.entries header stored, own, ⟨_, entry, rebuilt⟩, sameNumber, date, lines⟩ actor _ _ _

end Post

/-! ### All calls -/

/-- What a call is held to: posting shows its steps, and the others nothing. -/
def Call.task : Call → Task Command Reply Raised Response Env World
  | .postJournalEntry number _ => postTask number
  | _ => { permits := fun _ _ _ => True, shows := fun _ _ _ _ => True, ensures := fun _ _ => True }

theorem Call.task_permits (call : Call) (world : World) (command : Command) (env : Env) :
    call.task.permits world command env := by
  cases call <;> trivial

theorem call_valid (call : Call) (world : World) :
    call.program.Valid handle ledgerRegime call.task world := by
  by_cases posts : ∃ number, call.Posts number
  · obtain ⟨number, posts⟩ := posts
    cases call with
    | postJournalEntry other actor => exact post_valid other actor world
    | _ => exact posts.elim
  · have issues := call_issues (not_exists.mp posts)
    refine issues.valid (fun _ _ _ ordinary sound _ => ordinary_keepsLedger ordinary sound)
      (fun _ _ _ _ _ _ _ => ?_) (fun _ _ => ?_)
    · cases call with
      | postJournalEntry other actor => exact absurd ⟨other, rfl⟩ posts
      | _ => trivial
    · cases call <;> trivial

/-- Every run of calls on a sound ledger keeps it sound, and keeps what is stored in it. -/
theorem pool_sound {Thread : Type} [DecidableEq Thread] (calls : Thread → Call) {start : World}
    (sound : start.Sound) {pool : Pool Thread Command Reply Raised Response World}
    (reaches : Reaches handle (fun _ _ _ _ => True)
      ⟨start, fun thread => (calls thread).program⟩ pool) :
    pool.Valid handle ledgerRegime (fun thread => (calls thread).task) ∧
      start.KeepsLedger pool.state :=
  Reaches.valid ⟨sound, fun thread => call_valid (calls thread) start⟩
    (reaches.mono fun world thread command env _ => (calls thread).task_permits world command env)

end Trutina
