/-
This file models the four PostgreSQL repositories as programs over the database
commands: how they map rows to domain objects and back, and how they translate
what the database reports. Every read rebuilds its result through the domain
validators, at the reading of the clock that came with the rows, and what these
find is raised as it is.
-/

import Trutina.Database

namespace Trutina

open Interaction

/-- A service or repository operation. -/
abbrev Action (Result : Type) := Program Command Reply Raised Result

/-! ### Execution -/

/-- Infrastructure failures become errors of the contract. A constraint violation is raised
unchanged. -/
def translatePostgresErrors : SqlError → Raised
  | .integrity constraint => .integrityError (some constraint)
  | .failed .timeout => AppError.storageTimeout
  | .failed .operational => AppError.storageUnavailable
  | .failed .other => AppError.unknown

/-- Read the reply of the database. -/
def received {Value : Type} (reply : Stamped Value) : Except Raised (Value × Timestamp) :=
  match reply.value with
  | .ok value => .ok (value, reply.now)
  | .error error => .error (translatePostgresErrors error)

/-- Run a SELECT. -/
def execute (query : Query) : Action (List query.Row × Timestamp) :=
  .ask (.query query) fun reply => .done (received reply)

/-- Run a write transaction. -/
def commit (transaction : Transaction) : Action Unit :=
  .ask (.transact transaction) fun reply => .done ((received reply).map Prod.fst)

/-- Run a write transaction, translating a constraint violation. -/
def commitOr (onViolation : Option String → Raised) (transaction : Transaction) : Action Unit :=
  tryCatch (commit transaction) fun error =>
    match error with
    | .integrityError constraint => throw (onViolation constraint)
    | other => throw other

/-- The only row, if there is one. -/
def scalarOneOrNone {Row : Type} : List Row → Except Raised (Option Row)
  | [] => .ok none
  | [row] => .ok (some row)
  | _ :: _ :: _ => .error AppError.unknown

/-- Where at most one row can match, the query answers with it. -/
theorem scalarOneOrNone_of_unique {Row : Type} {rows : List Row} (distinct : rows.Nodup)
    (unique : ∀ first ∈ rows, ∀ second ∈ rows, first = second) :
    ∃ found, scalarOneOrNone rows = .ok found ∧ ∀ row, row ∈ rows ↔ found = some row := by
  rcases rows with _ | ⟨first, _ | ⟨second, rest⟩⟩
  · exact ⟨none, rfl, by simp⟩
  · exact ⟨some first, rfl, by simp [eq_comm]⟩
  · have same := unique first List.mem_cons_self second (List.mem_cons_of_mem _ List.mem_cons_self)
    rw [same] at distinct
    simp at distinct

/-- Rebuild every row, stopping at the first that fails. -/
def fromRows {Row Value : Type} (toDomain : Row → Except Raised Value) (rows : List Row) :
    Except Raised (List Value) := rows.mapM toDomain

/-! ### Accounts -/

/-- The audit row recorded alongside one account write. -/
def auditRow (action : AuditAction) (code actor : String) : AuditEventModel where
  entity := "account"
  entityKey := code
  action := action
  actor := actor

namespace PostgresAccountRepo

/-- Translate a violated constraint into a conflict of the field it protects. -/
def onDuplicate (code name : String) (constraint : Option String) : Raised :=
  if constraint = some "uq_accounts_code" then
    AppError.conflict .duplicateAccountCode "account" "code" code
  else if constraint = some "uq_accounts_name_key" then
    AppError.conflict .duplicateAccountName "account" "name" name
  else AppError.unknown

theorem onDuplicate_code (code name : String) :
    onDuplicate code name (some "uq_accounts_code") =
      AppError.conflict .duplicateAccountCode "account" "code" code := if_pos rfl

theorem onDuplicate_name (code name : String) :
    onDuplicate code name (some "uq_accounts_name_key") =
      AppError.conflict .duplicateAccountName "account" "name" name := by
  rw [onDuplicate, if_neg (by decide), if_pos rfl]

/-- Rebuild an account from its row. -/
def toDomain (row : AccountModel) : Except Raised Account :=
  Account.validate row.code row.name row.category

def create (account : Account) (createdBy : String) : Action Unit :=
  commitOr (onDuplicate account.code account.name)
    (.insertAccount account.code account.name (accountLookupKey account.name) account.category
      (auditRow .create account.code createdBy))

/-- Load the row with this code in the transaction that changes it. -/
def load (code : String) : Action (Option AccountModel) := do
  let (rows, _) ← execute (.accountsByCode code)
  scalarOneOrNone rows

def update (account : Account) (createdBy : String) : Action Unit := do
  match ← load account.code with
  | none => throw (AppError.notFound .unknownAccount "account" account.code)
  | some existing =>
    commitOr (onDuplicate account.code account.name)
      (.updateAccount existing account.name (accountLookupKey account.name) account.category
        (auditRow .update account.code createdBy))

def existsByCode (code : String) : Action Bool := do
  let (rows, _) ← execute (.accountsByCode code)
  let row ← scalarOneOrNone rows
  return row.isSome

def existsByName (name : String) : Action Bool := do
  let (rows, _) ← execute (.accountsByNameKey (accountLookupKey name))
  let row ← scalarOneOrNone rows
  return row.isSome

def getByCode (code : String) : Action (Option Account) := do
  let (rows, _) ← execute (.accountsByCode code)
  match ← scalarOneOrNone rows with
  | none => return none
  | some row =>
    let account ← toDomain row
    return some account

def listAll : Action (List Account) := do
  let (rows, _) ← execute .allAccounts
  fromRows toDomain rows

def deleteByCode (code createdBy : String) : Action Unit := do
  match ← load code with
  | none => throw (AppError.notFound .unknownAccount "account" code)
  | some existing =>
    commitOr (fun _ => AppError.unknown)
      (.deleteAccount existing (auditRow .delete code createdBy))

end PostgresAccountRepo

/-! ### Journal entries -/

namespace PostgresJournalRepo

/-- Every violation of a constraint is reported as a conflict of the number. -/
def onDuplicate (journalNumber : Int) (_ : Option String) : Raised :=
  AppError.conflict .unknownError "journal_entry" "journal_number" (toString journalNumber)

/-- The rows of an entry's lines, numbered in order. -/
def lineRows (journalNumber : Int) (lines : List JournalLine) : List (JournalLineModel Decimal) :=
  lines.mapIdx fun index line =>
    { journalNumber, lineIndex := index, account := line.account,
      debitAmount := line.debitAmount, creditAmount := line.creditAmount }

/-- Rebuild a line from its row. -/
def lineToDomain (line : JournalLineModel Money) : Except Raised JournalLine :=
  JournalLine.validate line.account line.debitAmount.toDecimal line.creditAmount.toDecimal

/-- Rebuild an entry from its rows. -/
def toDomain (now : Timestamp) (entry : JournalEntryModel) (lines : List (JournalLineModel Money)) :
    Except Raised JournalEntry := do
  let lines ← fromRows lineToDomain lines
  JournalEntry.validate now entry.journalNumber ⟨entry.postingDate, none⟩ lines entry.description

def save (entry : JournalEntry) (createdBy : String) : Action Unit :=
  commitOr (onDuplicate entry.journalNumber)
    (.insertJournal
      { journalNumber := entry.journalNumber, postingDate := entry.postingDate,
        description := entry.description, createdBy := some createdBy }
      (lineRows entry.journalNumber entry.lines))

def getByNumber (journalNumber : Int) : Action (Option JournalEntry) := do
  let (entries, _) ← execute (.journalEntriesByNumber journalNumber)
  match ← scalarOneOrNone entries with
  | none => return none
  | some entry =>
    let (lines, now) ← execute (.journalLinesByNumber journalNumber)
    let entry ← toDomain now entry lines
    return some entry

def listEntries : Action (List JournalEntry) := do
  let (entries, _) ← execute .allJournalEntries
  let (lines, now) ← execute .allJournalLines
  fromRows (fun entry => toDomain now entry
    (lines.filter fun line => line.journalNumber = entry.journalNumber)) entries

/-- The next number, with the clock when it arrives. -/
def nextJournalNumber : Action (Int × Timestamp) :=
  .ask .nextval fun reply => .done (received reply)

end PostgresJournalRepo

/-! ### Postings -/

namespace PostgresPostingRepo

/-- Every violation of a constraint is reported as an entry posted before. -/
def onDuplicate (postings : List LedgerPosting) (_ : Option String) : Raised :=
  let journalNumber := match postings with
    | [] => "None"
    | posting :: _ => toString posting.journalNumber
  AppError.conflict .journalAlreadyPosted "journal_entry" "journal_number" journalNumber

/-- The rows of a batch, numbered in order. -/
def postingRows (postings : List LedgerPosting) (createdBy : String) :
    List (PostingModel Decimal) :=
  postings.mapIdx fun index posting =>
    { account := posting.account, accountKey := accountLookupKey posting.account,
      debitAmount := posting.debitAmount, creditAmount := posting.creditAmount,
      journalNumber := posting.journalNumber, postingDate := posting.postingDate,
      lineIndex := index, createdBy := some createdBy }

/-- Rebuild a posting from its row. -/
def toDomain (now : Timestamp) (row : PostingModel Money) : Except Raised LedgerPosting :=
  LedgerPosting.validate now row.account row.debitAmount.toDecimal row.creditAmount.toDecimal
    row.journalNumber ⟨row.postingDate, none⟩

def saveMany (postings : List LedgerPosting) (createdBy : String) : Action Unit :=
  commitOr (onDuplicate postings) (.insertPostings (postingRows postings createdBy))

def getByAccount (account : String) : Action (List LedgerPosting) := do
  let (rows, now) ← execute (.postingsByAccountKey (accountLookupKey account))
  fromRows (toDomain now) rows

/-- The postings of an entry, with the clock when they arrive. -/
def getByJournalNumber (journalNumber : Int) : Action (List LedgerPosting × Timestamp) := do
  let (rows, now) ← execute (.postingsByNumber journalNumber)
  let postings ← fromRows (toDomain now) rows
  return (postings, now)

end PostgresPostingRepo

/-! ### Trial balances -/

namespace PostgresTrialBalanceRepo

/-- Build a row of the report. -/
def toDomain (row : BalanceRow) : Except Raised AccountBalanceEntry :=
  AccountBalanceEntry.validate row.account row.debitTotal row.creditTotal

def getAccountBalances (asOfDate : Option Timestamp) : Action (List AccountBalanceEntry) := do
  let (rows, _) ← execute (.accountBalances asOfDate)
  fromRows toDomain rows

end PostgresTrialBalanceRepo

end Trutina
