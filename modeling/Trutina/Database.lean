/-
This file models the PostgreSQL database behind the repositories and the machine
that serves it: the tables with their constraints, the statements the
repositories send, and the clock and the log of the application. Each SELECT
sees one committed state. A write transaction is taken in one step at its
commit: it sees the state committed by then, and either all of its statements
succeed or the state stays as it was. What a transaction loaded earlier is part
of the command, so other transactions can commit between the two.
-/

import Trutina.Interaction
import Trutina.Posting
import Trutina.RelatedLists

namespace Trutina

open Interaction

/-! ### Tables -/

/-- An amount as a `numeric(18, 2)` column stores it. -/
structure Money where
  cents : Int
  bounded : cents.natAbs < 10 ^ 18
  deriving DecidableEq, Repr

/-- An amount as it is read back. -/
def Money.toDecimal (money : Money) : Decimal := ⟨money.cents, -2⟩

/-- An amount is rounded half away from zero to two places; one that is too large is refused. -/
def Money.ofDecimal (amount : Decimal) : Option Money :=
  let cents := Decimal.roundHalfUp 2 amount
  if bounded : cents.natAbs < 10 ^ 18 then some ⟨cents, bounded⟩ else none

/-- A row of `accounts`. The CHECK on the category admits exactly the categories. -/
structure AccountModel where
  id : Nat
  code : String
  name : String
  nameKey : String
  category : AccountCategory
  deriving DecidableEq, Repr

/-- The kind of change an audit event records. -/
inductive AuditAction where
  | create
  | update
  | delete
  deriving DecidableEq, Repr

/-- A row of `audit_events`. -/
structure AuditEventModel where
  entity : String
  entityKey : String
  action : AuditAction
  actor : String
  deriving DecidableEq, Repr

/-- A row of `journal_entries`. -/
structure JournalEntryModel where
  journalNumber : Int
  postingDate : Timestamp
  description : Option String
  createdBy : Option String
  deriving DecidableEq, Repr

/-- A row of `journal_lines`: with decimals as it is sent, with money as it is stored. -/
structure JournalLineModel (Amount : Type) where
  journalNumber : Int
  lineIndex : Nat
  account : String
  debitAmount : Amount
  creditAmount : Amount
  deriving DecidableEq, Repr

/-- A row of `postings`: with decimals as it is sent, with money as it is stored. -/
structure PostingModel (Amount : Type) where
  account : String
  accountKey : String
  debitAmount : Amount
  creditAmount : Amount
  journalNumber : Int
  postingDate : Timestamp
  lineIndex : Nat
  createdBy : Option String
  deriving DecidableEq, Repr

/-- What a log record carries besides its event. -/
inductive LogValue where
  | text (value : String)
  | number (value : Int)
  | date (value : Option Timestamp)
  deriving DecidableEq, Repr

/-- A record of a state change. -/
structure LogRecord where
  event : String
  context : List (String × LogValue)
  deriving DecidableEq, Repr

/-- The committed tables, the sequences behind their identities, and the application's log. -/
structure World where
  accounts : List AccountModel
  nextAccountId : Nat
  auditEvents : List AuditEventModel
  journalEntries : List JournalEntryModel
  journalLines : List (JournalLineModel Money)
  nextJournalNumber : Int
  postings : List (PostingModel Money)
  log : List LogRecord
  deriving DecidableEq, Repr

/-- The state of a freshly migrated database. -/
def World.empty : World where
  accounts := []
  nextAccountId := 1
  auditEvents := []
  journalEntries := []
  journalLines := []
  nextJournalNumber := 1
  postings := []
  log := []

/-! ### The environment -/

/-- Failures that do not depend on the data: a timeout, a lost connection, and the rest. -/
inductive Fault where
  | timeout
  | operational
  | other
  deriving DecidableEq, Repr

/-- What a statement can fail with: a violated constraint or another failure. -/
inductive SqlError where
  | integrity (constraint : String)
  | failed (fault : Fault)
  deriving DecidableEq, Repr

/-- The conditions one step is taken under: the application's clock when it reads the reply, the
database's clock, a failure of the infrastructure, and what the database is free to choose: which
of two violated unique constraints it reports, the order of rows a query leaves open, and how it
compares texts. -/
structure Env where
  now : Timestamp
  dbNow : Timestamp
  fault : Option Fault
  nameKeyFirst : Bool
  arrangeAccounts : List AccountModel → List AccountModel
  arrangeAccounts_perm : ∀ rows, (arrangeAccounts rows).Perm rows
  arrangePostings : List (PostingModel Money) → List (PostingModel Money)
  arrangePostings_perm : ∀ rows, (arrangePostings rows).Perm rows
  collate : String → String → Bool

/-- An uneventful step at a given time. -/
def Env.calm (now : Timestamp) : Env where
  now := now
  dbNow := now
  fault := none
  nameKeyFirst := false
  arrangeAccounts := id
  arrangeAccounts_perm := List.Perm.refl
  arrangePostings := id
  arrangePostings_perm := List.Perm.refl
  collate := fun first second => decide (first ≤ second)

/-! ### Queries -/

/-- One row of the trial balance query. -/
structure BalanceRow where
  account : String
  debitTotal : Decimal
  creditTotal : Decimal
  deriving DecidableEq, Repr

/-- The SELECT statements of the repositories. -/
inductive Query where
  | accountsByCode (code : String)
  | accountsByNameKey (nameKey : String)
  | allAccounts
  | journalEntriesByNumber (journalNumber : Int)
  | journalLinesByNumber (journalNumber : Int)
  | allJournalEntries
  | allJournalLines
  | postingsByAccountKey (accountKey : String)
  | postingsByNumber (journalNumber : Int)
  | accountBalances (asOfDate : Option Timestamp)
  deriving DecidableEq, Repr

/-- The rows a query returns. -/
abbrev Query.Row : Query → Type
  | .accountsByCode _ => AccountModel
  | .accountsByNameKey _ => AccountModel
  | .allAccounts => AccountModel
  | .journalEntriesByNumber _ => JournalEntryModel
  | .journalLinesByNumber _ => JournalLineModel Money
  | .allJournalEntries => JournalEntryModel
  | .allJournalLines => JournalLineModel Money
  | .postingsByAccountKey _ => PostingModel Money
  | .postingsByNumber _ => PostingModel Money
  | .accountBalances _ => BalanceRow

/-- The lines stored under a number. -/
def World.linesOf (world : World) (journalNumber : Int) : List (JournalLineModel Money) :=
  world.journalLines.filter fun line => line.journalNumber = journalNumber

/-- The postings stored under a number. -/
def World.postingsOf (world : World) (journalNumber : Int) : List (PostingModel Money) :=
  world.postings.filter fun posting => posting.journalNumber = journalNumber

/-- The postings a report covers. -/
def World.postingsInScope (world : World) (asOfDate : Option Timestamp) :
    List (PostingModel Money) :=
  world.postings.filter fun posting => asOfDate.all fun cutoff => posting.postingDate ≤ cutoff

/-- GROUP BY account_key. -/
def groupByAccountKey (postings : List (PostingModel Money)) : List (List (PostingModel Money)) :=
  (postings.map PostingModel.accountKey).dedup.map fun key =>
    postings.filter fun posting => posting.accountKey = key

/-- MIN(account). -/
def minAccount (collate : String → String → Bool) : List (PostingModel Money) → String
  | [] => ""
  | first :: rest => rest.foldl (fun least posting =>
      if collate posting.account least then posting.account else least) first.account

/-- SUM over a money column. -/
def sumMoney (amounts : List Money) : Decimal := ⟨(amounts.map Money.cents).sum, -2⟩

/-- The row a group is aggregated to. -/
def balanceRow (collate : String → String → Bool) (group : List (PostingModel Money)) :
    BalanceRow where
  account := minAccount collate group
  debitTotal := sumMoney (group.map PostingModel.debitAmount)
  creditTotal := sumMoney (group.map PostingModel.creditAmount)

/-- The answer to a query. -/
def Query.rows (env : Env) (world : World) : (query : Query) → List query.Row
  | .accountsByCode code =>
    env.arrangeAccounts (world.accounts.filter fun row => row.code = code)
  | .accountsByNameKey nameKey =>
    env.arrangeAccounts (world.accounts.filter fun row => row.nameKey = nameKey)
  | .allAccounts => env.arrangeAccounts world.accounts
  | .journalEntriesByNumber number =>
    world.journalEntries.filter fun entry => entry.journalNumber = number
  | .journalLinesByNumber number =>
    (world.linesOf number).insertionSort fun first second => first.lineIndex ≤ second.lineIndex
  | .allJournalEntries =>
    world.journalEntries.insertionSort fun first second =>
      first.journalNumber ≤ second.journalNumber
  | .allJournalLines =>
    world.journalLines.insertionSort fun first second =>
      first.journalNumber < second.journalNumber ∨
        (first.journalNumber = second.journalNumber ∧ first.lineIndex ≤ second.lineIndex)
  | .postingsByAccountKey key =>
    (env.arrangePostings (world.postings.filter fun posting => posting.accountKey = key)
      ).insertionSort fun first second => first.postingDate ≤ second.postingDate
  | .postingsByNumber number =>
    (world.postingsOf number).insertionSort fun first second =>
      first.lineIndex ≤ second.lineIndex
  | .accountBalances asOfDate =>
    ((groupByAccountKey (world.postingsInScope asOfDate)).map (balanceRow env.collate)
      ).insertionSort fun first second => env.collate first.account second.account = true

/-! ### Write transactions -/

/-- The write transactions of the repositories. An account flush carries the row that the
transaction loaded; the unit of work sends only what differs from it. -/
inductive Transaction where
  | insertAccount (code name nameKey : String) (category : AccountCategory)
      (audit : AuditEventModel)
  | updateAccount (loaded : AccountModel) (name nameKey : String) (category : AccountCategory)
      (audit : AuditEventModel)
  | deleteAccount (loaded : AccountModel) (audit : AuditEventModel)
  | insertJournal (entry : JournalEntryModel) (lines : List (JournalLineModel Decimal))
  | insertPostings (postings : List (PostingModel Decimal))
  deriving DecidableEq, Repr

/-- The CHECK that exactly one side of a line is positive and the other is zero. -/
def exactlyOneSide (debit credit : Money) : Bool :=
  (0 < debit.cents && credit.cents == 0) || (0 < credit.cents && debit.cents == 0)

/-- The CHECK on posting dates. -/
def postingDateInRange (dbNow date : Timestamp) : Bool :=
  earliestPosting < date && date ≤ dbNow

/-- The coercion of an amount to its column. -/
def coerceAmount (amount : Decimal) : Except SqlError Money :=
  match Money.ofDecimal amount with
  | some money => .ok money
  | none => .error (.failed .other)

/-- The columns of an account row that an update changed. -/
def AccountModel.overwrite (loaded : AccountModel) (name nameKey : String)
    (category : AccountCategory) (row : AccountModel) : AccountModel :=
  { row with
    name := if name = loaded.name then row.name else name
    nameKey := if nameKey = loaded.nameKey then row.nameKey else nameKey
    category := if category = loaded.category then row.category else category }

/-- The unit of work sends at most this many rows in one INSERT, which is its default. -/
def pageSize : Nat := 1000

/-- Insert rows. An INSERT selects from its values in order, so all amounts of a page are coerced
before a constraint is checked for the first of its rows. -/
def insertRows {Row Stored : Type} (coerce : Row → Except SqlError Stored)
    (insert : World → Stored → Except SqlError World) (world : World) (rows : List Row) :
    Except SqlError World :=
  (rows.pages pageSize).foldlM (List.addPage coerce insert) world

section Rows

variable {Row Stored : Type} {coerce : Row → Except SqlError Stored}
  {insert : World → Stored → Except SqlError World} {world after : World} {rows : List Row}

theorem insertRows_eq_ok_iff : insertRows coerce insert world rows = .ok after ↔
    ∃ stored, rows.mapM coerce = .ok stored ∧ stored.foldlM insert world = .ok after := by
  rw [insertRows, List.foldlM_addPage_eq_ok_iff, List.flatten_pages (by decide)]

/-- Rows whose amounts all fit are inserted one after another. -/
theorem insertRows_of_coerced {stored : List Stored} (coerced : rows.mapM coerce = .ok stored) :
    insertRows coerce insert world rows = stored.foldlM insert world :=
  List.foldlM_addPage_of_computed (by rw [List.flatten_pages (by decide), coerced])

end Rows

def coerceLine (line : JournalLineModel Decimal) : Except SqlError (JournalLineModel Money) := do
  let debit ← coerceAmount line.debitAmount
  let credit ← coerceAmount line.creditAmount
  return { line with debitAmount := debit, creditAmount := credit }

/-- Insert one journal line. -/
def insertLine (world : World) (line : JournalLineModel Money) : Except SqlError World :=
  if exactlyOneSide line.debitAmount line.creditAmount = false then
    .error (.integrity "ck_journal_lines_exactly_one_side")
  else if world.journalLines.any fun stored =>
      stored.journalNumber == line.journalNumber && stored.lineIndex == line.lineIndex then
    .error (.integrity "uq_journal_lines_journal_number_line_index")
  else .ok { world with journalLines := world.journalLines ++ [line] }

def coercePosting (posting : PostingModel Decimal) : Except SqlError (PostingModel Money) := do
  let debit ← coerceAmount posting.debitAmount
  let credit ← coerceAmount posting.creditAmount
  return { posting with debitAmount := debit, creditAmount := credit }

/-- Insert one posting. The foreign key is checked last. -/
def insertPosting (env : Env) (world : World) (posting : PostingModel Money) :
    Except SqlError World :=
  if exactlyOneSide posting.debitAmount posting.creditAmount = false then
    .error (.integrity "ck_postings_exactly_one_side")
  else if postingDateInRange env.dbNow posting.postingDate = false then
    .error (.integrity "ck_postings_posting_date_range")
  else if world.postings.any fun stored =>
      stored.journalNumber == posting.journalNumber && stored.lineIndex == posting.lineIndex then
    .error (.integrity "uq_postings_journal_number_line_index")
  else if world.journalEntries.all fun entry => entry.journalNumber != posting.journalNumber then
    .error (.integrity "fk_postings_journal_number_journal_entries")
  else .ok { world with postings := world.postings ++ [posting] }

/-- What a transaction does to the committed state. -/
def Transaction.apply (env : Env) (world : World) : Transaction → Except SqlError World
  | .insertAccount code name nameKey category audit =>
    let codeTaken := world.accounts.any fun row => row.code == code
    let keyTaken := world.accounts.any fun row => row.nameKey == nameKey
    if codeTaken && !(keyTaken && env.nameKeyFirst) then .error (.integrity "uq_accounts_code")
    else if keyTaken then .error (.integrity "uq_accounts_name_key")
    else
      .ok { world with
        accounts := world.accounts ++ [⟨world.nextAccountId, code, name, nameKey, category⟩]
        nextAccountId := world.nextAccountId + 1
        auditEvents := world.auditEvents ++ [audit] }
  | .updateAccount loaded name nameKey category audit =>
    if name = loaded.name ∧ nameKey = loaded.nameKey ∧ category = loaded.category then
      .ok { world with auditEvents := world.auditEvents ++ [audit] }
    else if world.accounts.all fun row => row.id != loaded.id then
      -- The UPDATE matched no row, which the unit of work reports as stale data.
      .error (.failed .other)
    else if nameKey ≠ loaded.nameKey ∧
        world.accounts.any (fun row => row.id != loaded.id && row.nameKey == nameKey) then
      .error (.integrity "uq_accounts_name_key")
    else
      .ok { world with
        accounts := world.accounts.map fun row =>
          if row.id = loaded.id then loaded.overwrite name nameKey category row else row
        auditEvents := world.auditEvents ++ [audit] }
  | .deleteAccount loaded audit =>
    -- A DELETE that matches no row only warns.
    .ok { world with
      accounts := world.accounts.filter fun row => row.id != loaded.id
      auditEvents := world.auditEvents ++ [audit] }
  | .insertJournal entry lines =>
    if world.journalEntries.any fun stored => stored.journalNumber == entry.journalNumber then
      .error (.integrity "pk_journal_entries")
    else if postingDateInRange env.dbNow entry.postingDate = false then
      .error (.integrity "ck_journal_entries_posting_date_range")
    else
      insertRows coerceLine insertLine
        { world with journalEntries := world.journalEntries ++ [entry] } lines
  | .insertPostings postings => insertRows coercePosting (insertPosting env) world postings

/-! ### Commands -/

/-- What services and repositories ask for. -/
inductive Command where
  | query (query : Query)
  | transact (transaction : Transaction)
  | nextval
  | emit (record : LogRecord)
  deriving DecidableEq, Repr

/-- A reply of the database, with the clock when the application reads it. -/
structure Stamped (Value : Type) where
  value : Except SqlError Value
  now : Timestamp

abbrev Reply : Command → Type
  | .query query => Stamped (List query.Row)
  | .transact _ => Stamped Unit
  | .nextval => Stamped Int
  | .emit _ => Unit

/-- How the machine serves one command. -/
def handle : Handler Command Reply Env World
  | .query query, env, world =>
    match env.fault with
    | some fault => (⟨.error (.failed fault), env.now⟩, world)
    | none => (⟨.ok (query.rows env world), env.now⟩, world)
  | .transact transaction, env, world =>
    match env.fault with
    | some fault => (⟨.error (.failed fault), env.now⟩, world)
    | none =>
      match transaction.apply env world with
      | .error error => (⟨.error error, env.now⟩, world)
      | .ok after => (⟨.ok (), env.now⟩, after)
  | .nextval, env, world =>
    match env.fault with
    | some fault => (⟨.error (.failed fault), env.now⟩, world)
    | none =>
      (⟨.ok world.nextJournalNumber, env.now⟩,
        { world with nextJournalNumber := world.nextJournalNumber + 1 })
  | .emit record, _, world => ((), { world with log := world.log ++ [record] })

@[simp] theorem handle_query_state (query : Query) (env : Env) (world : World) :
    (handle (.query query) env world).2 = world := by
  simp only [handle]
  split <;> rfl

end Trutina
