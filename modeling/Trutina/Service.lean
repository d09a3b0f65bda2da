/-
This file models the four services as programs over the repositories, wired as
the composition root wires them: the account service asks the posting repository
whether an account has postings, the journal service resolves references against
the chart of the account service, and the posting service reads entries through
the journal service. A write checks its actor first and logs only after it has
succeeded.
-/

import Trutina.Repository

namespace Trutina

open Interaction

/-! ### Common steps -/

/-- Every write must be attributable to a caller. -/
def requireActor (actor : String) : Except Raised Unit :=
  if isNonBlankActor actor then .ok () else .error (ValidationAppError.requiredField "actor" actor)

/-- Raise an error when a condition holds. -/
def refuseIf (condition : Bool) (error : Raised) : Except Raised Unit :=
  if condition then .error error else .ok ()

/-- The value, or the error when there is none. -/
def orRaise {Value : Type} (error : Raised) : Option Value → Except Raised Value
  | some value => .ok value
  | none => .error error

/-- Log a state change. -/
def logInfo (event : String) (context : List (String × LogValue)) : Action Unit :=
  .ask (.emit ⟨event, context⟩) fun _ => .done (.ok ())

/-! ### Accounts -/

namespace AccountService

def toViewModel (account : Account) : AccountViewModel where
  code := account.code
  name := account.name
  category := account.category
  normalBalance := account.normalBalance

def unknownAccount (identifier : String) : Raised :=
  AppError.notFound .unknownAccount "account" identifier

def duplicateCode (code : String) : Raised :=
  AppError.conflict .duplicateAccountCode "account" "code" code

def duplicateName (name : String) : Raised :=
  AppError.conflict .duplicateAccountName "account" "name" name

/-- The predicate that the composition root binds to the posting repository. -/
def hasPostings (accountName : String) : Action Bool := do
  let postings ← PostgresPostingRepo.getByAccount accountName
  return decide (0 < postings.length)

def createAccount (dto : CreateAccountInput) (actor : String) : Action AccountViewModel := do
  requireActor actor
  let codeTaken ← PostgresAccountRepo.existsByCode dto.code
  refuseIf codeTaken (duplicateCode dto.code)
  let nameTaken ← PostgresAccountRepo.existsByName dto.name
  refuseIf nameTaken (duplicateName dto.name)
  let account ← translating (Account.validate dto.code dto.name dto.category)
  PostgresAccountRepo.create account actor
  logInfo "account.created"
    [("code", .text account.code), ("category", .text account.category.value)]
  return toViewModel account

/-- Whether a changed name is taken. An unchanged name is not looked up. -/
def nameTakenOnChange (existing : Account) (newName : String) : Action Bool :=
  if newName = existing.name then return false else PostgresAccountRepo.existsByName newName

def updateAccount (dto : UpdateAccountInput) (actor : String) : Action AccountViewModel := do
  requireActor actor
  let found ← PostgresAccountRepo.getByCode dto.code
  let existing ← orRaise (unknownAccount dto.code) found
  let newName := dto.name.getD existing.name
  let newCategory := dto.category.getD existing.category
  let nameTaken ← nameTakenOnChange existing newName
  refuseIf nameTaken (duplicateName newName)
  let updated ← translating (Account.validate existing.code newName newCategory)
  PostgresAccountRepo.update updated actor
  logInfo "account.updated" [("code", .text updated.code)]
  return toViewModel updated

def getAccount (code : String) : Action AccountViewModel := do
  let found ← PostgresAccountRepo.getByCode code
  let account ← orRaise (unknownAccount code) found
  return toViewModel account

/-- The chart as a single snapshot. -/
def getChart : Action ChartOfAccounts := do
  let existing ← PostgresAccountRepo.listAll
  ChartOfAccounts.validate existing

def resolveAccount (reference : String) : Action AccountViewModel := do
  let chart ← getChart
  let account ← orRaise (unknownAccount reference) (chart.getByName reference)
  return toViewModel account

def listAccounts : Action ChartOfAccountsViewModel := do
  let accounts ← PostgresAccountRepo.listAll
  return { accounts := accounts.map toViewModel }

def deleteAccount (code actor : String) : Action Unit := do
  requireActor actor
  let found ← PostgresAccountRepo.getByCode code
  let existing ← orRaise (unknownAccount code) found
  let posted ← hasPostings existing.name
  refuseIf posted (AppError.conflict .accountHasPostings "account" "code" code)
  PostgresAccountRepo.deleteByCode code actor
  logInfo "account.deleted" [("code", .text code)]

end AccountService

/-! ### Journal entries -/

namespace JournalService

/-- What decimal arithmetic raises leaves the service as it is. -/
def computing {Value : Type} : Except Decimal.ArithmeticError Value → Except Raised Value
  | .ok value => .ok value
  | .error .overflow => .error .overflow

/-- Every line must reference an account of the chart. The first that does not is reported. -/
def resolveLines (chart : ChartOfAccounts) (lines : List JournalLineInput) : Except Raised Unit :=
  lines.forM fun line =>
    refuseIf (chart.getByName line.account).isNone (AccountService.unknownAccount line.account)

def validateAccounts (lines : List JournalLineInput) : Action Unit := do
  let chart ← AccountService.getChart
  resolveLines chart lines

def buildLines (lines : List JournalLineInput) : Except Raised (List JournalLine) :=
  lines.mapM fun line => JournalLine.validate line.account line.debitAmount line.creditAmount

/-- The entry for an input, as the domain model accepts it. -/
def buildEntry (now : Timestamp) (journalNumber : Int) (input : CreateJournalInput) :
    Except Raised JournalEntry := do
  let lines ← buildLines input.lines
  JournalEntry.validate now journalNumber input.postingDate lines input.description

def createJournalEntry (input : CreateJournalInput) (actor : String) : Action JournalViewModel := do
  requireActor actor
  validateAccounts input.lines
  let (journalNumber, now) ← PostgresJournalRepo.nextJournalNumber
  let entry ← translating (buildEntry now journalNumber input)
  PostgresJournalRepo.save entry actor
  logInfo "journal.created"
    [("journal_number", .number entry.journalNumber), ("line_count", .number entry.lines.length)]
  computing (toEntryView entry)

def getJournalEntry (journalNumber : Int) : Action JournalViewModel := do
  let found ← PostgresJournalRepo.getByNumber journalNumber
  let entry ← orRaise
    (AppError.notFound .unknownJournalEntry "journal_entry" (toString journalNumber)) found
  computing (toEntryView entry)

def toEntryViews (entries : List JournalEntry) : Except Raised (List JournalViewModel) :=
  entries.mapM fun entry => computing (toEntryView entry)

def listJournalEntries : Action (List JournalViewModel) := do
  let entries ← PostgresJournalRepo.listEntries
  toEntryViews entries

end JournalService

/-! ### Postings -/

namespace PostingService

def toViewModel (posting : LedgerPosting) : PostingViewModel where
  account := posting.account
  debitAmount := if posting.isDebit then some posting.debitAmount else none
  creditAmount := if posting.isDebit then none else some posting.creditAmount
  journalNumber := posting.journalNumber
  postingDate := posting.postingDate

/-- One posting for each line of the entry, in order. -/
def derivePostings (now : Timestamp) (entry : JournalViewModel) :
    Except Raised (List LedgerPosting) :=
  entry.lines.mapM fun line =>
    LedgerPosting.validate now line.account line.debitAmount line.creditAmount
      entry.journalNumber ⟨entry.postingDate, none⟩

def alreadyPosted (journalNumber : Int) : Raised :=
  AppError.conflict .journalAlreadyPosted "journal_entry" "journal_number" (toString journalNumber)

def postJournalEntry (journalNumber : Int) (actor : String) : Action (List PostingViewModel) := do
  requireActor actor
  let entry ← JournalService.getJournalEntry journalNumber
  let (existing, now) ← PostgresPostingRepo.getByJournalNumber journalNumber
  refuseIf (!existing.isEmpty) (alreadyPosted journalNumber)
  let postings ← derivePostings now entry
  PostgresPostingRepo.saveMany postings actor
  logInfo "posting.created"
    [("journal_number", .number journalNumber), ("line_count", .number postings.length)]
  return postings.map toViewModel

def getPostingsByAccount (account : String) : Action (List PostingViewModel) := do
  let postings ← PostgresPostingRepo.getByAccount account
  return postings.map toViewModel

def getPostingsByJournalNumber (journalNumber : Int) : Action (List PostingViewModel) := do
  let (postings, _) ← PostgresPostingRepo.getByJournalNumber journalNumber
  return postings.map toViewModel

end PostingService

/-! ### Trial balances -/

namespace TrialBalanceService

def getTrialBalance (asOfDate : Option Timestamp) : Action TrialBalanceViewModel := do
  let entries ← PostgresTrialBalanceRepo.getAccountBalances asOfDate
  logInfo "trial_balance.generated"
    [("entry_count", .number entries.length), ("as_of_date", .date asOfDate)]
  return { entries, asOfDate }

end TrialBalanceService

/-! ### Calls -/

/-- A call of a service. -/
inductive Call where
  | createAccount (dto : CreateAccountInput) (actor : String)
  | updateAccount (dto : UpdateAccountInput) (actor : String)
  | getAccount (code : String)
  | getChart
  | resolveAccount (reference : String)
  | listAccounts
  | deleteAccount (code actor : String)
  | createJournalEntry (input : CreateJournalInput) (actor : String)
  | getJournalEntry (journalNumber : Int)
  | listJournalEntries
  | postJournalEntry (journalNumber : Int) (actor : String)
  | getPostingsByAccount (account : String)
  | getPostingsByJournalNumber (journalNumber : Int)
  | getTrialBalance (asOfDate : Option Timestamp)

/-- What a call returns. -/
inductive Response where
  | account (view : AccountViewModel)
  | chart (chart : ChartOfAccounts)
  | accounts (view : ChartOfAccountsViewModel)
  | deleted
  | journal (view : JournalViewModel)
  | journals (views : List JournalViewModel)
  | postings (views : List PostingViewModel)
  | trialBalance (view : TrialBalanceViewModel)

/-- The program a call runs. -/
def Call.program : Call → Action Response
  | .createAccount dto actor => Response.account <$> AccountService.createAccount dto actor
  | .updateAccount dto actor => Response.account <$> AccountService.updateAccount dto actor
  | .getAccount code => Response.account <$> AccountService.getAccount code
  | .getChart => Response.chart <$> AccountService.getChart
  | .resolveAccount reference => Response.account <$> AccountService.resolveAccount reference
  | .listAccounts => Response.accounts <$> AccountService.listAccounts
  | .deleteAccount code actor =>
    (fun _ => Response.deleted) <$> AccountService.deleteAccount code actor
  | .createJournalEntry input actor =>
    Response.journal <$> JournalService.createJournalEntry input actor
  | .getJournalEntry number => Response.journal <$> JournalService.getJournalEntry number
  | .listJournalEntries => Response.journals <$> JournalService.listJournalEntries
  | .postJournalEntry number actor =>
    Response.postings <$> PostingService.postJournalEntry number actor
  | .getPostingsByAccount account =>
    Response.postings <$> PostingService.getPostingsByAccount account
  | .getPostingsByJournalNumber number =>
    Response.postings <$> PostingService.getPostingsByJournalNumber number
  | .getTrialBalance asOfDate =>
    Response.trialBalance <$> TrialBalanceService.getTrialBalance asOfDate

end Trutina
