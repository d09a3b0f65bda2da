/-
This file models the routes of the API. A route maps the request to the input of
a service, makes one call as the actor of all requests without a user, and
presents the view that it returns. Nothing else of a route can fail: only the
code of an update comes from the path without a bound, and only the totals of a
report are computed when it is presented.
-/

import Trutina.Outcomes

namespace Trutina

open Interaction

/-! ### Requests -/

/-- The body of an account creation. -/
structure CreateAccountRequest where
  code : String
  name : String
  category : AccountCategory
  code_length : 1 ≤ code.length ∧ code.length ≤ 20
  name_length : 2 ≤ name.length ∧ name.length ≤ 150

/-- The body of an account update. -/
structure UpdateAccountRequest where
  name : Option String
  category : Option AccountCategory
  name_length : ∀ given ∈ name, 2 ≤ given.length ∧ given.length ≤ 150

structure JournalLineRequest where
  account : String
  debitAmount : Decimal
  creditAmount : Decimal
  account_length : 2 ≤ account.length ∧ account.length ≤ 100
  debit_nonneg : 0 ≤ debitAmount.coefficient
  credit_nonneg : 0 ≤ creditAmount.coefficient

/-- The body of a journal entry. -/
structure CreateJournalEntryRequest where
  postingDate : DateTime
  lines : List JournalLineRequest
  description : Option String
  two_lines : 2 ≤ lines.length
  description_length : ∀ text ∈ description, text.length ≤ 255

/-! ### Mappers -/

def toCreateAccountInput (request : CreateAccountRequest) : CreateAccountInput where
  code := request.code
  name := request.name
  category := request.category
  code_length := request.code_length
  name_length := request.name_length

/-- The code comes from the path, where it has no bounds. -/
def toUpdateAccountInput (code : String) (request : UpdateAccountRequest) :
    Except Raised UpdateAccountInput :=
  if short : code.length < 1 then
    .error (.validationError [⟨ErrorCode.stringTooShort.value, ["code"], .text code⟩])
  else if long : 20 < code.length then
    .error (.validationError [⟨ErrorCode.stringTooLong.value, ["code"], .text code⟩])
  else
    .ok ⟨code, request.name, request.category, ⟨not_lt.mp short, not_lt.mp long⟩,
      request.name_length⟩

def toJournalLineInput (line : JournalLineRequest) : JournalLineInput where
  account := line.account
  debitAmount := line.debitAmount
  creditAmount := line.creditAmount
  account_length := line.account_length
  debit_nonneg := line.debit_nonneg
  credit_nonneg := line.credit_nonneg

def toCreateJournalInput (request : CreateJournalEntryRequest) : CreateJournalInput where
  postingDate := request.postingDate
  lines := request.lines.map toJournalLineInput
  description := request.description
  two_lines := request.two_lines.trans_eq (List.length_map _).symm
  description_length := request.description_length

def toJournalNumber (journalNumber : Int) : Int := journalNumber

def toAccount (account : String) : String := strip account

def toAsOfDate (asOf : Option Timestamp) : Option Timestamp := asOf

/-! ### Presenters -/

structure AccountData where
  code : String
  name : String
  category : AccountCategory
  normalBalance : NormalBalance
  deriving DecidableEq, Repr

structure JournalLineData where
  account : String
  debitAmount : Decimal
  creditAmount : Decimal
  deriving DecidableEq, Repr

structure JournalEntryData where
  journalNumber : Int
  postingDate : Timestamp
  description : Option String
  lines : List JournalLineData
  totalDebits : Decimal
  totalCredits : Decimal
  isBalanced : Bool
  deriving DecidableEq, Repr

structure PostingItem where
  account : String
  debitAmount : Option Decimal
  creditAmount : Option Decimal
  journalNumber : Int
  postingDate : Timestamp
  isDebit : Bool
  deriving DecidableEq, Repr

structure AccountBalanceItem where
  account : String
  debitTotal : Decimal
  creditTotal : Decimal
  deriving DecidableEq, Repr

structure TrialBalanceData where
  entries : List AccountBalanceItem
  asOfDate : Option Timestamp
  totalDebits : Decimal
  totalCredits : Decimal
  isBalanced : Bool
  deriving DecidableEq, Repr

/-- What the body of a successful response has besides its envelope. -/
inductive ResponseData where
  | account (account : AccountData)
  | chartOfAccounts (accounts : List AccountData)
  | deleteAccount (code : String)
  | journalEntry (entry : JournalEntryData)
  | journalEntries (entries : List JournalEntryData)
  | postingList (postings : List PostingItem)
  | trialBalance (report : TrialBalanceData)
  deriving DecidableEq, Repr

def toAccountData (viewModel : AccountViewModel) : AccountData where
  code := viewModel.code
  name := viewModel.name
  category := viewModel.category
  normalBalance := viewModel.normalBalance

def toAccountResponse (viewModel : AccountViewModel) : ResponseData :=
  .account (toAccountData viewModel)

def toChartOfAccountsResponse (viewModel : ChartOfAccountsViewModel) : ResponseData :=
  .chartOfAccounts (viewModel.accounts.map toAccountData)

def toDeleteAccountResponse (code : String) : ResponseData := .deleteAccount code

def toJournalLineData (line : JournalLineViewModel) : JournalLineData where
  account := line.account
  debitAmount := line.debitAmount
  creditAmount := line.creditAmount

def toJournalEntryData (viewModel : JournalViewModel) : JournalEntryData where
  journalNumber := viewModel.journalNumber
  postingDate := viewModel.postingDate
  description := viewModel.description
  lines := viewModel.lines.map toJournalLineData
  totalDebits := viewModel.totalDebits
  totalCredits := viewModel.totalCredits
  isBalanced := viewModel.isBalanced

def toJournalEntryResponse (viewModel : JournalViewModel) : ResponseData :=
  .journalEntry (toJournalEntryData viewModel)

def toJournalEntriesResponse (viewModels : List JournalViewModel) : ResponseData :=
  .journalEntries (viewModels.map toJournalEntryData)

def toPostingItem (viewModel : PostingViewModel) : PostingItem where
  account := viewModel.account
  debitAmount := viewModel.debitAmount
  creditAmount := viewModel.creditAmount
  journalNumber := viewModel.journalNumber
  postingDate := viewModel.postingDate
  isDebit := viewModel.isDebit

def toPostingListResponse (viewModels : List PostingViewModel) : ResponseData :=
  .postingList (viewModels.map toPostingItem)

def toAccountBalanceItem (entry : AccountBalanceEntry) : AccountBalanceItem where
  account := entry.account
  debitTotal := entry.debitTotal
  creditTotal := entry.creditTotal

/-- The totals are computed here, from the rows of the view. -/
def toTrialBalanceResponse (viewModel : TrialBalanceViewModel) : Except Raised ResponseData := do
  let totalDebits ← JournalService.computing viewModel.totalDebits
  let totalCredits ← JournalService.computing viewModel.totalCredits
  let isBalanced ← JournalService.computing viewModel.isBalanced
  return .trialBalance
    { entries := viewModel.entries.map toAccountBalanceItem, asOfDate := viewModel.asOfDate,
      totalDebits, totalCredits, isBalanced }

/-! ### Routes -/

/-- The actor of every write: requests carry no identity. -/
def preAuthActor : String := "system:pre-auth:api"

/-- A route with what FastAPI has read for it from the path, the query and the body. -/
inductive Route where
  | createAccount (request : CreateAccountRequest)
  | listAccounts
  | getAccount (code : String)
  | updateAccount (code : String) (request : UpdateAccountRequest)
  | deleteAccount (code : String)
  | createJournalEntry (request : CreateJournalEntryRequest)
  | listJournalEntries
  | getJournalEntry (journalNumber : Int)
  | postJournalEntry (journalNumber : Int) (positive : 0 < journalNumber)
  | getPostingsByAccount (account : String) (bounds : 2 ≤ account.length ∧ account.length ≤ 100)
  | getPostingsByJournalNumber (journalNumber : Int) (positive : 0 < journalNumber)
  | getTrialBalance (asOf : Option Timestamp)

/-- The status of a response that is not a failure. -/
def Route.statusCode : Route → Nat
  | .createAccount _ => 201
  | .createJournalEntry _ => 201
  | .postJournalEntry _ _ => 201
  | _ => 200

theorem Route.statusCode_lt (route : Route) : route.statusCode < 400 := by
  unfold Route.statusCode
  split <;> decide

def Route.program : Route → Action ResponseData
  | .createAccount request => do
    let dto := toCreateAccountInput request
    let viewModel ← AccountService.createAccount dto preAuthActor
    return toAccountResponse viewModel
  | .listAccounts => do
    let viewModel ← AccountService.listAccounts
    return toChartOfAccountsResponse viewModel
  | .getAccount code => do
    let viewModel ← AccountService.getAccount code
    return toAccountResponse viewModel
  | .updateAccount code request => do
    let dto ← toUpdateAccountInput code request
    let viewModel ← AccountService.updateAccount dto preAuthActor
    return toAccountResponse viewModel
  | .deleteAccount code => do
    AccountService.deleteAccount code preAuthActor
    return toDeleteAccountResponse code
  | .createJournalEntry request => do
    let dto := toCreateJournalInput request
    let viewModel ← JournalService.createJournalEntry dto preAuthActor
    return toJournalEntryResponse viewModel
  | .listJournalEntries => do
    let viewModels ← JournalService.listJournalEntries
    return toJournalEntriesResponse viewModels
  | .getJournalEntry journalNumber => do
    let viewModel ← JournalService.getJournalEntry journalNumber
    return toJournalEntryResponse viewModel
  | .postJournalEntry journalNumber _ => do
    let postings ← PostingService.postJournalEntry (toJournalNumber journalNumber) preAuthActor
    return toPostingListResponse postings
  | .getPostingsByAccount account _ => do
    let postings ← PostingService.getPostingsByAccount (toAccount account)
    return toPostingListResponse postings
  | .getPostingsByJournalNumber journalNumber _ => do
    let postings ← PostingService.getPostingsByJournalNumber (toJournalNumber journalNumber)
    return toPostingListResponse postings
  | .getTrialBalance asOf => do
    let viewModel ← TrialBalanceService.getTrialBalance (toAsOfDate asOf)
    toTrialBalanceResponse viewModel

/-! ### What a route does -/

/-- The call that a route makes, if it comes to it. -/
inductive Route.Calls : Route → Call → Prop where
  | createAccount {request : CreateAccountRequest} :
      Calls (.createAccount request)
        (.createAccount (toCreateAccountInput request) preAuthActor)
  | listAccounts : Calls .listAccounts .listAccounts
  | getAccount {code : String} : Calls (.getAccount code) (.getAccount code)
  | updateAccount {code : String} {request : UpdateAccountRequest} {dto : UpdateAccountInput}
      (mapped : toUpdateAccountInput code request = .ok dto) :
      Calls (.updateAccount code request) (.updateAccount dto preAuthActor)
  | deleteAccount {code : String} :
      Calls (.deleteAccount code) (.deleteAccount code preAuthActor)
  | createJournalEntry {request : CreateJournalEntryRequest} :
      Calls (.createJournalEntry request)
        (.createJournalEntry (toCreateJournalInput request) preAuthActor)
  | listJournalEntries : Calls .listJournalEntries .listJournalEntries
  | getJournalEntry {number : Int} : Calls (.getJournalEntry number) (.getJournalEntry number)
  | postJournalEntry {number : Int} {positive : 0 < number} :
      Calls (.postJournalEntry number positive) (.postJournalEntry number preAuthActor)
  | getPostingsByAccount {account : String}
      {bounds : 2 ≤ account.length ∧ account.length ≤ 100} :
      Calls (.getPostingsByAccount account bounds) (.getPostingsByAccount (strip account))
  | getPostingsByJournalNumber {number : Int} {positive : 0 < number} :
      Calls (.getPostingsByJournalNumber number positive) (.getPostingsByJournalNumber number)
  | getTrialBalance {asOf : Option Timestamp} :
      Calls (.getTrialBalance asOf) (.getTrialBalance asOf)

/-- The data of a response are those of the view. -/
inductive Route.Presents (route : Route) : Response → ResponseData → Prop where
  | account (view : AccountViewModel) : Presents route (.account view) (toAccountResponse view)
  | accounts (view : ChartOfAccountsViewModel) :
      Presents route (.accounts view) (toChartOfAccountsResponse view)
  | deleted {code : String} (own : route = .deleteAccount code) :
      Presents route .deleted (toDeleteAccountResponse code)
  | journal (view : JournalViewModel) :
      Presents route (.journal view) (toJournalEntryResponse view)
  | journals (views : List JournalViewModel) :
      Presents route (.journals views) (toJournalEntriesResponse views)
  | postings (views : List PostingViewModel) :
      Presents route (.postings views) (toPostingListResponse views)
  | trialBalance {view : TrialBalanceViewModel} {data : ResponseData}
      (presented : toTrialBalanceResponse view = .ok data) :
      Presents route (.trialBalance view) data

/-- A route that fails has committed nothing, and one that succeeds achieves what it presents. -/
def Route.Settled (route : Route) (steps : OwnSteps) (deeds : Deeds) :
    Except Raised ResponseData → Prop
  | .error _ => deeds.committed = []
  | .ok data => ∃ call response, route.Calls call ∧ call.Achieves steps response deeds ∧
      route.Presents response data

/-- The route of a call that cannot fail after it. -/
theorem Route.settles_of_call {route : Route} {call : Call} {Value : Type}
    {service : Action Value} {wrap : Value → Response} (calls : route.Calls call)
    (same : call.program = wrap <$> service) {present : Value → ResponseData}
    (presents : ∀ value, route.Presents (wrap value) (present value)) (steps : OwnSteps) :
    (service >>= fun value => (pure (present value) : Action ResponseData)).Conforms
      (call.ledgerOfDeeds steps) (route.Settled steps) .none := by
  have settles := call_settles call steps
  rw [same] at settles
  refine (Program.conforms_map_iff.mp settles).bind (fun deeds value achieves => ?_)
    fun deeds error nothing => ?_
  · exact Program.conforms_done ⟨call, wrap value, calls, achieves, presents value⟩
  · have none : deeds = .none := nothing
    exact none ▸ rfl

/-- The route of a report computes the totals after its call, which commits nothing. -/
theorem getTrialBalance_route_settles (asOf : Option Timestamp) (steps : OwnSteps) :
    (Route.getTrialBalance asOf).program.Conforms
      ((Call.getTrialBalance asOf).ledgerOfDeeds steps)
      ((Route.getTrialBalance asOf).Settled steps) .none := by
  have settles := Program.conforms_map_iff.mp (call_settles (.getTrialBalance asOf) steps)
  refine settles.bind (fun deeds view achieves => ?_) fun deeds error nothing => ?_
  · cases presented : toTrialBalanceResponse view with
    | error error => exact Program.conforms_done (achieves.committed_eq_nil id)
    | ok data =>
      exact Program.conforms_done ⟨_, _, .getTrialBalance, achieves, .trialBalance presented⟩
  · have none : deeds = .none := nothing
    exact none ▸ rfl

/-- Every route settles as it should, if its service is told what its steps are. -/
theorem route_settles (route : Route) (steps : OwnSteps) :
    ∃ call : Call, route.program.Conforms (call.ledgerOfDeeds steps) (route.Settled steps)
      .none := by
  cases route with
  | createAccount request => exact ⟨_, Route.settles_of_call .createAccount rfl .account steps⟩
  | listAccounts => exact ⟨_, Route.settles_of_call .listAccounts rfl .accounts steps⟩
  | getAccount code => exact ⟨_, Route.settles_of_call .getAccount rfl .account steps⟩
  | updateAccount code request =>
    cases mapped : toUpdateAccountInput code request with
    | error error =>
      refine ⟨.getChart, ?_⟩
      simp only [Route.program, mapped]
      exact Program.conforms_done rfl
    | ok dto =>
      refine ⟨.updateAccount dto preAuthActor, ?_⟩
      simp only [Route.program, mapped]
      exact Route.settles_of_call (.updateAccount mapped) rfl .account steps
  | deleteAccount code =>
    exact ⟨_, Route.settles_of_call .deleteAccount rfl (fun _ => .deleted rfl) steps⟩
  | createJournalEntry request =>
    exact ⟨_, Route.settles_of_call .createJournalEntry rfl .journal steps⟩
  | listJournalEntries =>
    exact ⟨_, Route.settles_of_call .listJournalEntries rfl .journals steps⟩
  | getJournalEntry number =>
    exact ⟨_, Route.settles_of_call .getJournalEntry rfl .journal steps⟩
  | postJournalEntry number positive =>
    exact ⟨_, Route.settles_of_call .postJournalEntry rfl .postings steps⟩
  | getPostingsByAccount account bounds =>
    exact ⟨_, Route.settles_of_call .getPostingsByAccount rfl .postings steps⟩
  | getPostingsByJournalNumber number positive =>
    exact ⟨_, Route.settles_of_call .getPostingsByJournalNumber rfl .postings steps⟩
  | getTrialBalance asOf => exact ⟨_, getTrialBalance_route_settles asOf steps⟩

end Trutina
