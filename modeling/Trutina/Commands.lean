/-
This file models the commands of the command line. A command takes its input from
its options or from what is typed, hands it to a handler, and shows the view that
the handler returns. An account is found by its code or else by its name; an
update and a deletion find it first, and a deletion asks before it goes on. In
every interleaving of commands, what is shown has been achieved, and a command
that shows nothing has committed nothing, whatever it was stopped by.
-/

import Trutina.InputModes
import Trutina.Routes

namespace Trutina

open Interaction

/-- What a command does: it ends with what it shows, or is stopped. -/
abbrev CommandAction := Program Command Reply CommandStop

/-! ### Handlers -/

/-- The actor of every write: commands carry no identity. -/
def cliActor : String := "system:pre-auth:cli"

def createAccountHandler (dto : CreateAccountInput) : Action AccountViewModel :=
  AccountService.createAccount dto cliActor

/-- Only an account that is not found by its code is looked for by its name. -/
def getAccountHandler (identifier : String) : Action AccountViewModel :=
  tryCatch (AccountService.getAccount identifier) fun
    | .appError .unknownAccount _ => AccountService.resolveAccount identifier
    | .validationAppError .unknownAccount _ => AccountService.resolveAccount identifier
    | other => throw other

def listAccountsHandler : Action ChartOfAccountsViewModel := AccountService.listAccounts

def updateAccountHandler (dto : UpdateAccountInput) : Action AccountViewModel :=
  AccountService.updateAccount dto cliActor

def deleteAccountHandler (code : String) : Action Unit :=
  AccountService.deleteAccount code cliActor

def createJournalEntryHandler (dto : CreateJournalInput) : Action JournalViewModel :=
  JournalService.createJournalEntry dto cliActor

def getJournalEntryHandler (journalNumber : Int) : Action JournalViewModel :=
  JournalService.getJournalEntry journalNumber

def listJournalEntriesHandler : Action (List JournalViewModel) :=
  JournalService.listJournalEntries

def postJournalEntryHandler (journalNumber : Int) : Action (List PostingViewModel) :=
  PostingService.postJournalEntry journalNumber cliActor

def getPostingsByAccountHandler (account : String) : Action (List PostingViewModel) :=
  PostingService.getPostingsByAccount account

def getPostingsByJournalNumberHandler (journalNumber : Int) : Action (List PostingViewModel) :=
  PostingService.getPostingsByJournalNumber journalNumber

/-! ### The boundary -/

/-- Run a handler to its end. -/
def CliState.call {Value : Type} (handler : Action Value) : CommandAction Value :=
  handler.mapError .raised

/-- The errors that the boundary renders, before it exits. -/
def Raised.isRendered : Raised → Bool
  | .validationAppError _ _ => true
  | .appError _ _ => true
  | .validationError _ => true
  | .integrityError _ => false
  | .typeError => false
  | .overflow => false

def CommandStop.atBoundary : CommandStop → CommandStop
  | .raised error => if error.isRendered then .rendered error else .raised error
  | other => other

def errorBoundary {Value : Type} (body : CommandAction Value) : CommandAction Value :=
  body.mapError CommandStop.atBoundary

/-! ### Input -/

/-- What the prompts come to, when this is typed. -/
def promptedValue {Value : Type} (prompts : Prompting Value) (answers : List String) :
    Except CommandStop Value :=
  (prompts answers).map Prod.fst

/-- An argument, which is prompted for if it is not given. -/
def givenOr {Value : Type} (prompts : Prompting Value) (answers : List String) :
    Option Value → Except CommandStop Value
  | some value => .ok value
  | none => promptedValue prompts answers

/-- Either all options are given or none of them. -/
def createAccountInput (answers : List String) :
    Option String → Option String → Option String → Except CommandStop CreateAccountInput
  | none, none, none => promptedValue promptCreateAccount answers
  | some code, some name, some category => parseCreateAccount code name category
  | _, _, _ => .error (.badParameter ⟨"Either provide all required options " ++
      "(--code, --name, --category) or omit them all to use interactive mode."⟩)

/-- The code is that of the account that was found. -/
def updateAccountInput (answers : List String) (current : AccountViewModel) :
    Option String → Option String → Except CommandStop UpdateAccountInput
  | none, none =>
    promptedValue (promptUpdateAccount current.code current.name current.category) answers
  | name, category => parseUpdateAccount current.code name category

/-- The lines decide whether the options are used. -/
def createJournalInput (today : Timestamp) (answers : List String)
    (postingDate description : Option String) (line : List String) :
    Except CommandStop CreateJournalInput :=
  if line = [] then promptedValue (promptCreateJournal today) answers
  else journalOfOptions today postingDate line description

/-- Whether an account may be deleted, which is not asked with `--yes`. -/
def deletionConfirmed (answers : List String) (yes : Bool) : Except CommandStop Bool :=
  if yes then .ok true else promptedValue confirmAccountDeletion answers

def promptPostingAccount : Prompting String := do
  let raw ← ask none
  return strip raw

/-! ### Commands -/

/-- What a command shows. A report that is not empty is shown with its totals. -/
inductive Shown where
  | account (view : AccountViewModel)
  | accountList (view : ChartOfAccountsViewModel)
  | deleted (name : String)
  | journalEntry (view : JournalViewModel)
  | journalList (entries : List JournalViewModel)
  | postingsList (postings : List PostingViewModel) (title : String)
  | trialBalance (view : TrialBalanceViewModel) (totals : Option (Decimal × Decimal × Bool))

/-- A command with its options and arguments. -/
inductive CliCommand where
  | accountCreate (code name category : Option String)
  | accountGet (identifier : Option String)
  | accountList
  | accountUpdate (identifier : String) (name category : Option String)
  | accountDelete (identifier : String) (yes : Bool)
  | journalCreate (postingDate description : Option String) (line : List String)
  | journalGet (journalNumber : Option Int)
  | journalList
  | postingPost (journalNumber : Option Int)
  | postingGetByAccount (account : Option String)
  | postingGetByJournal (journalNumber : Option Int)
  | trialBalance (asOf : Option String)

def fetchAccount (identifier : String) : CommandAction AccountViewModel :=
  errorBoundary (CliState.call (getAccountHandler identifier))

def journalTitle (journalNumber : Int) : String :=
  "Postings for Journal Entry #" ++ toString journalNumber

def accountTitle (account : String) : String := "Postings for Account \"" ++ account ++ "\""

/-- The totals are computed here, from the rows of the view, unless it has none. -/
def showTrialBalance (view : TrialBalanceViewModel) : Except Raised Shown :=
  if view.entries = [] then .ok (.trialBalance view none)
  else do
    let isBalanced ← JournalService.computing view.isBalanced
    let totalDebits ← JournalService.computing view.totalDebits
    let totalCredits ← JournalService.computing view.totalCredits
    return .trialBalance view (some (totalDebits, totalCredits, isBalanced))

/-- What a command does on a day, when this is typed at its prompts. -/
def CliCommand.program (today : Timestamp) (answers : List String) :
    CliCommand → CommandAction Shown
  | .accountCreate code name category => do
    let view ← errorBoundary do
      let dto ← createAccountInput answers code name category
      CliState.call (createAccountHandler dto)
    return .account view
  | .accountGet identifier => do
    let identifier ← givenOr promptAccountIdentifier answers identifier
    let view ← fetchAccount identifier
    return .account view
  | .accountList => do
    let view ← errorBoundary (CliState.call listAccountsHandler)
    return .accountList view
  | .accountUpdate identifier name category => do
    let view ← errorBoundary do
      let current ← fetchAccount identifier
      let dto ← updateAccountInput answers current name category
      CliState.call (updateAccountHandler dto)
    return .account view
  | .accountDelete identifier yes => do
    let current ← fetchAccount identifier
    let confirmed ← deletionConfirmed answers yes
    if confirmed then
      errorBoundary (CliState.call (deleteAccountHandler current.code))
      return .deleted current.name
    else throw .declined
  | .journalCreate postingDate description line => do
    let view ← errorBoundary do
      let dto ← createJournalInput today answers postingDate description line
      CliState.call (createJournalEntryHandler dto)
    return .journalEntry view
  | .journalGet journalNumber => do
    let journalNumber ← givenOr promptJournalNumber answers journalNumber
    let view ← errorBoundary (CliState.call (getJournalEntryHandler journalNumber))
    return .journalEntry view
  | .journalList => do
    let entries ← errorBoundary (CliState.call listJournalEntriesHandler)
    return .journalList entries
  | .postingPost journalNumber => do
    let journalNumber ← givenOr promptJournalNumber answers journalNumber
    let postings ← errorBoundary (CliState.call (postJournalEntryHandler journalNumber))
    return .postingsList postings (journalTitle journalNumber)
  | .postingGetByAccount account => do
    let account ← givenOr promptPostingAccount answers account
    let postings ← errorBoundary (CliState.call (getPostingsByAccountHandler account))
    return .postingsList postings (accountTitle account)
  | .postingGetByJournal journalNumber => do
    let journalNumber ← givenOr promptJournalNumber answers journalNumber
    let postings ← errorBoundary
      (CliState.call (getPostingsByJournalNumberHandler journalNumber))
    return .postingsList postings (journalTitle journalNumber)
  | .trialBalance asOf => do
    let report ← (Trutina.trialBalance asOf).mapError CommandStop.badParameter
    let view ← errorBoundary (CliState.call report)
    (showTrialBalance view).mapError CommandStop.raised

/-- The status the process exits with. -/
def exitCode : Except CommandStop Shown → Nat
  | .ok _ => 0
  | .error .declined => 0
  | .error (.badParameter _) => 2
  | .error (.raised _) => 1
  | .error (.rendered _) => 1
  | .error .interrupted => 1

/-! ### What a command does -/

/-- The call that answers for an identifier: it is read as a code, and as a name only when no account
was stored under the code. -/
inductive OwnSteps.Identifies (steps : OwnSteps) (identifier : String) : Call → Prop where
  | code : Identifies steps identifier (.getAccount identifier)
  | name {now : Timestamp} (unused : steps.Answered (.accountsByCode identifier) [] now) :
      Identifies steps identifier (.resolveAccount identifier)

/-- The account that is fetched for an identifier. -/
def OwnSteps.Fetched (steps : OwnSteps) (identifier : String) (view : AccountViewModel) : Prop :=
  ∃ call, steps.Identifies identifier call ∧ call.Achieves steps (.account view) .none

section Does

variable (today : Timestamp) (answers : List String) (steps : OwnSteps)

/-- The call that a command makes, of the account that it has fetched for its identifier, the
response to it and what is shown of it. -/
inductive CliCommand.Does : CliCommand → Call → Response → Shown → Prop where
  | accountCreate {code name category : Option String} {dto : CreateAccountInput}
      {view : AccountViewModel}
      (entered : createAccountInput answers code name category = .ok dto) :
      Does (.accountCreate code name category) (.createAccount dto cliActor) (.account view)
        (.account view)
  | accountGet {given : Option String} {identifier : String} {view : AccountViewModel} {call : Call}
      (entered : givenOr promptAccountIdentifier answers given = .ok identifier)
      (finds : steps.Identifies identifier call) :
      Does (.accountGet given) call (.account view) (.account view)
  | accountList {view : ChartOfAccountsViewModel} :
      Does .accountList .listAccounts (.accounts view) (.accountList view)
  | accountUpdate {identifier : String} {name category : Option String}
      {current view : AccountViewModel} {dto : UpdateAccountInput}
      (fetched : steps.Fetched identifier current)
      (entered : updateAccountInput answers current name category = .ok dto) :
      Does (.accountUpdate identifier name category) (.updateAccount dto cliActor)
        (.account view) (.account view)
  | accountDelete {identifier : String} {yes : Bool} {current : AccountViewModel}
      (fetched : steps.Fetched identifier current)
      (confirmed : deletionConfirmed answers yes = .ok true) :
      Does (.accountDelete identifier yes) (.deleteAccount current.code cliActor) .deleted
        (.deleted current.name)
  | journalCreate {postingDate description : Option String} {line : List String}
      {dto : CreateJournalInput} {view : JournalViewModel}
      (entered : createJournalInput today answers postingDate description line = .ok dto) :
      Does (.journalCreate postingDate description line) (.createJournalEntry dto cliActor)
        (.journal view) (.journalEntry view)
  | journalGet {given : Option Int} {number : Int} {view : JournalViewModel}
      (entered : givenOr promptJournalNumber answers given = .ok number) :
      Does (.journalGet given) (.getJournalEntry number) (.journal view) (.journalEntry view)
  | journalList {views : List JournalViewModel} :
      Does .journalList .listJournalEntries (.journals views) (.journalList views)
  | postingPost {given : Option Int} {number : Int} {views : List PostingViewModel}
      (entered : givenOr promptJournalNumber answers given = .ok number) :
      Does (.postingPost given) (.postJournalEntry number cliActor) (.postings views)
        (.postingsList views (journalTitle number))
  | postingGetByAccount {given : Option String} {account : String} {views : List PostingViewModel}
      (entered : givenOr promptPostingAccount answers given = .ok account) :
      Does (.postingGetByAccount given) (.getPostingsByAccount account) (.postings views)
        (.postingsList views (accountTitle account))
  | postingGetByJournal {given : Option Int} {number : Int} {views : List PostingViewModel}
      (entered : givenOr promptJournalNumber answers given = .ok number) :
      Does (.postingGetByJournal given) (.getPostingsByJournalNumber number) (.postings views)
        (.postingsList views (journalTitle number))
  | trialBalance {asOf : Option String} {asOfDate : Option Timestamp} {view : TrialBalanceViewModel}
      {shown : Shown} (parsed : asOf.mapM parseAsOfDate = .ok asOfDate)
      (shows : showTrialBalance view = .ok shown) :
      Does (.trialBalance asOf) (.getTrialBalance asOfDate) (.trialBalance view) shown

/-- What is stopped has committed nothing, and what is not has achieved something. -/
def Accounts {Value : Type} (achieved : Value → Deeds → Prop) (deeds : Deeds) :
    Except CommandStop Value → Prop
  | .error _ => deeds.committed = []
  | .ok value => achieved value deeds

/-- A command that is stopped has committed nothing, and one that is not has achieved what it
shows. -/
def CliCommand.Settled (command : CliCommand) : Deeds → Except CommandStop Shown → Prop :=
  Accounts fun shown deeds => ∃ call response,
    command.Does today answers steps call response shown ∧ call.Achieves steps response deeds

end Does

/-! ### Rules for what is accounted for -/

section Rules

variable {Value Other : Type} {monitor : Monitor Command Reply Deeds} {deeds : Deeds}
  {achieved : Value → Deeds → Prop} {whole : Other → Deeds → Prop} {call other : Call}
  {steps : OwnSteps}

/-- Rendering an error does not change what has been done. -/
theorem conforms_errorBoundary {body : CommandAction Value}
    (conforms : body.Conforms monitor (Accounts achieved) deeds) :
    (errorBoundary body).Conforms monitor (Accounts achieved) deeds := by
  refine Program.conforms_mapError_iff.mpr (conforms.mono fun deeds outcome accounted => ?_)
  cases outcome with
  | error stop => exact accounted
  | ok value => exact accounted

theorem conforms_andThen {first : CommandAction Value} {second : Value → CommandAction Other}
    (conforms : first.Conforms monitor (Accounts achieved) deeds)
    (continues : ∀ deeds value, achieved value deeds →
      (second value).Conforms monitor (Accounts whole) deeds) :
    (first >>= second).Conforms monitor (Accounts whole) deeds :=
  conforms.bind continues fun _ _ nothing => nothing

/-- What only computes has done nothing. -/
theorem conforms_computed (computed : Except CommandStop Value) :
    (liftM computed : CommandAction Value).Conforms monitor
      (Accounts fun value deeds => computed = .ok value ∧ deeds = .none) .none := by
  cases computed with
  | error stop => exact Program.conforms_done rfl
  | ok value => exact Program.conforms_done ⟨rfl, rfl⟩

/-- Only whether a call writes decides what it may do. -/
theorem ledgerOfDeeds_congr (kind : call.Writes ↔ other.Writes) :
    call.ledgerOfDeeds steps = other.ledgerOfDeeds steps := by
  have same : call.mayDo = other.mayDo := by
    funext deeds command
    cases command with
    | transact transaction => exact propext (and_congr_left' kind)
    | emit record => exact propext (and_congr_right' (imp_congr_left kind))
    | query query => rfl
    | nextval => rfl
  rw [Call.ledgerOfDeeds, Call.ledgerOfDeeds, same]

/-- A handler of a call achieves what it returns. -/
theorem conforms_call (kind : call.Writes ↔ other.Writes) {handler : Action Value}
    {wrap : Value → Response} (same : call.program = wrap <$> handler) :
    (CliState.call handler).Conforms (other.ledgerOfDeeds steps)
      (Accounts fun value deeds => call.Achieves steps (wrap value) deeds) .none := by
  have settles := call_settles call steps
  rw [same, ledgerOfDeeds_congr kind] at settles
  refine Program.conforms_mapError_iff.mpr
    ((Program.conforms_map_iff.mp settles).mono fun deeds outcome settled => ?_)
  cases outcome with
  | error error =>
    have none : deeds = .none := settled
    exact none ▸ rfl
  | ok value => exact settled

/-- A handler that only reads has done nothing. -/
theorem conforms_learns {handler : Action Value} {learned : Value → Prop}
    (learns : Learns steps handler learned) :
    (errorBoundary (CliState.call handler)).Conforms (call.ledgerOfDeeds steps)
      (Accounts fun value deeds => deeds = .none ∧ learned value) .none := by
  refine (learns.mapError.mapError.conforms .none).mono fun deeds outcome holds => ?_
  cases outcome with
  | error stop =>
    obtain rfl := holds.1
    exact rfl
  | ok value => exact ⟨holds.1, holds.2 value rfl⟩

end Rules

/-! ### Every command is accounted for -/

theorem getAccountHandler_learns {steps : OwnSteps} (identifier : String) :
    Learns steps (getAccountHandler identifier) (steps.Fetched identifier) := by
  have resolved (unused : ∃ now, steps.Answered (.accountsByCode identifier) [] now) :
      Learns steps (AccountService.resolveAccount identifier) (steps.Fetched identifier) := by
    obtain ⟨now, unused⟩ := unused
    refine (AccountService.resolveAccount_learns identifier).mono ?_
    rintro _ ⟨chart, account, charted, found, rfl⟩
    exact ⟨_, .name unused, .resolveAccount charted found⟩
  refine (AccountService.getAccount_finds identifier).catching (fun _ view holds => ?_)
    fun _ error holds => ?_
  · obtain ⟨account, same, found⟩ | ⟨error, impossible, _⟩ := holds
    · obtain rfl := Except.ok.inj same
      rintro _ same
      obtain rfl := Except.ok.inj same
      exact ⟨_, .code, .getAccount found⟩
    · cases impossible
  · obtain ⟨account, impossible, _⟩ | ⟨own, same, unused⟩ := holds
    · cases impossible
    · obtain rfl := Except.error.inj same
      split
      · exact resolved (unused rfl)
      · exact resolved (unused rfl)
      · exact learns_done fun view raised => by cases raised

section Settles

variable {today : Timestamp} {answers : List String} {steps : OwnSteps} {command : CliCommand}
  {call other : Call}

/-- What shows the view that a handler returns. -/
theorem settles_of_handler {Value : Type} {handler : Action Value} {wrap : Value → Response}
    {present : Value → Shown}
    (does : ∀ value, command.Does today answers steps call (wrap value) (present value))
    (kind : call.Writes ↔ other.Writes) (same : call.program = wrap <$> handler) :
    (errorBoundary (CliState.call handler) >>= fun value =>
      (pure (present value) : CommandAction Shown)).Conforms (other.ledgerOfDeeds steps)
        (command.Settled today answers steps) .none :=
  conforms_andThen (conforms_errorBoundary (conforms_call kind same)) fun _ value achieves =>
    Program.conforms_done ⟨call, wrap value, does value, achieves⟩

/-- What comes after the input. -/
theorem settles_of_input {Input : Type} {input : Except CommandStop Input}
    {continuation : Input → CommandAction Shown}
    (rest : ∀ value, input = .ok value → (continuation value).Conforms (other.ledgerOfDeeds steps)
      (command.Settled today answers steps) .none) :
    ((liftM input : CommandAction Input) >>= continuation).Conforms (other.ledgerOfDeeds steps)
      (command.Settled today answers steps) .none := by
  refine conforms_andThen (conforms_computed input) fun deeds value computed => ?_
  obtain ⟨entered, rfl⟩ := computed
  exact rest value entered

/-- A handler with its input. -/
theorem conforms_entered {Value Input : Type} {input : Except CommandStop Input}
    {handler : Input → Action Value} {wrap : Value → Response} {calls : Input → Call}
    (kind : ∀ value, (calls value).Writes ↔ other.Writes)
    (same : ∀ value, (calls value).program = wrap <$> handler value) :
    ((liftM input : CommandAction Input) >>= fun entered =>
      CliState.call (handler entered)).Conforms (other.ledgerOfDeeds steps)
        (Accounts fun value deeds => ∃ entered, input = .ok entered ∧
          (calls entered).Achieves steps (wrap value) deeds) .none := by
  refine conforms_andThen (conforms_computed input) fun deeds entered computed => ?_
  obtain ⟨own, rfl⟩ := computed
  refine (conforms_call (kind entered) (same entered)).mono fun deeds outcome accounted => ?_
  cases outcome with
  | error stop => exact accounted
  | ok value => exact ⟨entered, own, accounted⟩

/-- What shows the view of a handler, when its input is behind the boundary too. -/
theorem settles_of_entered {Value Input : Type} {input : Except CommandStop Input}
    {handler : Input → Action Value} {wrap : Value → Response} {calls : Input → Call}
    {present : Value → Shown}
    (does : ∀ entered value, input = .ok entered →
      command.Does today answers steps (calls entered) (wrap value) (present value))
    (kind : ∀ value, (calls value).Writes ↔ other.Writes)
    (same : ∀ value, (calls value).program = wrap <$> handler value) :
    (errorBoundary ((liftM input : CommandAction Input) >>= fun entered =>
        CliState.call (handler entered)) >>= fun value =>
      (pure (present value) : CommandAction Shown)).Conforms (other.ledgerOfDeeds steps)
        (command.Settled today answers steps) .none := by
  refine conforms_andThen (conforms_errorBoundary (conforms_entered kind same))
    fun deeds value achieved => ?_
  obtain ⟨entered, own, achieves⟩ := achieved
  exact Program.conforms_done ⟨_, wrap value, does entered value own, achieves⟩

/-- A command that writes, and one that reads. -/
def writer : Call := .deleteAccount "" cliActor

def reader : Call := .getChart

theorem accountCreate_settles (code name category : Option String) :
    ((CliCommand.accountCreate code name category).program today answers).Conforms
      (writer.ledgerOfDeeds steps)
      ((CliCommand.accountCreate code name category).Settled today answers steps) .none :=
  settles_of_entered (fun _ _ entered => .accountCreate entered) (fun _ => Iff.rfl) fun _ => rfl

theorem journalCreate_settles (postingDate description : Option String) (line : List String) :
    ((CliCommand.journalCreate postingDate description line).program today answers).Conforms
      (writer.ledgerOfDeeds steps)
      ((CliCommand.journalCreate postingDate description line).Settled today answers steps)
      .none :=
  settles_of_entered (fun _ _ entered => .journalCreate entered) (fun _ => Iff.rfl) fun _ => rfl

theorem fetchAccount_conforms (identifier : String) :
    (fetchAccount identifier).Conforms (call.ledgerOfDeeds steps)
      (Accounts fun view deeds => deeds = .none ∧ steps.Fetched identifier view) .none :=
  conforms_learns (getAccountHandler_learns identifier)

theorem accountGet_settles (given : Option String) :
    ((CliCommand.accountGet given).program today answers).Conforms (reader.ledgerOfDeeds steps)
      ((CliCommand.accountGet given).Settled today answers steps) .none := by
  refine settles_of_input fun identifier entered => ?_
  refine conforms_andThen (fetchAccount_conforms identifier) fun deeds view fetched => ?_
  obtain ⟨rfl, call, finds, achieves⟩ := fetched
  exact Program.conforms_done ⟨call, .account view, .accountGet entered finds, achieves⟩

theorem accountUpdate_settles (identifier : String) (name category : Option String) :
    ((CliCommand.accountUpdate identifier name category).program today answers).Conforms
      (writer.ledgerOfDeeds steps)
      ((CliCommand.accountUpdate identifier name category).Settled today answers steps) .none := by
  have body : (fetchAccount identifier >>= fun current =>
      (liftM (updateAccountInput answers current name category) : CommandAction _) >>= fun dto =>
        CliState.call (updateAccountHandler dto)).Conforms (writer.ledgerOfDeeds steps)
          (Accounts fun view deeds => ∃ current dto, steps.Fetched identifier current ∧
            updateAccountInput answers current name category = .ok dto ∧
              (Call.updateAccount dto cliActor).Achieves steps (.account view) deeds) .none := by
    refine conforms_andThen (fetchAccount_conforms identifier) fun deeds current fetched => ?_
    obtain ⟨rfl, fetched⟩ := fetched
    have handled : ((liftM (updateAccountInput answers current name category) :
        CommandAction _) >>= fun dto => CliState.call (updateAccountHandler dto)).Conforms
          (writer.ledgerOfDeeds steps) (Accounts fun view deeds => ∃ dto,
            updateAccountInput answers current name category = .ok dto ∧
              (Call.updateAccount dto cliActor).Achieves steps (.account view) deeds) .none :=
      conforms_entered (fun _ => Iff.rfl) fun _ => rfl
    refine handled.mono fun deeds outcome accounted => ?_
    cases outcome with
    | error stop => exact accounted
    | ok view =>
      obtain ⟨dto, entered, achieves⟩ := accounted
      exact ⟨current, dto, fetched, entered, achieves⟩
  refine conforms_andThen (conforms_errorBoundary body) fun deeds view achieved => ?_
  obtain ⟨current, dto, fetched, entered, achieves⟩ := achieved
  exact Program.conforms_done ⟨_, .account view, .accountUpdate fetched entered, achieves⟩

theorem accountDelete_settles (identifier : String) (yes : Bool) :
    ((CliCommand.accountDelete identifier yes).program today answers).Conforms
      (writer.ledgerOfDeeds steps)
      ((CliCommand.accountDelete identifier yes).Settled today answers steps) .none := by
  refine conforms_andThen (fetchAccount_conforms identifier) fun deeds current fetched => ?_
  obtain ⟨rfl, fetched⟩ := fetched
  refine settles_of_input fun confirmed agreed => ?_
  cases confirmed with
  | false => exact Program.conforms_done rfl
  | true => exact settles_of_handler (fun _ => .accountDelete fetched agreed) Iff.rfl rfl

theorem trialBalance_settles (asOf : Option String) :
    ((CliCommand.trialBalance asOf).program today answers).Conforms (reader.ledgerOfDeeds steps)
      ((CliCommand.trialBalance asOf).Settled today answers steps) .none := by
  have cutoff : trialBalance asOf = (asOf.mapM parseAsOfDate).map getTrialBalanceHandler := by
    cases asOf with
    | none => rfl
    | some raw =>
      rw [trialBalance, Option.mapM_some]
      cases parseAsOfDate raw <;> rfl
  simp only [CliCommand.program, cutoff]
  cases parsed : asOf.mapM parseAsOfDate with
  | error usage => exact Program.conforms_done rfl
  | ok asOfDate =>
    have handled := conforms_errorBoundary (@conforms_call _ (.getTrialBalance asOfDate) reader
      steps Iff.rfl (getTrialBalanceHandler asOfDate) .trialBalance rfl)
    show (errorBoundary (CliState.call (getTrialBalanceHandler asOfDate)) >>= fun view =>
      (liftM ((showTrialBalance view).mapError CommandStop.raised) :
        CommandAction Shown)).Conforms _ _ _
    refine conforms_andThen handled fun deeds view achieves => ?_
    cases shows : showTrialBalance view with
    | error error => exact Program.conforms_done (achieves.committed_eq_nil id)
    | ok shown =>
      exact Program.conforms_done ⟨_, .trialBalance view, .trialBalance parsed shows, achieves⟩

/-- Every command settles as it should, if it is told what its steps are. -/
theorem command_settles (today : Timestamp) (answers : List String) (steps : OwnSteps)
    (command : CliCommand) : ∃ call : Call,
      (command.program today answers).Conforms (call.ledgerOfDeeds steps)
        (command.Settled today answers steps) .none := by
  cases command with
  | accountCreate code name category => exact ⟨writer, accountCreate_settles code name category⟩
  | accountGet given => exact ⟨reader, accountGet_settles given⟩
  | accountList => exact ⟨reader, settles_of_handler (fun _ => .accountList) Iff.rfl rfl⟩
  | accountUpdate identifier name category =>
    exact ⟨writer, accountUpdate_settles identifier name category⟩
  | accountDelete identifier yes => exact ⟨writer, accountDelete_settles identifier yes⟩
  | journalCreate postingDate description line =>
    exact ⟨writer, journalCreate_settles postingDate description line⟩
  | journalGet given =>
    exact ⟨reader, settles_of_input fun _ entered =>
      settles_of_handler (fun _ => .journalGet entered) Iff.rfl rfl⟩
  | journalList => exact ⟨reader, settles_of_handler (fun _ => .journalList) Iff.rfl rfl⟩
  | postingPost given =>
    exact ⟨writer, settles_of_input fun _ entered =>
      settles_of_handler (fun _ => .postingPost entered) Iff.rfl rfl⟩
  | postingGetByAccount given =>
    exact ⟨reader, settles_of_input fun _ entered =>
      settles_of_handler (fun _ => .postingGetByAccount entered) Iff.rfl rfl⟩
  | postingGetByJournal given =>
    exact ⟨reader, settles_of_input fun _ entered =>
      settles_of_handler (fun _ => .postingGetByJournal entered) Iff.rfl rfl⟩
  | trialBalance asOf => exact ⟨reader, trialBalance_settles asOf⟩

end Settles

/-! ### Commands in a run -/

section Runs

variable {Thread : Type} [DecidableEq Thread] {commands : Thread → CliCommand}
  {today : Thread → Timestamp} {answers : Thread → List String} {start : World}
  {permits : List (Move Thread Command Env World) →
    Pool Thread Command Reply CommandStop Shown World → Move Thread Command Env World → Prop}
  {trace : List (Move Thread Command Env World)}
  {pool : Pool Thread Command Reply CommandStop Shown World}

/-- In every run of commands, with any order of their steps, any failures and any commands given
up, a command commits at most once. What it shows has been achieved, and then it exits with zero. If
it is stopped it has committed nothing, and exits with zero just when it was declined. -/
theorem commands_accounted
    (walks : Walks handle permits
      ⟨start, fun thread => (commands thread).program (today thread) (answers thread)⟩ trace pool)
    (thread : Thread) :
    (deedsOf thread trace).committed.length ≤ 1 ∧
      (∀ shown, pool.threads thread = .done (.ok shown) → exitCode (.ok shown) = 0 ∧
        ∃ call response,
          (commands thread).Does (today thread) (answers thread) (stepsOf thread trace) call
            response shown ∧
          call.Achieves (stepsOf thread trace) response (deedsOf thread trace)) ∧
      ∀ stop, pool.threads thread = .done (.error stop) →
        (exitCode (.error stop) = 0 ↔ stop = .declined) ∧
          (deedsOf thread trace).committed = [] := by
  obtain ⟨call, conforms⟩ := command_settles (today thread) (answers thread)
    (stepsOf thread trace) (commands thread)
  have settled := walks.conforms (call.ledgerOfDeeds _) _ .none thread conforms
    (told_stepsOf thread)
  have fresh : Deeds.none.Orderly call :=
    ⟨Nat.zero_le _, Nat.zero_le _, fun _ => le_refl _, fun _ => rfl⟩
  have orderly : (deedsOf thread trace).Orderly call :=
    Walks.observes (fun _ deeds => deeds.Orderly call) fresh (fun _ _ _ _ orderly => orderly)
      (fun _ _ move _ orderly allowed => orderly.after allowed (move.reply handle)) conforms walks
      (told_stepsOf thread)
  refine ⟨orderly.once, fun shown ended => ?_, fun stop ended => ?_⟩
  · rw [ended] at settled
    exact ⟨rfl, settled.promised⟩
  · rw [ended] at settled
    refine ⟨?_, settled.promised⟩
    cases stop <;> simp [exitCode]

end Runs

/-- Two creations of one account by options. -/
def sameAccountCommands : Nat → CliCommand
  | 0 => .accountCreate (some "1000") (some "Cash") (some "asset")
  | 1 => .accountCreate (some "1000") (some "Bank") (some "Asset")
  | _ => .accountList

def sameAccountCommandsPool : Pool Nat Command Reply CommandStop Shown World :=
  Pool.execute handle sameCodeSchedule
    ⟨World.empty, fun thread => (sameAccountCommands thread).program 0 []⟩

/-- The first creation shows what it has committed, and the second is stopped. -/
theorem commands_accounted_of_sameAccount :
    ∃ (trace : List (Move Nat Command Env World)) (shown : Shown) (stop : CommandStop),
      sameAccountCommandsPool.threads 0 = .done (.ok shown) ∧
      (∃ call response, (sameAccountCommands 0).Does 0 [] (stepsOf 0 trace) call response shown ∧
        call.Achieves (stepsOf 0 trace) response (deedsOf 0 trace)) ∧
      sameAccountCommandsPool.threads 1 = .done (.error stop) ∧
      (deedsOf 1 trace).committed = [] := by
  have walks : Walks handle (fun _ _ _ => True)
      ⟨World.empty, fun thread => (sameAccountCommands thread).program 0 []⟩ _
        sameAccountCommandsPool :=
    Walks.refl.execute sameCodeSchedule (by decide +kernel)
  obtain ⟨shown, done⟩ := Program.succeeded_iff.mp
    (by decide +kernel : (sameAccountCommandsPool.threads 0).succeeded = true)
  obtain ⟨stop | shown', ended⟩ := Program.ended_iff.mp
    (by decide +kernel : (sameAccountCommandsPool.threads 1).ended = true)
  · obtain ⟨_, shows, _⟩ := commands_accounted walks 0
    obtain ⟨_, _, stops⟩ := commands_accounted walks 1
    exact ⟨_, shown, stop, done, (shows shown done).2, ended, (stops stop ended).2⟩
  · have failed : (sameAccountCommandsPool.threads 1).succeeded = false := by decide +kernel
    rw [ended] at failed
    cases failed

end Trutina
