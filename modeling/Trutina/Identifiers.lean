/-
This file proves that a command acts on the one account that its identifier stands
for. An identifier is a code or a name, and no text is both: a code has digits only,
and a name starts with a letter. So at most one stored account has an identifier,
in every store that calls reach, and a command that finds, updates or deletes an
account shows or changes that account and no other.
-/

import Trutina.Atomicity
import Trutina.Commands

namespace Trutina

open Interaction

/-! ### Stored names -/

/-- Every stored name has the format of a name. -/
def World.NamesClean (world : World) : Prop :=
  ∀ row ∈ world.accounts, cleanAccountName row.name = some row.name

theorem handle_namesClean {call : Call} {command : Command} (issuable : call.Issuable command)
    {env : Env} {world : World} (clean : world.NamesClean) :
    (handle command env world).2.NamesClean := by
  cases command with
  | query query =>
    rw [handle_query_state]
    exact clean
  | nextval =>
    cases failed : env.fault <;> simp only [handle, failed] <;> exact clean
  | emit record => exact clean
  | transact transaction =>
    rcases handle_transact_cases transaction env world with still | ⟨after, applied, same⟩
    · rw [still]
      exact clean
    rw [same]
    cases issuable with
    | insertAccount account =>
      obtain ⟨_, _, rfl⟩ := insertAccount_ok applied
      intro row member
      rcases List.mem_append.mp member with stored | new
      · exact clean row stored
      · rw [List.mem_singleton.mp new]
        exact account.name_clean
    | updateAccount account =>
      rcases updateAccount_ok applied with ⟨_, rfl⟩ | ⟨_, _, rfl⟩
      · exact clean
      · intro row member
        rcases mem_overwriteAccounts.mp member with ⟨stored, _⟩ | ⟨before, stored, _, rfl⟩
        · exact clean row stored
        · rw [AccountModel.overwrite]
          split
          · exact clean before stored
          · exact account.name_clean
    | deleteAccount =>
      rw [deleteAccount_ok applied]
      exact fun row member => clean row (List.mem_of_mem_filter member)
    | insertJournal entry =>
      obtain ⟨_, _, _, _, rfl⟩ := insertJournal_ok applied
      exact clean
    | insertPostings postings =>
      obtain ⟨_, rfl⟩ := insertPostings_appends applied
      exact clean

/-! ### Identifiers -/

/-- The account has the identifier, as its code or as its name. -/
def AccountModel.IsNamed (row : AccountModel) (identifier : String) : Prop :=
  row.code = identifier ∨ accountLookupKey row.name = accountLookupKey identifier

/-- What holds of the first 128 characters holds of every one that is ASCII. -/
theorem forall_ascii (holds : Char → Prop) (each : ∀ code < 128, holds (Char.ofNat code))
    {character : Char} (ascii : character.toNat < 128) : holds character := by
  have own := each character.toNat ascii
  rwa [Char.ofNat_toNat] at own

theorem lowered_letter {character : Char} (ascii : character.toNat < 128) :
    character.isAlpha = true → character.toLower.isDigit = false := by
  refine forall_ascii
    (fun character => character.isAlpha = true → character.toLower.isDigit = false) ?_ ascii
  decide +kernel

theorem lowered_digit {character : Char} (ascii : character.toNat < 128) :
    character.isDigit = true → character.toLower = character := by
  refine forall_ascii
    (fun character => character.isDigit = true → character.toLower = character) ?_ ascii
  decide +kernel

theorem solid_digit {character : Char} (ascii : character.toNat < 128) :
    character.isDigit = true → isSpace character = false := by
  refine forall_ascii
    (fun character => character.isDigit = true → isSpace character = false) ?_ ascii
  decide +kernel

theorem code_digits {code : String} (format : accountCodePattern.fullmatch code.toList = true) :
    ∀ character ∈ code.toList, character.isDigit = true :=
  (Regex.fullmatch_iff.mp format).within
    (by simp [accountCodePattern, Regex.between, Regex.times, Regex.Within])

/-- A name is never looked up under a code. -/
theorem lookupKey_ne_of_code {code name : String}
    (format : accountCodePattern.fullmatch code.toList = true)
    (clean : cleanAccountName name = some name) :
    accountLookupKey name ≠ accountLookupKey code := by
  intro same
  have digits := code_digits format
  obtain ⟨_, matched⟩ := cleanAccountName_eq_some_iff.mp clean
  obtain ⟨left, right, split, letter, _⟩ := Regex.matches_append_iff.mp matched
  obtain ⟨first, rfl, alpha⟩ := Regex.matches_oneOf_iff.mp letter
  have folds : name.toList.flatMap foldCharacter = code.toList.flatMap foldCharacter :=
    String.ofList_injective same
  rw [split, List.singleton_append, List.flatMap_cons,
    foldCharacter_ascii (isAlpha_ascii alpha)] at folds
  cases codes : code.toList with
  | nil =>
    rw [codes] at folds
    cases folds
  | cons digit rest =>
    have isDigit := digits digit (codes ▸ List.mem_cons_self)
    rw [codes, List.flatMap_cons, foldCharacter_ascii (isDigit_ascii isDigit)] at folds
    have heads : first.toLower = digit.toLower := (List.cons.inj folds).1
    have still := lowered_letter (isAlpha_ascii alpha) alpha
    rw [heads, lowered_digit (isDigit_ascii isDigit) isDigit, isDigit] at still
    cases still

/-- The account is the only stored one with the identifier, and can be read. -/
structure World.Identifies (world : World) (identifier : String) (row : AccountModel)
    (account : Account) : Prop where
  stored : row ∈ world.accounts
  named : row.IsNamed identifier
  only : ∀ other ∈ world.accounts, other.IsNamed identifier → other = row
  rebuilt : PostgresAccountRepo.toDomain row = .ok account

section Lookup

variable {world after : World} {identifier : String} {permits : World → Command → Env → Prop}

/-- A rebuilt account has the code of its row, and a clean name as it is. -/
theorem toDomain_same {row : AccountModel} {account : Account}
    (clean : cleanAccountName row.name = some row.name)
    (rebuilt : PostgresAccountRepo.toDomain row = .ok account) :
    account.code = row.code ∧ account.name = row.name := by
  obtain ⟨code, ⟨cleaned, _⟩, _⟩ := Account.validate_eq_ok_iff.mp rebuilt
  rw [clean, Option.some.injEq] at cleaned
  exact ⟨code, cleaned.symm⟩

/-- An account that is found by its code has no other with the identifier beside it. -/
theorem identifies_of_code (identified : world.Identified) (clean : world.NamesClean)
    {row : AccountModel} {account : Account} (stored : row ∈ world.accounts)
    (own : row.code = identifier) (rebuilt : PostgresAccountRepo.toDomain row = .ok account) :
    world.Identifies identifier row account where
  stored := stored
  named := .inl own
  only := fun other member named => by
    rcases named with code | key
    · exact identified.eq_of_code member stored (code.trans own.symm)
    · have format := account.code_format
      rw [(toDomain_same (clean row stored) rebuilt).1, own] at format
      exact absurd key (lookupKey_ne_of_code format (clean other member))
  rebuilt := rebuilt

/-- An account that is found by its name in a chart has none beside it either. -/
theorem identifies_of_name (identified : world.Identified) (clean : world.NamesClean) {env : Env}
    {chart : ChartOfAccounts} {account : Account}
    (charted : fromRows PostgresAccountRepo.toDomain (Query.rows env world .allAccounts) =
      .ok chart.accounts) (found : chart.getByName identifier = some account) :
    ∃ row, world.Identifies identifier row account := by
  have arranged := env.arrangeAccounts_perm world.accounts
  have pairs := fromRows_eq_ok_iff.mp charted
  obtain ⟨listed, key⟩ := ChartOfAccounts.getByName_eq_some_iff.mp found
  obtain ⟨row, read, rebuilt⟩ := pairs.exists_left listed
  have stored := arranged.mem_iff.mp read
  obtain ⟨ownCode, ownName⟩ := toDomain_same (clean row stored) rebuilt
  refine ⟨row, stored, .inr (ownName ▸ key), fun other member named => ?_, rebuilt⟩
  obtain ⟨account', listed', rebuilt'⟩ := pairs.exists_right (arranged.mem_iff.mpr member)
  obtain ⟨code', name'⟩ := toDomain_same (clean other member) rebuilt'
  rcases named with code | key'
  · have format := account'.code_format
    rw [code', code] at format
    exact absurd key (lookupKey_ne_of_code format account.name_clean)
  · have found' : chart.getByName identifier = some account' :=
      ChartOfAccounts.getByName_eq_some_iff.mpr ⟨listed', name' ▸ key'⟩
    obtain rfl : account = account' := Option.some.inj (found.symm.trans found')
    exact identified.eq_of_code member stored (code'.symm.trans ownCode)

/-- What only reads leaves the store alone. -/
theorem runs_reads {Result : Type} {program : Action Result} {outcome : Except Raised Result}
    (issues : program.Issues Command.Reads)
    (runs : Runs handle permits program world outcome after) : after = world := by
  have followed : Runs handle permits (program >>= fun result =>
      (.done (.ok result) : Action Result)) world outcome after := by
    rwa [Program.bind_pure]
  rcases runs_reads_bind issues followed with stops | ⟨value, rest⟩
  · exact stops.still
  · exact (runs_done_iff.mp rest).2

theorem not_stops_ok {Result : Type} {result : Result} : ¬Stops world (.ok result) after := by
  intro stops
  obtain ⟨_, raised⟩ := stops.raises
  cases raised

theorem getAccount_runs (identified : world.Identified) (clean : world.NamesClean)
    {view : AccountViewModel}
    (runs : Runs handle permits (AccountService.getAccount identifier) world (.ok view) after) :
    ∃ row account, world.Identifies identifier row account ∧
      view = AccountService.toViewModel account := by
  rw [AccountService.getAccount] at runs
  rcases runs_getByCode_bind runs with stops | ⟨found, fromRow, runs⟩
  · exact absurd stops not_stops_ok
  rcases runs_lift_bind runs with stops | ⟨account, present, runs⟩
  · exact absurd stops not_stops_ok
  obtain ⟨row, stored, own, rebuilt⟩ := fromRow account (orRaise_eq_ok_iff.mp present)
  exact ⟨row, account, identifies_of_code identified clean stored own rebuilt,
    Except.ok.inj (runs_done_iff.mp runs).1⟩

theorem resolveAccount_runs (identified : world.Identified) (clean : world.NamesClean)
    {view : AccountViewModel}
    (runs : Runs handle permits (AccountService.resolveAccount identifier) world (.ok view)
      after) :
    ∃ row account, world.Identifies identifier row account ∧
      view = AccountService.toViewModel account := by
  simp only [AccountService.resolveAccount, AccountService.getChart, PostgresAccountRepo.listAll,
    bind_assoc] at runs
  rcases runs_execute_bind runs with stops | ⟨env, runs⟩
  · exact absurd stops not_stops_ok
  rcases runs_lift_bind runs with stops | ⟨accounts, charted, runs⟩
  · exact absurd stops not_stops_ok
  rcases runs_lift_bind runs with stops | ⟨chart, built, runs⟩
  · exact absurd stops not_stops_ok
  rcases runs_lift_bind runs with stops | ⟨account, present, runs⟩
  · exact absurd stops not_stops_ok
  rw [← ChartOfAccounts.validate_eq_ok_iff.mp built] at charted
  obtain ⟨row, identifies⟩ :=
    identifies_of_name identified clean charted (orRaise_eq_ok_iff.mp present)
  exact ⟨row, account, identifies, Except.ok.inj (runs_done_iff.mp runs).1⟩

theorem getAccountHandler_issues {commands : Command → Prop}
    (reads : ∀ query, commands (.query query)) (identifier : String) :
    (getAccountHandler identifier).Issues commands := by
  refine (AccountService.getAccount_issues reads identifier).catching fun error => ?_
  split
  · exact AccountService.resolveAccount_issues reads identifier
  · exact AccountService.resolveAccount_issues reads identifier
  · exact Program.issues_done _

/-- A lookup leaves the store alone, and returns the account that has the identifier. -/
theorem getAccountHandler_runs (identified : world.Identified) (clean : world.NamesClean)
    {view : AccountViewModel}
    (runs : Runs handle permits (getAccountHandler identifier) world (.ok view) after) :
    after = world ∧ ∃ row account, world.Identifies identifier row account ∧
      view = AccountService.toViewModel account := by
  refine ⟨runs_reads (getAccountHandler_issues (fun _ => trivial) identifier) runs, ?_⟩
  rcases runs_tryCatch runs with ⟨_, first, same⟩ | ⟨error, middle, first, second⟩
  · obtain rfl := Except.ok.inj same
    exact getAccount_runs identified clean first
  · obtain rfl := runs_reads (AccountService.getAccount_issues (fun _ => trivial) identifier) first
    split at second
    · exact resolveAccount_runs identified clean second
    · exact resolveAccount_runs identified clean second
    · cases (runs_done_iff.mp second).1

end Lookup

/-! ### Commands with an identifier -/

/-- The identifier that a command is given, or that is typed at its prompt. -/
def CliCommand.identifier (answers : List String) : CliCommand → Option String
  | .accountGet given => (givenOr promptAccountIdentifier answers given).toOption
  | .accountUpdate identifier _ _ => some identifier
  | .accountDelete identifier _ => some identifier
  | _ => none

/-- The command shows or changes this account, and leaves the others as they are. -/
inductive World.Concerns (world : World) (answers : List String) (row : AccountModel)
    (account : Account) : CliCommand → Shown → World → Prop where
  | get {given : Option String} :
      Concerns world answers row account (.accountGet given)
        (.account (AccountService.toViewModel account)) world
  | update {identifier : String} {name category : Option String} {dto : UpdateAccountInput}
      {updated : Account} {after : World}
      (entered : updateAccountInput answers (AccountService.toViewModel account) name category =
        .ok dto)
      (built : Account.validate account.code (dto.name.getD account.name)
        (dto.category.getD account.category) = .ok updated)
      (accounts : after.accounts = world.accounts.map fun other =>
        if other = row then ⟨row.id, row.code, updated.name, accountLookupKey updated.name,
          updated.category⟩ else other) :
      Concerns world answers row account (.accountUpdate identifier name category)
        (.account (AccountService.toViewModel updated)) after
  | delete {identifier : String} {yes : Bool} {after : World}
      (confirmed : deletionConfirmed answers yes = .ok true)
      (accounts : after.accounts = world.accounts.filter fun other => other.id != row.id) :
      Concerns world answers row account (.accountDelete identifier yes)
        (.deleted account.name) after

section Commands

variable {world after : World} {permits : World → Command → Env → Prop} {Value : Type}
  {value : Value}

theorem runs_of_call {handler : Action Value}
    (runs : Runs handle permits (CliState.call handler) world (.ok value) after) :
    Runs handle permits handler world (.ok value) after := by
  obtain ⟨own, runs, same⟩ := runs_mapError_iff.mp runs
  cases own with
  | error error => cases same
  | ok own =>
    obtain rfl := Except.ok.inj same
    exact runs

theorem runs_of_errorBoundary {body : CommandAction Value}
    (runs : Runs handle permits (errorBoundary body) world (.ok value) after) :
    Runs handle permits body world (.ok value) after := by
  obtain ⟨own, runs, same⟩ := runs_mapError_iff.mp runs
  cases own with
  | error error => cases same
  | ok own =>
    obtain rfl := Except.ok.inj same
    exact runs

/-- The code of a stored account has no blanks around it. -/
theorem strip_code (account : Account) : strip account.code = account.code := by
  have solid : ∀ character ∈ account.code.toList, isSpace character = false := by
    intro character member
    have digit := code_digits account.code_format character member
    exact solid_digit (isDigit_ascii digit) digit
  refine strip_of_trimmed ⟨fun first rest split => ?_, fun rest last split => ?_⟩
  · exact solid first (split ▸ List.mem_cons_self)
  · exact solid last (split ▸ List.mem_append_right rest (List.mem_singleton_self last))

theorem promptedValue_eq_ok {prompts : Prompting Value} {answers : List String}
    (entered : promptedValue prompts answers = .ok value) :
    ∃ rest, prompts answers = .ok (value, rest) := by
  rw [promptedValue] at entered
  cases prompted : prompts answers with
  | error stop =>
    rw [prompted] at entered
    cases entered
  | ok result =>
    rw [prompted] at entered
    exact ⟨result.2, congrArg (fun own => Except.ok (own, result.2)) (Except.ok.inj entered)⟩

/-- An update is of the account that was found. -/
theorem updateAccountInput_code {answers : List String} {current : AccountViewModel}
    {name category : Option String} {dto : UpdateAccountInput}
    (entered : updateAccountInput answers current name category = .ok dto) :
    dto.code = strip current.code := by
  have parsed : ∃ name category, parseUpdateAccount current.code name category = .ok dto := by
    unfold updateAccountInput at entered
    split at entered
    · obtain ⟨rest, prompted⟩ := promptedValue_eq_ok entered
      obtain ⟨name, _, _, prompted⟩ := Prompting.bind_eq_ok_iff.mp prompted
      obtain ⟨category, _, _, prompted⟩ := Prompting.bind_eq_ok_iff.mp prompted
      exact ⟨_, _, (Prompting.lift_eq_ok_iff.mp prompted).1⟩
    · exact ⟨_, _, entered⟩
  obtain ⟨name, category, parsed⟩ := parsed
  exact parseUpdateAccount_code parsed

/-- The account that an identifier stands for is the one that is stored under its code. -/
theorem World.Identifies.unique (identified : world.Identified) (clean : world.NamesClean)
    {identifier : String} {row other : AccountModel} {account : Account}
    (identifies : world.Identifies identifier row account) (member : other ∈ world.accounts)
    (own : other.code = account.code) : other = row := by
  have sameCode := (toDomain_same (clean row identifies.stored) identifies.rebuilt).1
  exact identified.eq_of_code member identifies.stored (own.trans sameCode)

/-- A write that returns has stored its change. -/
theorem stores_of_runs (sound : world.Sound) (identified : world.Identified) {call : Call}
    {response : Response} (runs : Runs handle permits call.program world (.ok response) after)
    (writes : call.Writes) :
    ∃ stored, call.Stores world response stored ∧ after.accounts = stored.accounts := by
  have settled := write_run sound writes runs
  cases settled with
  | stopped stops => exact absurd stops not_stops_ok
  | wrote named sends logs numbered applied =>
    exact ⟨_, sends.stores sound identified numbered applied, rfl⟩

theorem fetchAccount_runs (identified : world.Identified) (clean : world.NamesClean)
    {identifier : String} {view : AccountViewModel}
    (runs : Runs handle permits (fetchAccount identifier) world (.ok view) after) :
    after = world ∧ ∃ row account, world.Identifies identifier row account ∧
      view = AccountService.toViewModel account :=
  getAccountHandler_runs identified clean (runs_of_call (runs_of_errorBoundary runs))

/-- An update that succeeds has changed the account that it found. -/
theorem accountUpdate_runs (sound : world.Sound) (identified : world.Identified)
    (clean : world.NamesClean) {today : Timestamp} {answers : List String} {identifier : String}
    {name category : Option String} {shown : Shown}
    (runs : Runs handle permits
      ((CliCommand.accountUpdate identifier name category).program today answers) world (.ok shown)
      after) :
    ∃ row account, world.Identifies identifier row account ∧
      world.Concerns answers row account (.accountUpdate identifier name category) shown after := by
  obtain ⟨view, last, body, presented⟩ := runs_bind_ok runs
  obtain ⟨same, rfl⟩ := runs_done_iff.mp presented
  obtain ⟨current, _, found, rest⟩ := runs_bind_ok (runs_of_errorBoundary body)
  obtain ⟨rfl, row, account, identifies, rfl⟩ := fetchAccount_runs identified clean found
  obtain ⟨dto, middle, input, handled⟩ := runs_bind_ok rest
  obtain ⟨entered, rfl⟩ := runs_done_iff.mp input
  have wrote : Runs handle permits (Call.updateAccount dto cliActor).program middle
      (.ok (.account view)) after := (runs_of_call handled).map Response.account
  obtain ⟨stored, stores, accounts⟩ := stores_of_runs sound identified wrote trivial
  refine ⟨row, account, identifies, ?_⟩
  obtain rfl := Except.ok.inj same
  cases stores with
  | @updateAccount _ _ other existing updated member own rebuilt built =>
    have code : dto.code = account.code :=
      (updateAccountInput_code entered.symm).trans (strip_code account)
    obtain rfl : other = row := identifies.unique identified clean member (own.trans code)
    obtain rfl : existing = account := Except.ok.inj (rebuilt.symm.trans identifies.rebuilt)
    exact .update entered.symm built accounts

/-- A deletion that succeeds has deleted the account that it found. -/
theorem accountDelete_runs (sound : world.Sound) (identified : world.Identified)
    (clean : world.NamesClean) {today : Timestamp} {answers : List String} {identifier : String}
    {yes : Bool} {shown : Shown}
    (runs : Runs handle permits ((CliCommand.accountDelete identifier yes).program today answers)
      world (.ok shown) after) :
    ∃ row account, world.Identifies identifier row account ∧
      world.Concerns answers row account (.accountDelete identifier yes) shown after := by
  obtain ⟨current, _, found, rest⟩ := runs_bind_ok runs
  obtain ⟨rfl, row, account, identifies, rfl⟩ := fetchAccount_runs identified clean found
  obtain ⟨confirmed, middle, asked, rest⟩ := runs_bind_ok rest
  obtain ⟨agreed, rfl⟩ := runs_done_iff.mp asked
  cases confirmed with
  | false => cases (runs_done_iff.mp rest).1
  | true =>
    obtain ⟨_, last, handled, presented⟩ := runs_bind_ok rest
    obtain ⟨same, rfl⟩ := runs_done_iff.mp presented
    obtain rfl := Except.ok.inj same
    have wrote : Runs handle permits (Call.deleteAccount account.code cliActor).program middle
        (.ok .deleted) after :=
      (runs_of_call (runs_of_errorBoundary handled)).map fun _ => Response.deleted
    obtain ⟨stored, stores, accounts⟩ := stores_of_runs sound identified wrote trivial
    refine ⟨row, account, identifies, ?_⟩
    cases stores with
    | @deleteAccount _ _ other member own unposted =>
      obtain rfl : other = row := identifies.unique identified clean member own
      exact .delete agreed.symm accounts

end Commands

/-! ### One account -/

/-- In every store that calls reach, in any order of their steps, a command that succeeds shows or
changes the one account that its identifier stands for, and leaves every other as it is. -/
theorem identifier_concerns_one {Thread : Type} [DecidableEq Thread] (calls : Thread → Call)
    {start : World} (sound : start.Sound) (identified : start.Identified)
    (clean : start.NamesClean) {pool : Pool Thread Command Reply Raised Response World}
    (reaches : Reaches handle (fun _ _ _ _ => True)
      ⟨start, fun thread => (calls thread).program⟩ pool)
    {permits : World → Command → Env → Prop} {today : Timestamp} {answers : List String}
    {command : CliCommand} {identifier : String}
    (given : command.identifier answers = some identifier) {shown : Shown} {after : World}
    (runs : Runs handle permits (command.program today answers) pool.state (.ok shown) after) :
    ∃ row account, pool.state.Identifies identifier row account ∧
      pool.state.Concerns answers row account command shown after := by
  have soundPool := (pool_sound calls sound reaches).1.invariant
  have identifiedPool : pool.state.Identified :=
    reaches.keeps (fun _ _ command env _ => handle_identified) identified
  have cleanPool : pool.state.NamesClean :=
    reaches.keeps_issued (fun thread => call_issuable (calls thread))
      (fun _ _ _ _ issuable clean => handle_namesClean issuable clean) clean
  cases command with
  | accountGet own =>
    obtain ⟨name, middle, input, rest⟩ := runs_bind_ok runs
    obtain ⟨entered, rfl⟩ := runs_done_iff.mp input
    obtain rfl : name = identifier := by
      have typed : givenOr promptAccountIdentifier answers own = .ok name := entered.symm
      rw [CliCommand.identifier, typed] at given
      exact Option.some.inj given
    obtain ⟨view, last, found, presented⟩ := runs_bind_ok rest
    obtain ⟨same, rfl⟩ := runs_done_iff.mp presented
    obtain rfl := Except.ok.inj same
    obtain ⟨rfl, row, account, identifies, rfl⟩ :=
      fetchAccount_runs identifiedPool cleanPool found
    exact ⟨row, account, identifies, .get⟩
  | accountUpdate own name category =>
    obtain rfl := Option.some.inj given
    exact accountUpdate_runs soundPool identifiedPool cleanPool runs
  | accountDelete own yes =>
    obtain rfl := Option.some.inj given
    exact accountDelete_runs soundPool identifiedPool cleanPool runs
  | _ => cases given

/-- The deletion of an account by its name. -/
def cashDeletion : CliCommand := .accountDelete "CASH" true

theorem identifier_concerns_one_of_cash :
    ∃ row account shown after, sameCodePool.state.Identifies "CASH" row account ∧
      sameCodePool.state.Concerns [] row account cashDeletion shown after ∧
      (cashDeletion.program 0 []).run handle (fun _ => Env.calm 1700000000000000)
        sameCodePool.state = (.ok shown, after) := by
  have reaches : Reaches handle (fun _ _ _ _ => True)
      ⟨World.empty, fun thread => (sameCode thread).program⟩ sameCodePool :=
    reaches_execute_of_forall _ fun _ _ _ _ => trivial
  have clean : World.empty.NamesClean := fun _ member => absurd member List.not_mem_nil
  have runs : Runs handle (fun _ _ _ => True) (cashDeletion.program 0 []) sameCodePool.state _ _ :=
    runs_run (fun _ => Env.calm 1700000000000000) (fun _ _ _ => trivial) _ _
  have succeeds : ((cashDeletion.program 0 []).run handle (fun _ => Env.calm 1700000000000000)
      sameCodePool.state).1.toOption.isSome = true := by decide +kernel
  cases outcome : ((cashDeletion.program 0 []).run handle (fun _ => Env.calm 1700000000000000)
      sameCodePool.state).1 with
  | error stop =>
    rw [outcome] at succeeds
    cases succeeds
  | ok shown =>
    rw [outcome] at runs
    obtain ⟨row, account, identifies, concerns⟩ :=
      identifier_concerns_one sameCode empty_sound empty_identified clean reaches rfl runs
    exact ⟨row, account, shown, _, identifies, concerns, Prod.ext outcome rfl⟩

end Trutina
