/-
This file models accounts and the chart that holds them. An account can only be
built from a well-formed code and a cleaned name, and a chart only from accounts
whose codes and lookup keys do not repeat, so the two indexes of a chart resolve
every account of it. The inputs and views of the account service are here too.
-/

import Trutina.Errors
import Trutina.Rule

namespace Trutina

/-! ### Accounts -/

/-- How accounts are classified. -/
inductive AccountCategory where
  | asset
  | liability
  | equity
  | dividend
  | revenue
  | expense
  | drawing
  deriving DecidableEq, Repr

def AccountCategory.value : AccountCategory → String
  | .asset => "ASSET"
  | .liability => "LIABILITY"
  | .equity => "EQUITY"
  | .dividend => "DIVIDEND"
  | .revenue => "REVENUE"
  | .expense => "EXPENSE"
  | .drawing => "DRAWING"

/-- The side of the ledger on which an account increases. -/
inductive NormalBalance where
  | debit
  | credit
  deriving DecidableEq, Repr

def normalBalanceByCategory : AccountCategory → NormalBalance
  | .asset => .debit
  | .expense => .debit
  | .drawing => .debit
  | .liability => .credit
  | .equity => .credit
  | .revenue => .credit
  | .dividend => .credit

/-- 4 to 6 ASCII digits. -/
def accountCodePattern : Regex Char := Regex.between (.oneOf Char.isDigit) 4 2

/-- An account of the chart. -/
structure Account where
  code : String
  name : String
  category : AccountCategory
  code_format : accountCodePattern.fullmatch code.toList = true
  name_clean : cleanAccountName name = some name
  name_length : name.length ≤ 150
  deriving DecidableEq

/-- Rejects codes of another format, after the length bounds of the field. -/
def checkAccountCode (code : String) :
    Checked {code : String // accountCodePattern.fullmatch code.toList = true} :=
  match checkLength "code" 1 20 code with
  | .error details => .error details
  | .ok code =>
    if format : accountCodePattern.fullmatch code.toList = true then .ok ⟨code, format⟩
    else reject ErrorCode.invalidAccountCode.value "code" (.text code)

/-- Normalizes an account name. The length bounds are those of the raw text. -/
def checkAccountName (field : String) (least most : Nat) (value : String) :
    Checked {name : String // cleanAccountName name = some name ∧ name.length ≤ most} :=
  match lengths : checkLength field least most value with
  | .error details => .error details
  | .ok _ =>
    match clean : cleanAccountName value with
    | some name =>
      .ok ⟨name, cleanAccountName_idempotent clean,
        (cleanAccountName_length_le clean).trans (checkLength_eq_ok_iff.mp lengths).2.2⟩
    | none => reject ErrorCode.invalidAccountName.value field (.text value)

/-- Build an account from raw values. -/
def Account.validate (code name : String) (category : AccountCategory) :
    Except Raised Account :=
  Checked.raise <|
    ((checkAccountCode code).also (checkAccountName "name" 2 150 name)).map fun (code, name) =>
      { code := code.val, name := name.val, category, code_format := code.property,
        name_clean := name.property.1, name_length := name.property.2 }

/-- The normal balance is derived from the category. -/
def Account.normalBalance (account : Account) : NormalBalance :=
  normalBalanceByCategory account.category

theorem checkAccountCode_eq_ok_iff {code : String}
    {checked : {code : String // accountCodePattern.fullmatch code.toList = true}} :
    checkAccountCode code = .ok checked ↔ checked.val = code := by
  obtain ⟨result, format⟩ := checked
  have bounds := (Regex.matches_between_iff.mp (Regex.fullmatch_iff.mp format)).1
  rw [String.length_toList] at bounds
  unfold checkAccountCode
  split
  · rename_i details lengths
    simp only [reduceCtorEq, false_iff]
    rintro rfl
    rw [checkLength_eq_ok_iff.mpr ⟨rfl, by omega, by omega⟩] at lengths
    cases lengths
  · rename_i text lengths
    obtain ⟨rfl, _⟩ := checkLength_eq_ok_iff.mp lengths
    split
    · simp [eq_comm]
    · rename_i malformed
      simp only [reject, reduceCtorEq, false_iff]
      rintro rfl
      exact malformed format

theorem checkAccountName_eq_ok_iff {field value : String} {least most : Nat}
    {checked : {name : String // cleanAccountName name = some name ∧ name.length ≤ most}} :
    checkAccountName field least most value = .ok checked ↔
      cleanAccountName value = some checked.val ∧ least ≤ value.length ∧ value.length ≤ most := by
  unfold checkAccountName
  split
  · rename_i details lengths
    simp only [reduceCtorEq, false_iff, not_and]
    intro _ lower upper
    rw [checkLength_eq_ok_iff.mpr ⟨rfl, lower, upper⟩] at lengths
    cases lengths
  · rename_i text lengths
    obtain ⟨_, lower, upper⟩ := checkLength_eq_ok_iff.mp lengths
    split
    · rename_i name clean
      simp [clean, lower, upper, Subtype.ext_iff]
    · rename_i unclean
      simp [reject, unclean]

theorem Account.validate_eq_ok_iff {code name : String} {category : AccountCategory}
    {account : Account} : Account.validate code name category = .ok account ↔
      account.code = code ∧ (cleanAccountName name = some account.name ∧ 2 ≤ name.length ∧
        name.length ≤ 150) ∧ account.category = category := by
  rw [Account.validate, Checked.raise_eq_ok_iff, map_eq_ok_iff]
  constructor
  · rintro ⟨⟨checkedCode, checkedName⟩, checked, rfl⟩
    obtain ⟨codeOk, nameOk⟩ := Checked.also_eq_ok_iff.mp checked
    exact ⟨checkAccountCode_eq_ok_iff.mp codeOk, checkAccountName_eq_ok_iff.mp nameOk, rfl⟩
  · rintro ⟨rfl, nameOk, rfl⟩
    refine ⟨(⟨account.code, account.code_format⟩,
      ⟨account.name, account.name_clean, account.name_length⟩), ?_, rfl⟩
    exact Checked.also_eq_ok_iff.mpr ⟨checkAccountCode_eq_ok_iff.mpr rfl,
      checkAccountName_eq_ok_iff.mpr nameOk⟩

/-- An account with a name of two characters is rebuilt from its own values. -/
theorem Account.validate_self (account : Account) (long : 2 ≤ account.name.length) :
    Account.validate account.code account.name account.category = .ok account :=
  Account.validate_eq_ok_iff.mpr
    ⟨rfl, ⟨account.name_clean, long, account.name_length⟩, rfl⟩

/-! ### The chart of accounts -/

/-- Add an account to an index, refusing a key that is already taken. -/
def indexAccount (key : Account → String) (duplicate : ErrorCode)
    (index : List (String × Account)) (account : Account) :
    Except Raised (List (String × Account)) :=
  if (index.lookup (key account)).isSome then
    .error (.validationError [⟨duplicate.value, [], .model⟩])
  else .ok (index ++ [(key account, account)])

/-- Index accounts by a key. -/
def indexAccounts (key : Account → String) (duplicate : ErrorCode) (accounts : List Account) :
    Except Raised (List (String × Account)) :=
  accounts.foldlM (indexAccount key duplicate) []

/-- All accounts available for posting, with an index by code and one by lookup key. -/
structure ChartOfAccounts where
  accounts : List Account
  byCode : List (String × Account)
  byName : List (String × Account)
  codes_unique : indexAccounts Account.code .duplicateAccountCode accounts = .ok byCode
  names_unique : indexAccounts (fun account => accountLookupKey account.name)
    .duplicateAccountName accounts = .ok byName

/-- Build a chart. Duplicate codes are reported before duplicate names. -/
def ChartOfAccounts.validate (accounts : List Account) : Except Raised ChartOfAccounts :=
  match codes : indexAccounts Account.code .duplicateAccountCode accounts with
  | .error error => .error error
  | .ok byCode =>
    match names : indexAccounts (fun account => accountLookupKey account.name)
        .duplicateAccountName accounts with
    | .error error => .error error
    | .ok byName =>
      .ok { accounts, byCode, byName, codes_unique := codes, names_unique := names }

/-- Resolve an account by name. -/
def ChartOfAccounts.getByName (chart : ChartOfAccounts) (name : String) : Option Account :=
  chart.byName.lookup (accountLookupKey name)

/-- Resolve an account by code. -/
def ChartOfAccounts.getByCode (chart : ChartOfAccounts) (code : String) : Option Account :=
  chart.byCode.lookup code

theorem lookup_isSome_map {key : Account → String} {accounts : List Account} {text : String} :
    ((accounts.map fun account => (key account, account)).lookup text).isSome = true ↔
      text ∈ accounts.map key := by
  induction accounts with
  | nil => simp
  | cons account rest inductionHypothesis =>
    rw [List.map_cons, List.lookup_cons, List.map_cons, List.mem_cons]
    by_cases same : text = key account
    · simp [same]
    · rw [beq_false_of_ne same]
      simp only [inductionHypothesis, same, false_or]

/-- Accounts are indexed exactly when their keys do not repeat. -/
theorem indexAccounts_eq_ok_iff {key : Account → String} {duplicate : ErrorCode}
    {accounts : List Account} {index : List (String × Account)} :
    indexAccounts key duplicate accounts = .ok index ↔
      (accounts.map key).Nodup ∧ index = accounts.map fun account => (key account, account) := by
  have general : ∀ (rest done : List Account), (done.map key).Nodup →
      (rest.foldlM (indexAccount key duplicate)
        (done.map fun account => (key account, account)) = .ok index ↔
      ((done ++ rest).map key).Nodup ∧
        index = (done ++ rest).map fun account => (key account, account)) := by
    intro rest
    induction rest with
    | nil =>
      intro done distinct
      simp [distinct, eq_comm, pure, Except.pure]
    | cons account rest inductionHypothesis =>
      intro done distinct
      rw [List.foldlM_cons, indexAccount]
      by_cases taken : key account ∈ done.map key
      · rw [if_pos (lookup_isSome_map.mpr taken)]
        have repeated : ¬((done ++ account :: rest).map key).Nodup := by
          rw [List.map_append, List.nodup_append]
          rintro ⟨_, _, disjoint⟩
          exact disjoint _ taken _ (List.mem_map_of_mem List.mem_cons_self) rfl
        simp only [repeated, false_and, iff_false]
        rintro ⟨⟩
      · rw [if_neg (fun some => taken (lookup_isSome_map.mp some))]
        have longer : ((done ++ [account]).map key).Nodup := by
          rw [List.map_append, List.nodup_append]
          refine ⟨distinct, List.nodup_singleton _, ?_⟩
          rintro text member _ single rfl
          rw [List.map_singleton, List.mem_singleton] at single
          exact taken (single ▸ member)
        have tail := inductionHypothesis (done ++ [account]) longer
        rw [List.append_assoc, List.singleton_append] at tail
        rw [← tail, List.map_append, List.map_singleton]
        rfl
  exact general accounts [] List.nodup_nil

/-- A repeated key is the only error of indexing. -/
theorem indexAccounts_eq_error {key : Account → String} (duplicate : ErrorCode)
    {accounts : List Account} (repeated : ¬(accounts.map key).Nodup) :
    indexAccounts key duplicate accounts =
      .error (.validationError [⟨duplicate.value, [], .model⟩]) := by
  have general : ∀ (rest : List Account) (start : List (String × Account)) (error : Raised),
      rest.foldlM (indexAccount key duplicate) start = .error error →
        error = .validationError [⟨duplicate.value, [], .model⟩] := by
    intro rest
    induction rest with
    | nil =>
      rintro start error ⟨⟩
    | cons account rest inductionHypothesis =>
      intro start error failed
      rw [List.foldlM_cons, indexAccount] at failed
      split at failed
      · cases failed
        rfl
      · exact inductionHypothesis _ _ failed
  cases indexed : indexAccounts key duplicate accounts with
  | error error => rw [general accounts [] error indexed]
  | ok index => exact absurd (indexAccounts_eq_ok_iff.mp indexed).1 repeated

theorem ChartOfAccounts.validate_eq_ok_iff {accounts : List Account} {chart : ChartOfAccounts} :
    ChartOfAccounts.validate accounts = .ok chart ↔ chart.accounts = accounts := by
  unfold ChartOfAccounts.validate
  obtain ⟨held, byCode, byName, codesUnique, namesUnique⟩ := chart
  constructor
  · intro built
    split at built
    · cases built
    · split at built
      · cases built
      · simp only [Except.ok.injEq, mk.injEq] at built
        exact built.1.symm
  · rintro rfl
    split
    · rename_i error codes
      rw [codesUnique] at codes
      cases codes
    · rename_i found codes
      split
      · rename_i error names
        rw [namesUnique] at names
        cases names
      · rename_i found' names
        simp only [codesUnique, namesUnique, Except.ok.injEq] at codes names
        simp only [codes, names]

/-- A chart is built exactly from accounts whose codes and lookup keys do not repeat. -/
theorem ChartOfAccounts.validate_ok_iff {accounts : List Account} :
    (∃ chart, ChartOfAccounts.validate accounts = .ok chart) ↔
      (accounts.map Account.code).Nodup ∧
        (accounts.map fun account => accountLookupKey account.name).Nodup := by
  constructor
  · rintro ⟨chart, built⟩
    rw [ChartOfAccounts.validate_eq_ok_iff] at built
    subst built
    exact ⟨(indexAccounts_eq_ok_iff.mp chart.codes_unique).1,
      (indexAccounts_eq_ok_iff.mp chart.names_unique).1⟩
  · rintro ⟨codes, names⟩
    exact ⟨⟨accounts, _, _, indexAccounts_eq_ok_iff.mpr ⟨codes, rfl⟩,
      indexAccounts_eq_ok_iff.mpr ⟨names, rfl⟩⟩, ChartOfAccounts.validate_eq_ok_iff.mpr rfl⟩

theorem ChartOfAccounts.validate_codes_repeat {accounts : List Account}
    (codes : ¬(accounts.map Account.code).Nodup) :
    ChartOfAccounts.validate accounts =
      .error (.validationError [⟨ErrorCode.duplicateAccountCode.value, [], .model⟩]) := by
  have failed := indexAccounts_eq_error .duplicateAccountCode codes
  unfold ChartOfAccounts.validate
  split
  · rename_i error indexed
    rw [failed] at indexed
    rw [← Except.error.inj indexed]
  · rename_i index indexed
    rw [failed] at indexed
    cases indexed

theorem ChartOfAccounts.validate_names_repeat {accounts : List Account}
    (codes : (accounts.map Account.code).Nodup)
    (names : ¬(accounts.map fun account => accountLookupKey account.name).Nodup) :
    ChartOfAccounts.validate accounts =
      .error (.validationError [⟨ErrorCode.duplicateAccountName.value, [], .model⟩]) := by
  have failed := indexAccounts_eq_error .duplicateAccountName names
  unfold ChartOfAccounts.validate
  split
  · rename_i error indexed
    rw [indexAccounts_eq_ok_iff.mpr ⟨codes, rfl⟩] at indexed
    cases indexed
  · split
    · rename_i error indexed
      rw [failed] at indexed
      rw [← Except.error.inj indexed]
    · rename_i index indexed
      rw [failed] at indexed
      cases indexed

theorem lookup_map_eq_some_iff {key : Account → String} {accounts : List Account}
    (distinct : (accounts.map key).Nodup) {text : String} {account : Account} :
    (accounts.map fun account => (key account, account)).lookup text = some account ↔
      account ∈ accounts ∧ key account = text := by
  induction accounts with
  | nil => simp
  | cons head rest inductionHypothesis =>
    rw [List.map_cons, List.nodup_cons] at distinct
    rw [List.map_cons, List.lookup_cons, List.mem_cons]
    by_cases same : text = key head
    · subst same
      simp only [BEq.rfl]
      constructor
      · rintro ⟨⟩
        exact ⟨.inl rfl, rfl⟩
      · rintro ⟨rfl | member, equal⟩
        · rfl
        · exact absurd (equal ▸ List.mem_map_of_mem member) distinct.1
    · rw [beq_false_of_ne same]
      simp only [inductionHypothesis distinct.2]
      constructor
      · rintro ⟨member, equal⟩
        exact ⟨.inr member, equal⟩
      · rintro ⟨rfl | member, equal⟩
        · exact absurd equal.symm same
        · exact ⟨member, equal⟩

/-- A chart resolves a name to the one account of it with the same lookup key. -/
theorem ChartOfAccounts.getByName_eq_some_iff {chart : ChartOfAccounts} {name : String}
    {account : Account} : chart.getByName name = some account ↔
      account ∈ chart.accounts ∧ accountLookupKey account.name = accountLookupKey name := by
  obtain ⟨distinct, index⟩ := indexAccounts_eq_ok_iff.mp chart.names_unique
  rw [ChartOfAccounts.getByName, index, lookup_map_eq_some_iff distinct]

theorem ChartOfAccounts.getByCode_eq_some_iff {chart : ChartOfAccounts} {code : String}
    {account : Account} : chart.getByCode code = some account ↔
      account ∈ chart.accounts ∧ account.code = code := by
  obtain ⟨distinct, index⟩ := indexAccounts_eq_ok_iff.mp chart.codes_unique
  rw [ChartOfAccounts.getByCode, index, lookup_map_eq_some_iff distinct]

/-- The account is the only one of the list that has the property. -/
def IsOnly (accounts : List Account) (wanted : Account → Prop) (account : Account) : Prop :=
  (account ∈ accounts ∧ wanted account) ∧ ∀ other ∈ accounts, wanted other → other = account

/-- What resolves to just the accounts with a property resolves to the only one that has it. -/
theorem resolves_only {accounts : List Account} {wanted : Account → Prop} {found : Option Account}
    (finds : ∀ account, found = some account ↔ account ∈ accounts ∧ wanted account) :
    (∀ account, found = some account ↔ IsOnly accounts wanted account) ∧
      (found = none ↔ ∀ account ∈ accounts, ¬wanted account) := by
  refine ⟨fun account => ⟨fun some => ⟨(finds account).mp some, fun other member own => ?_⟩,
    fun only => (finds account).mpr only.1⟩, ⟨fun none account member own => ?_, fun without => ?_⟩⟩
  · exact Option.some.inj (((finds other).mpr ⟨member, own⟩).symm.trans some)
  · rw [(finds account).mpr ⟨member, own⟩] at none
    cases none
  · refine Option.eq_none_iff_forall_ne_some.mpr fun account some => ?_
    obtain ⟨member, own⟩ := (finds account).mp some
    exact without account member own

/-- A chart is built exactly from accounts whose codes and lookup keys do not repeat. Otherwise a
repeated code is reported, or a repeated name if no code repeats. A chart resolves a code to the
only account with that code and a name to the only account with its lookup key, and to nothing if
there is none. -/
theorem chartOfAccounts_unambiguous (accounts : List Account) :
    ((∃ chart, ChartOfAccounts.validate accounts = .ok chart) ↔
      (accounts.map Account.code).Nodup ∧
        (accounts.map fun account => accountLookupKey account.name).Nodup) ∧
    (¬(accounts.map Account.code).Nodup → ChartOfAccounts.validate accounts =
      .error (.validationError [⟨ErrorCode.duplicateAccountCode.value, [], .model⟩])) ∧
    ((accounts.map Account.code).Nodup →
      ¬(accounts.map fun account => accountLookupKey account.name).Nodup →
      ChartOfAccounts.validate accounts =
        .error (.validationError [⟨ErrorCode.duplicateAccountName.value, [], .model⟩])) ∧
    ∀ chart, ChartOfAccounts.validate accounts = .ok chart → ∀ query : String,
      ((∀ account, chart.getByCode query = some account ↔
          IsOnly accounts (fun account => account.code = query) account) ∧
        (chart.getByCode query = none ↔ ∀ account ∈ accounts, account.code ≠ query)) ∧
      (∀ account, chart.getByName query = some account ↔ IsOnly accounts
          (fun account => accountLookupKey account.name = accountLookupKey query) account) ∧
        (chart.getByName query = none ↔
          ∀ account ∈ accounts, accountLookupKey account.name ≠ accountLookupKey query) := by
  refine ⟨ChartOfAccounts.validate_ok_iff, ChartOfAccounts.validate_codes_repeat,
    ChartOfAccounts.validate_names_repeat, fun chart built query => ?_⟩
  obtain rfl := ChartOfAccounts.validate_eq_ok_iff.mp built
  exact ⟨resolves_only fun _ => ChartOfAccounts.getByCode_eq_some_iff,
    resolves_only fun _ => ChartOfAccounts.getByName_eq_some_iff⟩

/-! ### Inputs and views -/

/-- The input of account creation, as its length bounds admit it. -/
structure CreateAccountInput where
  code : String
  name : String
  category : AccountCategory
  code_length : 1 ≤ code.length ∧ code.length ≤ 20
  name_length : 2 ≤ name.length ∧ name.length ≤ 150
  deriving DecidableEq

/-- The input of an account update. Only the fields that are present are applied. -/
structure UpdateAccountInput where
  code : String
  name : Option String
  category : Option AccountCategory
  code_length : 1 ≤ code.length ∧ code.length ≤ 20
  name_length : ∀ given ∈ name, 2 ≤ given.length ∧ given.length ≤ 150
  deriving DecidableEq

/-- The input with these fields, where its bounds admit them. -/
def CreateAccountInput.accept (code name : String) (category : AccountCategory) :
    Option CreateAccountInput :=
  if bounds : (1 ≤ code.length ∧ code.length ≤ 20) ∧ 2 ≤ name.length ∧ name.length ≤ 150 then
    some ⟨code, name, category, bounds.1, bounds.2⟩
  else none

/-- The update with these fields, where its bounds admit them. -/
def UpdateAccountInput.accept (code : String) (name : Option String)
    (category : Option AccountCategory) : Option UpdateAccountInput :=
  if bounds : (1 ≤ code.length ∧ code.length ≤ 20) ∧
      ∀ given ∈ name, 2 ≤ given.length ∧ given.length ≤ 150 then
    some ⟨code, name, category, bounds.1, bounds.2⟩
  else none

/-- What callers see of an account. -/
structure AccountViewModel where
  code : String
  name : String
  category : AccountCategory
  normalBalance : NormalBalance
  deriving DecidableEq, Repr

/-- What callers see of a chart. -/
structure ChartOfAccountsViewModel where
  accounts : List AccountViewModel
  deriving DecidableEq, Repr

end Trutina
