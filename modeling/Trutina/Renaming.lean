/-
This file proves which renames of an account are refused. The service looks the
requested name up as it was given, before it is cleaned, and without leaving out
the account itself; the unique constraint compares the cleaned name with the
other rows only. So a name that another account has is refused in every
spelling, by one check or the other. But a rename that changes nothing except
the case of the account's own name is refused as well.
-/

import Trutina.Completion
import Trutina.Uniqueness

namespace Trutina

open Interaction

/-! ### An update that runs alone -/

section Run

variable {world : World} {envs : Nat → Env} {Other : Type}

theorem isSome_eq_any {found : Option AccountModel} {wanted : AccountModel → Prop}
    [DecidablePred wanted] (only : ∀ row, found = some row ↔ row ∈ world.accounts ∧ wanted row) :
    found.isSome = world.accounts.any fun row => decide (wanted row) := by
  rw [Bool.eq_iff_iff, Option.isSome_iff_exists, List.any_eq_true]
  simp only [only, decide_eq_true_eq]

/-- Looking a code up without a failure. -/
theorem run_existsByCode_bind (identified : world.Identified) (calm : (envs 0).fault = none)
    (code : String) {continuation : Bool → Action Other} :
    (PostgresAccountRepo.existsByCode code >>= continuation).run handle envs world =
      (continuation (world.accounts.any fun row => decide (row.code = code))).run handle
        (fun step => envs (step + 1)) world := by
  obtain ⟨found, single, only⟩ := scalarOneOrNone_arranged identified (envs 0)
    (fun _ left _ right => identified.eq_of_code left right) code
  unfold PostgresAccountRepo.existsByCode
  rw [bind_assoc, run_execute_bind calm]
  simp only [bind_assoc]
  refine (run_lift_bind_ok single).trans ?_
  rw [pure_bind, isSome_eq_any only]

/-- Looking a lookup key up without a failure. -/
theorem run_existsByName_bind (consistent : world.ChartConsistent) (calm : (envs 0).fault = none)
    (name : String) {continuation : Bool → Action Other} :
    (PostgresAccountRepo.existsByName name >>= continuation).run handle envs world =
      (continuation (world.accounts.any fun row =>
        decide (row.nameKey = accountLookupKey name))).run handle (fun step => envs (step + 1))
          world := by
  obtain ⟨found, single, only⟩ := scalarOneOrNone_arranged consistent.toIdentified (envs 0)
    (fun _ left _ right => consistent.eq_of_key left right) (accountLookupKey name)
  unfold PostgresAccountRepo.existsByName
  rw [bind_assoc, run_execute_bind calm]
  simp only [bind_assoc]
  refine (run_lift_bind_ok single).trans ?_
  rw [pure_bind, isSome_eq_any only]

/-- A transaction that a constraint refuses. -/
theorem run_commitOr_refused {transaction : Transaction} {onViolation : Option String → Raised}
    {continuation : Unit → Action Other} {constraint : String} (calm : (envs 0).fault = none)
    (refused : transaction.apply (envs 0) world = .error (.integrity constraint)) :
    (commitOr onViolation transaction >>= continuation).run handle envs world =
      (.error (onViolation (some constraint)), world) := by
  rw [commitOr_eq]
  simp only [Program.ask_bind, Program.run, handle, calm, refused]
  rfl

/-- The row of a code is loaded. -/
theorem run_load_bind (identified : world.Identified) {row : AccountModel}
    (member : row ∈ world.accounts) (calm : (envs 0).fault = none)
    {continuation : Option AccountModel → Action Other} :
    (PostgresAccountRepo.load row.code >>= continuation).run handle envs world =
      (continuation (some row)).run handle (fun step => envs (step + 1)) world := by
  obtain ⟨found, single, only⟩ := scalarOneOrNone_arranged identified (envs 0)
    (fun _ left _ right => identified.eq_of_code left right) row.code
  rw [(only row).mpr ⟨member, rfl⟩] at single
  unfold PostgresAccountRepo.load
  rw [bind_assoc, run_execute_bind calm]
  exact run_lift_bind_ok single

/-- Whether another row has a lookup key. -/
def World.KeyElsewhere (world : World) (row : AccountModel) (nameKey : String) : Prop :=
  ∃ other ∈ world.accounts, other.id ≠ row.id ∧ other.nameKey = nameKey

/-- The flush of a rename is refused when another row has the new key, and only then. -/
theorem rename_applied {row : AccountModel}
    (member : row ∈ world.accounts) (name : String) (category : AccountCategory)
    (audit : AuditEventModel) (env : Env)
    (free : ¬world.KeyElsewhere row (accountLookupKey name)) :
    ∃ after, (Transaction.updateAccount row name (accountLookupKey name) category audit).apply env
      world = .ok after := by
  have present : (world.accounts.all fun other => other.id != row.id) = false := by
    rw [List.all_eq_false]
    exact ⟨row, member, by simp⟩
  have alone : (world.accounts.any fun other =>
      other.id != row.id && other.nameKey == accountLookupKey name) = false := by
    rw [List.any_eq_false]
    intro other stored both
    rw [Bool.and_eq_true, bne_iff_ne, beq_iff_eq] at both
    exact free ⟨other, stored, both⟩
  simp only [Transaction.apply, present, alone, Bool.false_eq_true, and_false, if_false]
  split
  · exact ⟨_, rfl⟩
  · exact ⟨_, rfl⟩

theorem rename_refused (consistent : world.ChartConsistent) {row : AccountModel}
    (member : row ∈ world.accounts) (name : String) (category : AccountCategory)
    (audit : AuditEventModel) (env : Env)
    (taken : world.KeyElsewhere row (accountLookupKey name)) :
    (Transaction.updateAccount row name (accountLookupKey name) category audit).apply env world =
      .error (.integrity "uq_accounts_name_key") := by
  obtain ⟨other, stored, different, key⟩ := taken
  have changed : accountLookupKey name ≠ row.nameKey := by
    intro same
    exact different (congrArg AccountModel.id (consistent.eq_of_key stored member (key.trans same)))
  have present : (world.accounts.all fun other => other.id != row.id) = false := by
    rw [List.all_eq_false]
    exact ⟨row, member, by simp⟩
  have elsewhere : (world.accounts.any fun other =>
      other.id != row.id && other.nameKey == accountLookupKey name) = true := by
    rw [List.any_eq_true]
    exact ⟨other, stored, by simp [different, key]⟩
  simp only [Transaction.apply, present, elsewhere, changed, Bool.false_eq_true, if_false,
    false_and, and_false, ne_eq, not_false_eq_true, and_self, if_true]

/-- A rename that passed the service's check is decided by its flush. -/
theorem run_update_bind (consistent : world.ChartConsistent) {row : AccountModel}
    (member : row ∈ world.accounts) {updated : Account} (code : updated.code = row.code)
    {actor : String} (calm : ∀ step, (envs step).fault = none)
    {continuation : Unit → Action Other} :
    (world.KeyElsewhere row (accountLookupKey updated.name) ∧
      (PostgresAccountRepo.update updated actor >>= continuation).run handle envs world =
        (.error (AccountService.duplicateName updated.name), world)) ∨
    (¬world.KeyElsewhere row (accountLookupKey updated.name) ∧ ∃ after,
      (PostgresAccountRepo.update updated actor >>= continuation).run handle envs world =
        (continuation ()).run handle (fun step => envs (step + 2)) after) := by
  have loads : (PostgresAccountRepo.update updated actor >>= continuation).run handle envs world =
      (commitOr (PostgresAccountRepo.onDuplicate updated.code updated.name)
        (.updateAccount row updated.name (accountLookupKey updated.name) updated.category
          (auditRow .update updated.code actor)) >>= continuation).run handle
        (fun step => envs (step + 1)) world := by
    unfold PostgresAccountRepo.update
    rw [code, bind_assoc, run_load_bind consistent.toIdentified member (calm 0)]
  rw [loads]
  by_cases taken : world.KeyElsewhere row (accountLookupKey updated.name)
  · refine .inl ⟨taken, ?_⟩
    rw [run_commitOr_refused (calm 1) (rename_refused consistent member _ _ _ _ taken),
      PostgresAccountRepo.onDuplicate_name]
    rfl
  · obtain ⟨after, applied⟩ := rename_applied member updated.name updated.category
      (auditRow .update updated.code actor) (envs 1) taken
    exact .inr ⟨taken, after, run_commitOr_bind (calm 1) applied⟩

/-- What a rename that runs alone comes to: the check refuses the name as it was given, the flush
the cleaned one, and otherwise the account is renamed. -/
theorem updateAccount_outcome (consistent : world.ChartConsistent) {row : AccountModel}
    (member : row ∈ world.accounts) {account : Account}
    (rebuilt : PostgresAccountRepo.toDomain row = .ok account) {dto : UpdateAccountInput}
    (own : dto.code = row.code) {given name : String} (provides : dto.name = some given)
    (clean : cleanAccountName given = some name) {actor : String}
    (named : isNonBlankActor actor = true) (calm : ∀ step, (envs step).fault = none) :
    let outcome := ((AccountService.updateAccount dto actor).run handle envs world).1
    let looked := given ≠ account.name ∧
      ∃ other ∈ world.accounts, other.nameKey = accountLookupKey given
    (looked ∧ outcome = .error (AccountService.duplicateName given)) ∨
      (¬looked ∧ world.KeyElsewhere row (accountLookupKey name) ∧
        outcome = .error (AccountService.duplicateName name)) ∨
      (¬looked ∧ ¬world.KeyElsewhere row (accountLookupKey name) ∧
        ∃ view, outcome = .ok view) := by
  obtain ⟨code, _, category⟩ := Account.validate_eq_ok_iff.mp rebuilt
  obtain ⟨updated, built⟩ : ∃ updated, Account.validate account.code given
      (dto.category.getD account.category) = .ok updated :=
    ⟨⟨account.code, name, _, account.code_format, cleanAccountName_idempotent clean,
        (cleanAccountName_length_le clean).trans (dto.name_length given provides).2⟩,
      Account.validate_eq_ok_iff.mpr ⟨rfl, ⟨clean, dto.name_length given provides⟩, rfl⟩⟩
  obtain ⟨sameCode, ⟨sameName, _⟩, _⟩ := Account.validate_eq_ok_iff.mp built
  rw [clean] at sameName
  have sameName : name = updated.name := Option.some.inj sameName
  have translated : translating (Account.validate account.code given
      (dto.category.getD account.category)) = .ok updated := by
    rw [built]
    rfl
  have finds : orRaise (AccountService.unknownAccount dto.code) (some account) = .ok account := rfl
  -- What is left once the check has passed.
  have finishes : ∀ later : Nat → Env, (∀ step, (later step).fault = none) →
      ∀ outcome, outcome = (((liftM (translating (Account.validate account.code given
        (dto.category.getD account.category))) : Action Account) >>= fun updated =>
          PostgresAccountRepo.update updated actor >>= fun _ =>
            logInfo "account.updated" [("code", .text updated.code)] >>= fun _ =>
              (pure (AccountService.toViewModel updated) : Action AccountViewModel)).run handle
                later world).1 →
      (world.KeyElsewhere row (accountLookupKey name) ∧
        outcome = .error (AccountService.duplicateName name)) ∨
      (¬world.KeyElsewhere row (accountLookupKey name) ∧ ∃ view, outcome = .ok view) := by
    rintro later calm outcome rfl
    rw [run_lift_bind_ok translated, sameName]
    rcases run_update_bind consistent member (sameCode.trans code) calm with
      ⟨taken, refused⟩ | ⟨free, after, applied⟩
    · rw [refused]
      exact .inl ⟨taken, rfl⟩
    · rw [applied]
      exact .inr ⟨free, _, rfl⟩
  unfold AccountService.updateAccount
  rw [run_lift_bind_ok (requireActor_ok named), own,
    run_getByCode_bind consistent.toIdentified member rebuilt (calm 0)]
  rw [← own, run_lift_bind_ok finds, provides]
  simp only [Option.getD_some]
  by_cases same : given = account.name
  · refine .inr ?_
    have settled := finishes (fun step => envs (step + 1)) (fun step => calm (step + 1)) _ rfl
    rw [AccountService.nameTakenOnChange, if_pos same]
    rcases settled with ⟨taken, refused⟩ | ⟨free, view, renamed⟩
    · exact .inl ⟨fun looked => looked.1 same, taken, refused⟩
    · exact .inr ⟨fun looked => looked.1 same, free, view, renamed⟩
  · rw [AccountService.nameTakenOnChange, if_neg same,
      run_existsByName_bind consistent (calm 1)]
    cases taken : world.accounts.any fun other =>
        decide (other.nameKey = accountLookupKey given) with
    | true =>
      obtain ⟨other, stored, key⟩ := List.any_eq_true.mp taken
      exact .inl ⟨⟨same, other, stored, of_decide_eq_true key⟩, rfl⟩
    | false =>
      have unknown : ¬(given ≠ account.name ∧
          ∃ other ∈ world.accounts, other.nameKey = accountLookupKey given) := by
        rintro ⟨_, other, stored, key⟩
        rw [List.any_eq_false] at taken
        exact taken other stored (decide_eq_true key)
      refine .inr ?_
      rcases finishes (fun step => envs (step + 2)) (fun step => calm (step + 2)) _ rfl with
        ⟨elsewhere, refused⟩ | ⟨free, view, renamed⟩
      · exact .inl ⟨unknown, elsewhere, refused⟩
      · exact .inr ⟨unknown, free, view, renamed⟩

end Run

/-! ### Which renames are refused -/

/-- A rename of an account of a chart is refused as a duplicate exactly when another account has the
lookup key of the new name, and one that collides with the account's own name only succeeds. -/
def RefusedRightly (accounts : List Account) (account : Account) (name : String)
    (outcome : Except Raised AccountViewModel) : Prop :=
  ((∃ value, outcome = .error (AccountService.duplicateName value)) ↔
    ∃ other ∈ accounts, other.code ≠ account.code ∧
      accountLookupKey other.name = accountLookupKey name) ∧
  ((∀ other ∈ accounts, other.code ≠ account.code →
      accountLookupKey other.name ≠ accountLookupKey name) →
    accountLookupKey name = accountLookupKey account.name → ∃ view, outcome = .ok view)

section Charts

variable {world : World} {accounts : List Account}

/-- The rows of a chart are its accounts. -/
theorem keyElsewhere_iff (consistent : world.ChartConsistent)
    (charted : fromRows PostgresAccountRepo.toDomain world.accounts = .ok accounts)
    {row : AccountModel} (member : row ∈ world.accounts) (name : String) :
    world.KeyElsewhere row (accountLookupKey name) ↔
      ∃ other ∈ accounts, other.code ≠ row.code ∧
        accountLookupKey other.name = accountLookupKey name := by
  constructor
  · rintro ⟨other, stored, different, key⟩
    obtain ⟨account, present, rebuilt⟩ := mem_of_fromRows charted stored
    obtain ⟨code, sameName, _⟩ := consistent.toDomain_fields stored rebuilt
    refine ⟨account, present, fun same => ?_, ?_⟩
    · exact different (congrArg AccountModel.id
        (consistent.eq_of_code stored member (code.symm.trans same)))
    · rw [sameName, ← consistent.keyed other stored, key]
  · rintro ⟨account, present, different, key⟩
    obtain ⟨other, stored, rebuilt⟩ :=
      (fromRows_eq_ok_iff.mp charted).exists_left present
    obtain ⟨code, sameName, _⟩ := consistent.toDomain_fields stored rebuilt
    refine ⟨other, stored, fun same => ?_, ?_⟩
    · rw [code, consistent.eq_of_id stored member same] at different
      exact different rfl
    · rw [consistent.keyed other stored, ← sameName, key]

/-- A rename is decided rightly unless the name as given is another spelling of the account's own
name that differs in case only. -/
theorem updateAccount_refuses_iff (consistent : world.ChartConsistent)
    (charted : fromRows PostgresAccountRepo.toDomain world.accounts = .ok accounts)
    {account : Account} (present : account ∈ accounts) {dto : UpdateAccountInput}
    (own : dto.code = account.code) {given name : String} (provides : dto.name = some given)
    (clean : cleanAccountName given = some name) {actor : String}
    (named : isNonBlankActor actor = true) {envs : Nat → Env}
    (calm : ∀ step, (envs step).fault = none) :
    RefusedRightly accounts account name
        ((AccountService.updateAccount dto actor).run handle envs world).1 ↔
      ¬(given ≠ account.name ∧ accountLookupKey given = accountLookupKey account.name) := by
  obtain ⟨row, member, rebuilt⟩ :=
    (fromRows_eq_ok_iff.mp charted).exists_left present
  obtain ⟨code, sameName, _⟩ := consistent.toDomain_fields member rebuilt
  have ownKey : row.nameKey = accountLookupKey account.name := by
    rw [sameName, consistent.keyed row member]
  have elsewhere := keyElsewhere_iff consistent charted member name
  rw [← code] at elsewhere
  have outcomes := updateAccount_outcome consistent member rebuilt (own.trans code) provides clean
    named calm
  simp only at outcomes
  generalize ((AccountService.updateAccount dto actor).run handle envs world).1 = outcome at *
  unfold RefusedRightly
  rw [← elsewhere]
  constructor
  · rintro ⟨refused, renames⟩ ⟨different, sameKey⟩
    have looked : given ≠ account.name ∧
        ∃ other ∈ world.accounts, other.nameKey = accountLookupKey given :=
      ⟨different, row, member, ownKey.trans sameKey.symm⟩
    have unchanged : name = given := cleanAccountName_of_same_key clean account.name_clean sameKey
    rcases outcomes with ⟨_, raised⟩ | ⟨unlooked, _⟩ | ⟨unlooked, _⟩
    · obtain ⟨other, stored, apart, key⟩ := refused.mp ⟨given, raised⟩
      rw [unchanged, sameKey, ← ownKey] at key
      exact apart (congrArg AccountModel.id (consistent.eq_of_key stored member key))
    · exact unlooked looked
    · exact unlooked looked
  · intro plain
    have taken_of_looked : (given ≠ account.name ∧
        ∃ other ∈ world.accounts, other.nameKey = accountLookupKey given) →
          world.KeyElsewhere row (accountLookupKey name) := by
      rintro ⟨different, other, stored, key⟩
      have fixed := consistent.cleaned other stored
      rw [consistent.keyed other stored] at key
      have unchanged : name = given := cleanAccountName_of_same_key clean fixed key.symm
      refine ⟨other, stored, fun same => plain ⟨different, ?_⟩, ?_⟩
      · rw [← key, ← consistent.keyed other stored, consistent.eq_of_id stored member same, ownKey]
      · rw [consistent.keyed other stored, key, unchanged]
    rcases outcomes with ⟨looked, raised⟩ | ⟨_, taken, raised⟩ | ⟨_, free, view, renamed⟩
    · have taken := taken_of_looked looked
      refine ⟨⟨fun _ => taken, fun _ => ⟨given, raised⟩⟩, fun alone => ?_⟩
      obtain ⟨other, stored, apart, key⟩ := elsewhere.mp taken
      exact absurd key (alone other stored apart)
    · refine ⟨⟨fun _ => taken, fun _ => ⟨name, raised⟩⟩, fun alone => ?_⟩
      obtain ⟨other, stored, apart, key⟩ := elsewhere.mp taken
      exact absurd key (alone other stored apart)
    · refine ⟨⟨?_, fun taken => absurd taken free⟩, fun _ _ => ⟨view, renamed⟩⟩
      rintro ⟨value, raised⟩
      rw [renamed] at raised
      cases raised

end Charts

/-- In every run of account writes in which an update that changes the name but not the key finds
the key still stored, a rename that runs alone is refused as a duplicate exactly when another
account has the lookup key of the new name, unless the name as given differs from the account's own
in case only. Such a rename is refused, although no other account has the name. -/
theorem renames_refused_iff {Thread : Type} [DecidableEq Thread] (calls : Thread → Call)
    (writes : ∀ thread, (calls thread).WritesAccounts) {start : World}
    (consistent : start.ChartConsistent)
    {pool : Pool Thread Command Reply Raised Response World}
    (reaches : Reaches handle (fun world _ command _ => world.KeepsLookupKey command)
      ⟨start, fun thread => (calls thread).program⟩ pool) {accounts : List Account}
    (charted : fromRows PostgresAccountRepo.toDomain pool.state.accounts = .ok accounts)
    {account : Account} (present : account ∈ accounts) {dto : UpdateAccountInput}
    (own : dto.code = account.code) {given name : String} (provides : dto.name = some given)
    (clean : cleanAccountName given = some name) {actor : String}
    (named : isNonBlankActor actor = true) {envs : Nat → Env}
    (calm : ∀ step, (envs step).fault = none) :
    RefusedRightly accounts account name
        ((AccountService.updateAccount dto actor).run handle envs pool.state).1 ↔
      ¬(given ≠ account.name ∧ accountLookupKey given = accountLookupKey account.name) := by
  have valid : (Pool.mk start fun thread => (calls thread).program).Valid handle
      uniquenessRegime (fun _ : Thread => uniquenessTask) :=
    ⟨consistent, fun thread => uniqueness_valid (writes thread) start⟩
  have holds : pool.state.ChartConsistent := (Reaches.valid valid reaches).1.invariant
  exact updateAccount_refuses_iff holds charted present own provides clean named calm

/-- Two accounts. -/
def pettyCreations : Nat → Call
  | 0 => .createAccount ((CreateAccountInput.accept "1000" "Cash" .asset).get (.refl true)) "alice"
  | _ => .createAccount ((CreateAccountInput.accept "2000" "Bank" .asset).get (.refl true)) "alice"

/-- They are created in turn. -/
def pettyPool : Pool Nat Command Reply Raised Response World :=
  Pool.execute handle
    (([0, 0, 0, 0, 1, 1, 1, 1] : List Nat).map fun thread => (thread, Env.calm 1700000000000000))
    ⟨World.empty, fun thread => (pettyCreations thread).program⟩

theorem pettyCreations_write (thread : Nat) : (pettyCreations thread).WritesAccounts := by
  rcases thread with _ | thread
  · exact trivial
  · exact trivial

theorem cash_format : accountCodePattern.fullmatch "1000".toList = true := by decide +kernel

theorem cash_clean : cleanAccountName "Cash" = some "Cash" := by decide +kernel

theorem cash_length : "Cash".length ≤ 150 := by decide

def cashAccount : Account := ⟨"1000", "Cash", .asset, cash_format, cash_clean, cash_length⟩

theorem bank_format : accountCodePattern.fullmatch "2000".toList = true := by decide +kernel

theorem bank_clean : cleanAccountName "Bank" = some "Bank" := by decide +kernel

def bankAccount : Account := ⟨"2000", "Bank", .asset, bank_format, bank_clean, cash_length⟩

/-- A rename to another account's name is refused, however it is typed. -/
theorem renames_refused_in_another_spelling :
    RefusedRightly [cashAccount, bankAccount] bankAccount "CASH"
      ((AccountService.updateAccount ((UpdateAccountInput.accept "2000" (some " CASH")
        none).get (.refl true)) "alice").run handle (fun _ => Env.calm 1700000000000000)
          pettyPool.state).1 := by
  refine (renames_refused_iff pettyCreations pettyCreations_write empty_chartConsistent
    (reaches_execute _ (by decide +kernel)) (by decide +kernel)
    (List.mem_cons_of_mem _ (List.mem_singleton_self _)) rfl rfl (by decide +kernel)
    (by decide +kernel) (fun _ => rfl)).mpr (by decide +kernel)

/-- A rename that changes the case of a name is refused, although no other account has it. -/
theorem renames_refused_to_own_name :
    ∃ pool, Reaches handle (fun _ _ _ env => env.fault = none)
        ⟨World.empty, fun thread => (pettyCreations thread).program⟩ pool ∧
      fromRows PostgresAccountRepo.toDomain pool.state.accounts =
        .ok [cashAccount, bankAccount] ∧
      ¬RefusedRightly [cashAccount, bankAccount] cashAccount "CASH"
        ((AccountService.updateAccount ((UpdateAccountInput.accept "1000" (some "CASH")
          none).get (.refl true)) "alice").run handle (fun _ => Env.calm 1700000000000000)
            pool.state).1 := by
  refine ⟨pettyPool,
    reaches_execute_of_forall _ (List.forall_mem_map.mpr fun _ _ _ _ => rfl),
    by decide +kernel, ?_⟩
  rintro ⟨⟨refused, _⟩, _⟩
  obtain ⟨other, member, different, key⟩ := refused ⟨"CASH", by decide +kernel⟩
  rcases List.mem_cons.mp member with rfl | member
  · exact different rfl
  · rw [List.mem_singleton.mp member] at key
    exact absurd key (by decide +kernel)

end Trutina
