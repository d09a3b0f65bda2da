/-
This file says once what each account transaction does to the committed state
and when a constraint refuses it, and reduces the validity of the three account
writes to their write transactions. The checks before a write read states that
may be outdated when it commits, so nothing is assumed of their answers.
-/

import Trutina.Reasoning

namespace Trutina

open Interaction

/-! ### What the transactions do -/

section Transactions

variable {env : Env} {world after : World} {code name nameKey : String}
  {category : AccountCategory} {audit : AuditEventModel} {loaded : AccountModel}
  {constraint : String}

/-- An account is inserted when neither its code nor its lookup key is stored. -/
theorem insertAccount_ok
    (applied : (Transaction.insertAccount code name nameKey category audit).apply env world =
      .ok after) :
    (∀ row ∈ world.accounts, row.code ≠ code) ∧ (∀ row ∈ world.accounts, row.nameKey ≠ nameKey) ∧
      after = { world with
        accounts := world.accounts ++ [⟨world.nextAccountId, code, name, nameKey, category⟩]
        nextAccountId := world.nextAccountId + 1
        auditEvents := world.auditEvents ++ [audit] } := by
  simp only [Transaction.apply] at applied
  split at applied
  · cases applied
  · rename_i codeFree
    split at applied
    · cases applied
    · rename_i keyFree
      have keyFree' : (world.accounts.any fun row => row.nameKey == nameKey) = false :=
        Bool.eq_false_iff.mpr keyFree
      simp only [keyFree', Bool.false_and, Bool.not_false, Bool.and_true] at codeFree
      refine ⟨fun row member same => codeFree ?_, fun row member same => keyFree ?_,
        (Except.ok.inj applied).symm⟩
      · exact List.any_eq_true.mpr ⟨row, member, beq_iff_eq.mpr same⟩
      · exact List.any_eq_true.mpr ⟨row, member, beq_iff_eq.mpr same⟩

/-- A refused insertion names a constraint that a stored row does violate. -/
theorem insertAccount_refused
    (applied : (Transaction.insertAccount code name nameKey category audit).apply env world =
      .error (.integrity constraint)) :
    (constraint = "uq_accounts_code" ∧ ∃ row ∈ world.accounts, row.code = code) ∨
      (constraint = "uq_accounts_name_key" ∧ ∃ row ∈ world.accounts, row.nameKey = nameKey) := by
  simp only [Transaction.apply] at applied
  split at applied
  · rename_i codeTaken
    obtain ⟨row, member, same⟩ := List.any_eq_true.mp (Bool.and_eq_true_iff.mp codeTaken).1
    refine .inl ⟨?_, row, member, beq_iff_eq.mp same⟩
    exact (SqlError.integrity.inj (Except.error.inj applied)).symm
  · split at applied
    · rename_i keyTaken
      obtain ⟨row, member, same⟩ := List.any_eq_true.mp keyTaken
      refine .inr ⟨?_, row, member, beq_iff_eq.mp same⟩
      exact (SqlError.integrity.inj (Except.error.inj applied)).symm
    · cases applied

/-- The accounts after the row with the id of the loaded one is overwritten. -/
def overwriteAccounts (loaded : AccountModel) (name nameKey : String) (category : AccountCategory)
    (accounts : List AccountModel) : List AccountModel :=
  accounts.map fun row =>
    if row.id = loaded.id then loaded.overwrite name nameKey category row else row

/-- An update that changes nothing is recorded without a look at the table. Any other needs the
loaded row to be stored still, and a changed lookup key to be free. -/
theorem updateAccount_ok
    (applied : (Transaction.updateAccount loaded name nameKey category audit).apply env world =
      .ok after) :
    ((name = loaded.name ∧ nameKey = loaded.nameKey ∧ category = loaded.category) ∧
      after = { world with auditEvents := world.auditEvents ++ [audit] }) ∨
    ((∃ row ∈ world.accounts, row.id = loaded.id) ∧
      (nameKey ≠ loaded.nameKey →
        ∀ row ∈ world.accounts, row.id ≠ loaded.id → row.nameKey ≠ nameKey) ∧
      after = { world with
        accounts := overwriteAccounts loaded name nameKey category world.accounts
        auditEvents := world.auditEvents ++ [audit] }) := by
  simp only [Transaction.apply] at applied
  split at applied
  · rename_i unchanged
    exact .inl ⟨unchanged, (Except.ok.inj applied).symm⟩
  · split at applied
    · cases applied
    · rename_i present
      split at applied
      · cases applied
      · rename_i free
        refine .inr ⟨?_, fun changed row member other same => free ⟨changed, ?_⟩,
          (Except.ok.inj applied).symm⟩
        · by_contra absent
          refine present (List.all_eq_true.mpr fun row member => bne_iff_ne.mpr fun same => ?_)
          exact absent ⟨row, member, same⟩
        · refine List.any_eq_true.mpr ⟨row, member, ?_⟩
          exact Bool.and_eq_true_iff.mpr ⟨bne_iff_ne.mpr other, beq_iff_eq.mpr same⟩

/-- A refused update meets another row that has the new lookup key. -/
theorem updateAccount_refused
    (applied : (Transaction.updateAccount loaded name nameKey category audit).apply env world =
      .error (.integrity constraint)) :
    constraint = "uq_accounts_name_key" ∧ nameKey ≠ loaded.nameKey ∧
      ∃ row ∈ world.accounts, row.id ≠ loaded.id ∧ row.nameKey = nameKey := by
  simp only [Transaction.apply] at applied
  split at applied
  · cases applied
  · split at applied
    · cases applied
    · split at applied
      · rename_i taken
        obtain ⟨row, member, both⟩ := List.any_eq_true.mp taken.2
        obtain ⟨other, same⟩ := Bool.and_eq_true_iff.mp both
        refine ⟨?_, taken.1, row, member, bne_iff_ne.mp other, beq_iff_eq.mp same⟩
        exact (SqlError.integrity.inj (Except.error.inj applied)).symm
      · cases applied

theorem deleteAccount_ok
    (applied : (Transaction.deleteAccount loaded audit).apply env world = .ok after) :
    after = { world with
      accounts := world.accounts.filter fun row => row.id != loaded.id
      auditEvents := world.auditEvents ++ [audit] } :=
  (Except.ok.inj applied).symm

theorem deleteAccount_not_refused {error : SqlError} :
    (Transaction.deleteAccount loaded audit).apply env world ≠ .error error := nofun

end Transactions

@[simp] theorem overwrite_id (loaded row : AccountModel) (name nameKey : String)
    (category : AccountCategory) : (loaded.overwrite name nameKey category row).id = row.id := rfl

@[simp] theorem overwrite_code (loaded row : AccountModel) (name nameKey : String)
    (category : AccountCategory) : (loaded.overwrite name nameKey category row).code = row.code :=
  rfl

/-- An update keeps what no column of it changes. -/
theorem map_overwriteAccounts {Value : Type} {loaded : AccountModel} {name nameKey : String}
    {category : AccountCategory} {accounts : List AccountModel} {field : AccountModel → Value}
    (keeps : ∀ row, field (loaded.overwrite name nameKey category row) = field row) :
    (overwriteAccounts loaded name nameKey category accounts).map field = accounts.map field := by
  rw [overwriteAccounts, List.map_map]
  refine List.map_congr_left fun row _ => ?_
  simp only [Function.comp_apply]
  split
  · exact keeps row
  · rfl

theorem mem_overwriteAccounts {loaded row : AccountModel} {name nameKey : String}
    {category : AccountCategory} {accounts : List AccountModel} :
    row ∈ overwriteAccounts loaded name nameKey category accounts ↔
      (row ∈ accounts ∧ row.id ≠ loaded.id) ∨
        ∃ before ∈ accounts, before.id = loaded.id ∧
          row = loaded.overwrite name nameKey category before := by
  rw [overwriteAccounts, List.mem_map]
  constructor
  · rintro ⟨before, member, rfl⟩
    by_cases same : before.id = loaded.id
    · rw [if_pos same]
      exact .inr ⟨before, member, same, rfl⟩
    · rw [if_neg same]
      exact .inl ⟨member, same⟩
  · rintro (⟨member, other⟩ | ⟨before, member, same, rfl⟩)
    · exact ⟨row, member, if_neg other⟩
    · exact ⟨before, member, if_pos same⟩

/-! ### The identity of a row -/

/-- Ids are not reused, and a row keeps its code. -/
structure World.KeepsCodes (before after : World) : Prop where
  sequence : before.nextAccountId ≤ after.nextAccountId
  same : ∀ row ∈ after.accounts, row.id < before.nextAccountId →
    ∃ old ∈ before.accounts, old.id = row.id ∧ old.code = row.code

namespace World.KeepsCodes

variable {first second third : World}

theorem refl (world : World) : world.KeepsCodes world :=
  ⟨Nat.le_refl _, fun row member _ => ⟨row, member, rfl, rfl⟩⟩

theorem trans (left : first.KeepsCodes second) (right : second.KeepsCodes third) :
    first.KeepsCodes third := by
  refine ⟨left.sequence.trans right.sequence, fun row member early => ?_⟩
  obtain ⟨middle, member', sameId, sameCode⟩ :=
    right.same row member (Nat.lt_of_lt_of_le early left.sequence)
  obtain ⟨old, member'', sameId', sameCode'⟩ := left.same middle member' (sameId ▸ early)
  exact ⟨old, member'', sameId'.trans sameId, sameCode'.trans sameCode⟩

/-- Only the accounts and their sequence matter. -/
theorem of_eq (accounts : second.accounts = first.accounts)
    (sequence : second.nextAccountId = first.nextAccountId) : first.KeepsCodes second :=
  ⟨sequence.ge, fun row member _ => ⟨row, accounts ▸ member, rfl, rfl⟩⟩

theorem insert {env : Env} {code name nameKey : String} {category : AccountCategory}
    {audit : AuditEventModel}
    (applied : (Transaction.insertAccount code name nameKey category audit).apply env first =
      .ok second) : first.KeepsCodes second := by
  obtain ⟨_, _, rfl⟩ := insertAccount_ok applied
  refine ⟨Nat.le_succ _, fun row member early => ?_⟩
  rcases List.mem_append.mp member with stored | new
  · exact ⟨row, stored, rfl, rfl⟩
  · rw [List.mem_singleton.mp new] at early
    exact absurd early (Nat.lt_irrefl _)

theorem update {env : Env} {loaded : AccountModel} {name nameKey : String}
    {category : AccountCategory} {audit : AuditEventModel}
    (applied : (Transaction.updateAccount loaded name nameKey category audit).apply env first =
      .ok second) : first.KeepsCodes second := by
  rcases updateAccount_ok applied with ⟨_, rfl⟩ | ⟨_, _, rfl⟩
  · exact .of_eq rfl rfl
  · refine ⟨Nat.le_refl _, fun row member _ => ?_⟩
    rcases mem_overwriteAccounts.mp member with ⟨stored, _⟩ | ⟨before, stored, _, rfl⟩
    · exact ⟨row, stored, rfl, rfl⟩
    · exact ⟨before, stored, rfl, rfl⟩

theorem delete {env : Env} {loaded : AccountModel} {audit : AuditEventModel}
    (applied : (Transaction.deleteAccount loaded audit).apply env first = .ok second) :
    first.KeepsCodes second := by
  rw [deleteAccount_ok applied]
  exact ⟨Nat.le_refl _, fun row member _ => ⟨row, List.mem_of_mem_filter member, rfl, rfl⟩⟩

end World.KeepsCodes

/-! ### Ids and codes -/

/-- Codes and ids are distinct, and no id is taken from the sequence ahead of it. -/
structure World.Identified (world : World) : Prop where
  ids : (world.accounts.map AccountModel.id).Nodup
  fresh : ∀ row ∈ world.accounts, row.id < world.nextAccountId
  codes : (world.accounts.map AccountModel.code).Nodup

theorem empty_identified : World.empty.Identified where
  ids := List.nodup_nil
  fresh := nofun
  codes := List.nodup_nil

/-- A field stays distinct when a row with a fresh value is appended. -/
theorem nodup_map_append {Value : Type} {field : AccountModel → Value} {row : AccountModel}
    {rows : List AccountModel} (distinct : (rows.map field).Nodup)
    (free : ∀ other ∈ rows, field other ≠ field row) : ((rows ++ [row]).map field).Nodup := by
  rw [List.map_append, List.map_singleton, List.nodup_append]
  refine ⟨distinct, List.nodup_singleton _, fun value member other single => ?_⟩
  obtain ⟨stored, present, rfl⟩ := List.mem_map.mp member
  rw [List.mem_singleton.mp single]
  exact free stored present

namespace World.Identified

variable {world after : World}

/-- Only the accounts and their sequence matter. -/
theorem congr (identified : world.Identified) (accounts : after.accounts = world.accounts)
    (sequence : after.nextAccountId = world.nextAccountId) : after.Identified where
  ids := accounts ▸ identified.ids
  fresh := by
    rw [accounts, sequence]
    exact identified.fresh
  codes := accounts ▸ identified.codes

/-- Rows are told apart by their ids. -/
theorem eq_of_id (identified : world.Identified) {first second : AccountModel}
    (left : first ∈ world.accounts) (right : second ∈ world.accounts)
    (same : first.id = second.id) : first = second :=
  List.inj_on_of_nodup_map identified.ids left right same

theorem eq_of_code (identified : world.Identified) {first second : AccountModel}
    (left : first ∈ world.accounts) (right : second ∈ world.accounts)
    (same : first.code = second.code) : first = second :=
  List.inj_on_of_nodup_map identified.codes left right same

/-- A row with the id of a row loaded earlier has its code. -/
theorem code_of_id {second : World} (earlier : second.Identified)
    (kept : second.KeepsCodes world) {loaded row : AccountModel}
    (stored : loaded ∈ second.accounts) (member : row ∈ world.accounts)
    (same : row.id = loaded.id) : row.code = loaded.code := by
  obtain ⟨old, present, sameId, sameCode⟩ :=
    kept.same row member (same ▸ earlier.fresh loaded stored)
  rw [← sameCode, earlier.eq_of_id present stored (sameId.trans same)]

theorem insert (identified : world.Identified) {code name nameKey : String}
    {category : AccountCategory} {audit : AuditEventModel} {env : Env}
    (applied : (Transaction.insertAccount code name nameKey category audit).apply env world =
      .ok after) : after.Identified := by
  obtain ⟨codeFree, _, rfl⟩ := insertAccount_ok applied
  refine ⟨nodup_map_append identified.ids fun other present => ?_, fun row member => ?_,
    nodup_map_append identified.codes codeFree⟩
  · exact Nat.ne_of_lt (identified.fresh other present)
  · rcases List.mem_append.mp member with stored | new
    · exact Nat.lt_succ_of_lt (identified.fresh row stored)
    · rw [List.mem_singleton.mp new]
      exact Nat.lt_succ_self _

theorem update (identified : world.Identified) {loaded : AccountModel} {name nameKey : String}
    {category : AccountCategory} {audit : AuditEventModel} {env : Env}
    (applied : (Transaction.updateAccount loaded name nameKey category audit).apply env world =
      .ok after) : after.Identified := by
  rcases updateAccount_ok applied with ⟨_, rfl⟩ | ⟨_, _, rfl⟩
  · exact identified.congr rfl rfl
  · refine ⟨?_, fun row member => ?_, ?_⟩
    · rw [map_overwriteAccounts fun _ => rfl]
      exact identified.ids
    · rcases mem_overwriteAccounts.mp member with ⟨stored, _⟩ | ⟨before, stored, _, rfl⟩
      · exact identified.fresh row stored
      · exact identified.fresh before stored
    · rw [map_overwriteAccounts fun _ => rfl]
      exact identified.codes

theorem delete (identified : world.Identified) {loaded : AccountModel} {audit : AuditEventModel}
    {env : Env} (applied : (Transaction.deleteAccount loaded audit).apply env world = .ok after) :
    after.Identified := by
  rw [deleteAccount_ok applied]
  have kept : (world.accounts.filter fun row => row.id != loaded.id).Sublist world.accounts :=
    List.filter_sublist
  exact ⟨identified.ids.sublist (kept.map _), fun row member => identified.fresh row
    (kept.subset member), identified.codes.sublist (kept.map _)⟩

end World.Identified

/-! ### What the reads return -/

theorem scalarOneOrNone_eq_some {Row : Type} {rows : List Row} {row : Row}
    (found : scalarOneOrNone rows = .ok (some row)) : rows = [row] := by
  match rows with
  | [] => cases found
  | [only] => rw [Option.some.inj (Except.ok.inj found)]
  | _ :: _ :: _ => cases found

theorem mem_of_accountsByCode {env : Env} {world : World} {code : String} {row : AccountModel}
    (found : scalarOneOrNone (Query.rows env world (.accountsByCode code)) = .ok (some row)) :
    row ∈ world.accounts ∧ row.code = code := by
  have member : row ∈ Query.rows env world (.accountsByCode code) := by
    rw [scalarOneOrNone_eq_some found]
    exact List.mem_cons_self
  simpa using (env.arrangeAccounts_perm _).mem_iff.mp member

/-- Accounts are found by a key that no two of them share, in whatever order they come. -/
theorem scalarOneOrNone_arranged {Key : Type} [DecidableEq Key] {key : AccountModel → Key}
    {world : World} (identified : world.Identified) (env : Env)
    (distinct : ∀ first ∈ world.accounts, ∀ second ∈ world.accounts,
      key first = key second → first = second) (wanted : Key) :
    ∃ found, scalarOneOrNone (env.arrangeAccounts
        (world.accounts.filter fun row => decide (key row = wanted))) = .ok found ∧
      ∀ row, found = some row ↔ row ∈ world.accounts ∧ key row = wanted := by
  have arranged := env.arrangeAccounts_perm
    (world.accounts.filter fun row => decide (key row = wanted))
  have members : ∀ row, row ∈ env.arrangeAccounts
      (world.accounts.filter fun row => decide (key row = wanted)) ↔
        row ∈ world.accounts ∧ key row = wanted := fun row => by
    rw [arranged.mem_iff, List.mem_filter, decide_eq_true_eq]
  have nodup := arranged.nodup_iff.mpr ((List.Nodup.of_map _ identified.ids).filter _)
  obtain ⟨found, single, only⟩ := scalarOneOrNone_of_unique nodup fun first left second right =>
    distinct first ((members first).mp left).1 second ((members second).mp right).1
      (((members first).mp left).2.trans ((members second).mp right).2.symm)
  exact ⟨found, single, fun row => (only row).symm.trans (members row)⟩

/-- Among identified accounts a code is never ambiguous, and one that is not found is absent. -/
theorem accountsByCode_loads {world : World} (identified : world.Identified) (env : Env)
    (code : String) : ∃ found,
      scalarOneOrNone (Query.rows env world (.accountsByCode code)) = .ok found ∧
        (found = none → ∀ row ∈ world.accounts, row.code ≠ code) := by
  obtain ⟨found, single, only⟩ := scalarOneOrNone_arranged identified env
    (fun _ left _ right => identified.eq_of_code left right) code
  refine ⟨found, single, fun absent row member same => ?_⟩
  cases absent.symm.trans ((only row).mpr ⟨member, same⟩)

/-- A row is rebuilt exactly when its code has the format, and its name, trimmed or not, has two
to a hundred and fifty characters. -/
theorem toDomain_ok_iff {row : AccountModel} (clean : cleanAccountName row.name = some row.name) :
    (∃ account, PostgresAccountRepo.toDomain row = .ok account) ↔
      accountCodePattern.fullmatch row.code.toList = true ∧ 2 ≤ row.name.length ∧
        row.name.length ≤ 150 := by
  constructor
  · rintro ⟨account, rebuilt⟩
    obtain ⟨code, ⟨_, bounds⟩, _⟩ := Account.validate_eq_ok_iff.mp rebuilt
    exact ⟨code ▸ account.code_format, bounds⟩
  · rintro ⟨format, long, short⟩
    exact ⟨⟨row.code, row.name, row.category, format, clean, short⟩,
      Account.validate_eq_ok_iff.mpr ⟨rfl, ⟨clean, long, short⟩, rfl⟩⟩

/-- Reading an account is loading its row and rebuilding it. -/
theorem getByCode_eq (code : String) :
    PostgresAccountRepo.getByCode code = PostgresAccountRepo.load code >>= fun found =>
      match found with
      | none => (.done (.ok none) : Action (Option Account))
      | some row => (liftM (PostgresAccountRepo.toDomain row) : Action Account) >>=
          fun account => .done (.ok (some account)) := by
  rw [PostgresAccountRepo.getByCode, PostgresAccountRepo.load, bind_assoc]
  refine bind_congr fun reply => ?_
  obtain ⟨rows, now⟩ := reply
  refine bind_congr fun found => ?_
  cases found <;> rfl

/-- Reading a stored account that can be rebuilt. -/
theorem run_getByCode_bind {world : World} (identified : world.Identified) {row : AccountModel}
    (member : row ∈ world.accounts) {account : Account}
    (rebuilt : PostgresAccountRepo.toDomain row = .ok account) {envs : Nat → Env}
    (calm : (envs 0).fault = none) {Other : Type} {continuation : Option Account → Action Other} :
    (PostgresAccountRepo.getByCode row.code >>= continuation).run handle envs world =
      (continuation (some account)).run handle (fun step => envs (step + 1)) world := by
  have loads : scalarOneOrNone (Query.rows (envs 0) world (.accountsByCode row.code)) =
      .ok (some row) := by
    obtain ⟨found, loads, absent⟩ := accountsByCode_loads identified (envs 0) row.code
    cases found with
    | none => exact absurd rfl (absent rfl row member)
    | some other =>
      obtain ⟨present, own⟩ := mem_of_accountsByCode loads
      rwa [identified.eq_of_code present member own] at loads
  simp only [getByCode_eq, PostgresAccountRepo.load, bind_assoc]
  rw [run_execute_bind calm, run_lift_bind_ok loads]
  simp only [bind_assoc]
  rw [run_lift_bind_ok rebuilt]
  rfl

theorem requireActor_ok {actor : String} (named : isNonBlankActor actor = true) :
    requireActor actor = .ok () := if_pos named

theorem orRaise_eq_ok_iff {Value : Type} {error : Raised} {found : Option Value} {value : Value} :
    orRaise error found = .ok value ↔ found = some value := by
  cases found <;> simp [orRaise]

/-! ### The account writes -/

/-- Tasks that constrain only the write transactions of a call and what it promises on success. -/
structure WritesOnly {Other : Type} (regime : Regime World)
    (task : Task Command Reply Raised Other Env World) : Prop where
  reads : ∀ world query env next, task.shows world (.query query) env next
  logs : ∀ world record env next, task.shows world (.emit record) env next
  faults : ∀ world transaction env fault,
    env.fault = some fault ∨ transaction.apply env world = .error (.failed fault) →
    task.shows world (.transact transaction) env
      (.done (.error (translatePostgresErrors (.failed fault))))
  fails : ∀ error world, task.ensures (.error error) world
  logged : ∀ world record, regime.invariant world →
    regime.invariant { world with log := world.log ++ [record] } ∧
      regime.evolves world { world with log := world.log ++ [record] }

/-- What has to be shown of a write transaction that starts in a given state. -/
structure Commits {Other : Type} (regime : Regime World)
    (task : Task Command Reply Raised Other Env World) (transaction : Transaction)
    (onViolation : Option String → Raised) (world : World) (env : Env) : Prop where
  refused : ∀ constraint, transaction.apply env world = .error (.integrity constraint) →
    task.shows world (.transact transaction) env (.done (.error (onViolation (some constraint))))
  committed : ∀ after, transaction.apply env world = .ok after →
    regime.invariant after ∧ regime.evolves world after ∧
      (∀ next, task.shows world (.transact transaction) env next) ∧
      ∀ later, regime.evolves after later → regime.invariant later →
        ∀ result, task.ensures (.ok result) later

section Writes

variable {Other Result : Type} {regime : Regime World}
  {task : Task Command Reply Raised Other Env World} {world : World}

theorem WritesOnly.reads_bind (rules : WritesOnly regime task) {program : Action Result}
    {continuation : Result → Action Other} (issues : program.Issues Command.Reads)
    (rest : ∀ result later, regime.evolves world later → regime.invariant later →
      (continuation result).Valid handle regime task later) :
    (program >>= continuation).Valid handle regime task world := by
  refine issues.valid_bind (fun command env later reads holds _ => ?_)
    (fun command env later next reads => ?_) rules.fails rest
  · cases command with
    | query query => rw [handle_query_state]; exact ⟨holds, regime.refl _⟩
    | transact transaction => exact reads.elim
    | nextval => exact reads.elim
    | emit record => exact reads.elim
  · cases command with
    | query query => exact rules.reads _ _ _ _
    | transact transaction => exact reads.elim
    | nextval => exact reads.elim
    | emit record => exact reads.elim

theorem WritesOnly.lift_bind (rules : WritesOnly regime task) {outcome : Except Raised Result}
    {continuation : Result → Action Other}
    (rest : ∀ result, outcome = .ok result →
      (continuation result).Valid handle regime task world) :
    ((liftM outcome : Action Result) >>= continuation).Valid handle regime task world :=
  valid_lift_bind (fun error _ => rules.fails error) rest

/-- Loading a row: it was stored, under its code, when it was read. -/
theorem WritesOnly.load_bind (rules : WritesOnly regime task) {code : String}
    {continuation : Option AccountModel → Action Other}
    (rest : ∀ found later, regime.evolves world later → regime.invariant later →
      (∀ row, found = some row → row ∈ later.accounts ∧ row.code = code) →
      (continuation found).Valid handle regime task later) :
    (PostgresAccountRepo.load code >>= continuation).Valid handle regime task world := by
  rw [PostgresAccountRepo.load, bind_assoc]
  refine Program.valid_ask fun later evolved holds env permitted => ?_
  have fine : ∀ next, task.shows later (.query (.accountsByCode code)) env next :=
    rules.reads _ _ _
  rw [handle_query_state]
  refine ⟨holds, regime.refl _, fine _, ?_⟩
  cases failed : env.fault with
  | some fault =>
    simp only [handle, failed]
    exact Program.valid_done fun _ _ _ => rules.fails _ _
  | none =>
    simp only [handle, failed]
    change ((liftM (scalarOneOrNone (Query.rows env later (.accountsByCode code))) :
      Action (Option AccountModel)) >>= continuation).Valid handle regime task later
    exact rules.lift_bind fun found loaded => rest found later evolved holds fun row some =>
      mem_of_accountsByCode (some ▸ loaded)

/-- Reading an account: it was rebuilt from a row stored under its code when it was read. -/
theorem WritesOnly.getByCode_bind (rules : WritesOnly regime task) {code : String}
    {continuation : Option Account → Action Other}
    (rest : ∀ found later, regime.evolves world later → regime.invariant later →
      (∀ account, found = some account → ∃ row ∈ later.accounts, row.code = code ∧
        PostgresAccountRepo.toDomain row = .ok account) →
      (continuation found).Valid handle regime task later) :
    (PostgresAccountRepo.getByCode code >>= continuation).Valid handle regime task world := by
  rw [getByCode_eq, bind_assoc]
  refine rules.load_bind fun found later evolved holds stored => ?_
  cases found with
  | none =>
    refine rest none later evolved holds fun _ present => ?_
    cases present
  | some row =>
    obtain ⟨member, same⟩ := stored row rfl
    simp only [bind_assoc]
    refine rules.lift_bind fun account rebuilt => ?_
    refine rest (some account) later evolved holds fun _ present => ?_
    cases present
    exact ⟨row, member, same, rebuilt⟩

/-- The end of every write: the transaction, the log record and the result. -/
theorem WritesOnly.commit_log (rules : WritesOnly regime task) {transaction : Transaction}
    {onViolation : Option String → Raised} {event : String} {context : List (String × LogValue)}
    {result : Other}
    (commits : ∀ later, regime.evolves world later → regime.invariant later →
      ∀ env, task.permits later (.transact transaction) env →
        Commits regime task transaction onViolation later env) :
    (commitOr onViolation transaction >>= fun _ =>
      logInfo event context >>= fun _ => (.done (.ok result) : Action Other)).Valid handle regime
        task world := by
  rw [commitOr_eq]
  refine Program.valid_ask fun later evolved holds env permitted => ?_
  obtain ⟨refused, committed⟩ := commits later evolved holds env permitted
  cases failed : env.fault with
  | some fault =>
    simp only [handle, failed]
    exact ⟨holds, regime.refl _, rules.faults _ _ _ _ (.inl failed),
      Program.valid_done fun _ _ _ => rules.fails _ _⟩
  | none =>
    cases applied : transaction.apply env later with
    | error error =>
      simp only [handle, failed, applied]
      cases error with
      | integrity constraint =>
        exact ⟨holds, regime.refl _, refused constraint applied,
          Program.valid_done fun _ _ _ => rules.fails _ _⟩
      | failed fault =>
        exact ⟨holds, regime.refl _, rules.faults _ _ _ _ (.inr applied),
          Program.valid_done fun _ _ _ => rules.fails _ _⟩
    | ok after =>
      simp only [handle, failed, applied]
      obtain ⟨keeps, moves, shown, promised⟩ := committed after applied
      refine ⟨keeps, moves, shown _, Program.valid_ask fun last further kept env _ => ?_⟩
      obtain ⟨keeps, moves⟩ := rules.logged last ⟨event, context⟩ kept
      refine ⟨keeps, moves, rules.logs _ _ _ _, Program.valid_done fun final ending holds => ?_⟩
      exact promised final (regime.trans further (regime.trans moves ending)) holds result

/-- Account creation is valid when its insertion is. -/
theorem createAccount_valid (rules : WritesOnly regime task) (dto : CreateAccountInput)
    (actor : String) (result : AccountViewModel → Other)
    (commits : ∀ account, Account.validate dto.code dto.name dto.category = .ok account →
      ∀ later, regime.evolves world later → regime.invariant later → ∀ env,
        let transaction := Transaction.insertAccount account.code account.name
          (accountLookupKey account.name) account.category (auditRow .create account.code actor)
        task.permits later (.transact transaction) env →
          Commits regime task transaction
            (PostgresAccountRepo.onDuplicate account.code account.name) later env) :
    (result <$> AccountService.createAccount dto actor).Valid handle regime task world := by
  simp only [AccountService.createAccount, map_eq_pure_bind, bind_assoc, pure_bind]
  refine rules.lift_bind fun _ _ => ?_
  refine rules.reads_bind (PostgresAccountRepo.existsByCode_issues (fun _ => trivial) _)
    fun codeTaken first moved₁ _ => rules.lift_bind fun _ _ => ?_
  refine rules.reads_bind (PostgresAccountRepo.existsByName_issues (fun _ => trivial) _)
    fun nameTaken second moved₂ _ => rules.lift_bind fun _ _ => ?_
  refine rules.lift_bind fun account built => ?_
  refine rules.commit_log fun later moved₃ holds env permitted => ?_
  exact commits account (translating_eq_ok_iff.mp built) later
    (regime.trans moved₁ (regime.trans moved₂ moved₃)) holds env permitted

/-- An account update is valid when its flush is. The account it writes is merged from the input
and a row read first; the flush compares it with a row loaded later. -/
theorem updateAccount_valid (rules : WritesOnly regime task) (dto : UpdateAccountInput)
    (actor : String) (result : AccountViewModel → Other)
    (commits : ∀ first row existing, regime.evolves world first → regime.invariant first →
      row ∈ first.accounts → row.code = dto.code → PostgresAccountRepo.toDomain row = .ok existing →
      ∀ updated, Account.validate existing.code (dto.name.getD existing.name)
        (dto.category.getD existing.category) = .ok updated →
      ∀ second loaded, regime.evolves first second → regime.invariant second →
      loaded ∈ second.accounts → loaded.code = updated.code →
      ∀ later, regime.evolves second later → regime.invariant later → ∀ env,
        let transaction := Transaction.updateAccount loaded updated.name
          (accountLookupKey updated.name) updated.category (auditRow .update updated.code actor)
        task.permits later (.transact transaction) env →
          Commits regime task transaction
            (PostgresAccountRepo.onDuplicate updated.code updated.name) later env) :
    (result <$> AccountService.updateAccount dto actor).Valid handle regime task world := by
  simp only [AccountService.updateAccount, map_eq_pure_bind, bind_assoc, pure_bind]
  refine rules.lift_bind fun _ _ => ?_
  refine rules.getByCode_bind fun found first moved₁ holds₁ fromRow => rules.lift_bind ?_
  intro existing present
  obtain ⟨row, member, sameCode, rebuilt⟩ := fromRow existing (orRaise_eq_ok_iff.mp present)
  refine rules.reads_bind (AccountService.nameTakenOnChange_issues (fun _ => trivial) _ _)
    fun nameTaken later moved₂ _ => rules.lift_bind fun _ _ => rules.lift_bind ?_
  intro updated built
  simp only [PostgresAccountRepo.update, bind_assoc]
  refine rules.load_bind fun found second moved₃ holds₃ stored => ?_
  cases found with
  | none => exact Program.valid_done fun _ _ _ => rules.fails _ _
  | some loaded =>
    obtain ⟨loadedMember, loadedCode⟩ := stored loaded rfl
    refine rules.commit_log fun later moved₄ holds₄ env permitted => ?_
    exact commits first row existing moved₁ holds₁ member sameCode rebuilt updated
      (translating_eq_ok_iff.mp built) second loaded (regime.trans moved₂ moved₃) holds₃
      loadedMember loadedCode later moved₄ holds₄ env permitted

/-- An account deletion is valid when its flush is. -/
theorem deleteAccount_valid (rules : WritesOnly regime task) (code actor : String)
    (result : Unit → Other)
    (commits : ∀ first loaded, regime.evolves world first → regime.invariant first →
      loaded ∈ first.accounts → loaded.code = code →
      ∀ later, regime.evolves first later → regime.invariant later → ∀ env,
        let transaction := Transaction.deleteAccount loaded (auditRow .delete code actor)
        task.permits later (.transact transaction) env →
          Commits regime task transaction (fun _ => AppError.unknown) later env) :
    (result <$> AccountService.deleteAccount code actor).Valid handle regime task world := by
  simp only [AccountService.deleteAccount, PostgresAccountRepo.deleteByCode, map_eq_pure_bind,
    bind_assoc]
  refine rules.lift_bind fun _ _ => ?_
  refine rules.reads_bind (PostgresAccountRepo.getByCode_issues (fun _ => trivial) _)
    fun found early moved₁ _ => rules.lift_bind fun existing _ => ?_
  refine rules.reads_bind (AccountService.hasPostings_issues (fun _ => trivial) _)
    fun posted early moved₂ _ => rules.lift_bind fun _ _ => ?_
  refine rules.load_bind fun found first moved₃ holds₃ stored => ?_
  cases found with
  | none => exact Program.valid_done fun _ _ _ => rules.fails _ _
  | some loaded =>
    obtain ⟨loadedMember, loadedCode⟩ := stored loaded rfl
    refine rules.commit_log fun later moved₄ holds₄ env permitted => ?_
    exact commits first loaded (regime.trans moved₁ (regime.trans moved₂ moved₃)) holds₃
      loadedMember loadedCode later moved₄ holds₄ env permitted

end Writes

end Trutina
