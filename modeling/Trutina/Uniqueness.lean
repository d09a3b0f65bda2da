/-
This file proves that codes and lookup keys stay unique when account writes run
next to each other. The checks of the services do not matter: the unique
constraints decide. What does matter is that the lookup key is a column of its
own and an update sends only the columns that differ from the row it loaded. An
update that changes the case of a name leaves the key out, so the key stays in
step with the name only if no other update has changed it in between.
-/

import Trutina.AccountStore

namespace Trutina

open Interaction

/-- Besides ids and codes, the lookup keys are distinct, stored names are normalized, and each
lookup key is the one of the stored name. -/
structure World.ChartConsistent (world : World) : Prop extends world.Identified where
  keys : (world.accounts.map AccountModel.nameKey).Nodup
  cleaned : ∀ row ∈ world.accounts, cleanAccountName row.name = some row.name
  keyed : ∀ row ∈ world.accounts, row.nameKey = accountLookupKey row.name

theorem empty_chartConsistent : World.empty.ChartConsistent where
  toIdentified := empty_identified
  keys := List.nodup_nil
  cleaned := nofun
  keyed := nofun

namespace World.ChartConsistent

variable {world after : World}

/-- Only the accounts and their sequence matter. -/
theorem congr (consistent : world.ChartConsistent) (accounts : after.accounts = world.accounts)
    (sequence : after.nextAccountId = world.nextAccountId) : after.ChartConsistent where
  toIdentified := consistent.toIdentified.congr accounts sequence
  keys := accounts ▸ consistent.keys
  cleaned := accounts ▸ consistent.cleaned
  keyed := accounts ▸ consistent.keyed

theorem eq_of_key (consistent : world.ChartConsistent) {first second : AccountModel}
    (left : first ∈ world.accounts) (right : second ∈ world.accounts)
    (same : first.nameKey = second.nameKey) : first = second :=
  List.inj_on_of_nodup_map consistent.keys left right same

/-- A new row with a fresh code and a fresh key of its name. -/
theorem insert (consistent : world.ChartConsistent) {code name nameKey : String}
    {category : AccountCategory} {audit : AuditEventModel} {env : Env}
    (clean : cleanAccountName name = some name) (key : nameKey = accountLookupKey name)
    (applied : (Transaction.insertAccount code name nameKey category audit).apply env world =
      .ok after) : after.ChartConsistent := by
  have identified := consistent.toIdentified.insert applied
  obtain ⟨_, keyFree, rfl⟩ := insertAccount_ok applied
  refine ⟨identified, nodup_map_append consistent.keys keyFree, fun row member => ?_,
    fun row member => ?_⟩
  · rcases List.mem_append.mp member with stored | new
    · exact consistent.cleaned row stored
    · rw [List.mem_singleton.mp new]
      exact clean
  · rcases List.mem_append.mp member with stored | new
    · exact consistent.keyed row stored
    · rw [List.mem_singleton.mp new]
      exact key

/-- An update sends the key whenever it differs from the loaded one. The key it leaves out is
right when the stored row still has it. -/
theorem update (consistent : world.ChartConsistent) {loaded : AccountModel}
    {name nameKey : String} {category : AccountCategory} {audit : AuditEventModel} {env : Env}
    (loadedKey : loaded.nameKey = accountLookupKey loaded.name)
    (clean : cleanAccountName name = some name) (key : nameKey = accountLookupKey name)
    (current : name ≠ loaded.name → nameKey = loaded.nameKey →
      ∀ row ∈ world.accounts, row.id = loaded.id → row.nameKey = nameKey)
    (applied : (Transaction.updateAccount loaded name nameKey category audit).apply env world =
      .ok after) : after.ChartConsistent := by
  have identified := consistent.toIdentified.update applied
  rcases updateAccount_ok applied with ⟨_, rfl⟩ | ⟨_, keyFree, rfl⟩
  · exact consistent.congr rfl rfl
  refine ⟨identified, ?_, fun row member => ?_, fun row member => ?_⟩
  · by_cases changed : nameKey = loaded.nameKey
    · rw [map_overwriteAccounts fun row => by simp [AccountModel.overwrite, changed]]
      exact consistent.keys
    · have distinct : (overwriteAccounts loaded name nameKey category world.accounts).Nodup :=
        List.Nodup.of_map AccountModel.id identified.ids
      have written : ∀ row, (loaded.overwrite name nameKey category row).nameKey = nameKey :=
        fun _ => if_neg changed
      refine distinct.map_on fun first left second right same => ?_
      rcases mem_overwriteAccounts.mp left with ⟨stored, other⟩ | ⟨before, stored, sameId, rfl⟩ <;>
        rcases mem_overwriteAccounts.mp right with
          ⟨stored', other'⟩ | ⟨before', stored', sameId', rfl⟩
      · exact consistent.eq_of_key stored stored' same
      · exact absurd (same.trans (written _)) (keyFree changed first stored other)
      · exact absurd (same.symm.trans (written _)) (keyFree changed second stored' other')
      · rw [consistent.eq_of_id stored stored' (sameId.trans sameId'.symm)]
  · rcases mem_overwriteAccounts.mp member with ⟨stored, _⟩ | ⟨before, stored, _, rfl⟩
    · exact consistent.cleaned row stored
    · by_cases sameName : name = loaded.name
      · simpa only [AccountModel.overwrite, if_pos sameName] using consistent.cleaned before stored
      · simpa only [AccountModel.overwrite, if_neg sameName] using clean
  · rcases mem_overwriteAccounts.mp member with ⟨stored, _⟩ | ⟨before, stored, sameId, rfl⟩
    · exact consistent.keyed row stored
    · by_cases sameName : name = loaded.name
      · -- Neither the name nor the key is sent.
        have sameKey : nameKey = loaded.nameKey := by rw [key, sameName, loadedKey]
        simpa [AccountModel.overwrite, sameName, sameKey] using consistent.keyed before stored
      · by_cases sameKey : nameKey = loaded.nameKey
        · have still := current sameName sameKey before stored sameId
          simp only [AccountModel.overwrite, if_neg sameName, if_pos sameKey]
          rw [still, key]
        · simp only [AccountModel.overwrite, if_neg sameName, if_neg sameKey]
          exact key

theorem delete (consistent : world.ChartConsistent) {loaded : AccountModel}
    {audit : AuditEventModel} {env : Env}
    (applied : (Transaction.deleteAccount loaded audit).apply env world = .ok after) :
    after.ChartConsistent := by
  have identified := consistent.toIdentified.delete applied
  rw [deleteAccount_ok applied] at identified ⊢
  have kept : (world.accounts.filter fun row => row.id != loaded.id).Sublist world.accounts :=
    List.filter_sublist
  exact ⟨identified, consistent.keys.sublist (kept.map _), fun row member => consistent.cleaned row
    (kept.subset member), fun row member => consistent.keyed row (kept.subset member)⟩

end World.ChartConsistent

/-! ### Account writes next to each other -/

/-- The calls that write accounts. -/
def Call.WritesAccounts : Call → Prop
  | .createAccount _ _ => True
  | .updateAccount _ _ => True
  | .deleteAccount _ _ => True
  | _ => False

/-- When an update changes a name but not its lookup key, the stored row still has that key. -/
def World.KeepsLookupKey (world : World) : Command → Prop
  | .transact (.updateAccount loaded name nameKey _ _) =>
    name ≠ loaded.name → nameKey = loaded.nameKey →
      ∀ row ∈ world.accounts, row.id = loaded.id → row.nameKey = nameKey
  | _ => True

instance (world : World) (command : Command) : Decidable (world.KeepsLookupKey command) :=
  match command with
  | .transact (.updateAccount loaded name nameKey _ _) =>
    inferInstanceAs (Decidable (name ≠ loaded.name → nameKey = loaded.nameKey →
      ∀ row ∈ world.accounts, row.id = loaded.id → row.nameKey = nameKey))
  | .transact (.insertAccount ..) => isTrue trivial
  | .transact (.deleteAccount ..) => isTrue trivial
  | .transact (.insertJournal ..) => isTrue trivial
  | .transact (.insertPostings ..) => isTrue trivial
  | .query _ => isTrue trivial
  | .nextval => isTrue trivial
  | .emit _ => isTrue trivial

/-- The error of a refused account write names a field that another stored row has. -/
inductive World.Conflicts (world : World) : Transaction → Raised → Prop where
  | code {code name nameKey : String} {category : AccountCategory} {audit : AuditEventModel}
      {row : AccountModel} (member : row ∈ world.accounts) (same : row.code = code) :
      world.Conflicts (.insertAccount code name nameKey category audit)
        (AccountService.duplicateCode code)
  | name {code name nameKey : String} {category : AccountCategory} {audit : AuditEventModel}
      {row : AccountModel} (member : row ∈ world.accounts)
      (same : row.nameKey = accountLookupKey name) :
      world.Conflicts (.insertAccount code name nameKey category audit)
        (AccountService.duplicateName name)
  | rename {loaded : AccountModel} {name nameKey : String} {category : AccountCategory}
      {audit : AuditEventModel} {row : AccountModel} (member : row ∈ world.accounts)
      (other : row.id ≠ loaded.id) (same : row.nameKey = accountLookupKey name) :
      world.Conflicts (.updateAccount loaded name nameKey category audit)
        (AccountService.duplicateName name)

/-- A write that a constraint refuses ends its call with the matching conflict. -/
def ReportsConflict (world : World) (command : Command) (env : Env) (next : Action Response) :
    Prop :=
  ∀ transaction constraint, command = .transact transaction → env.fault = none →
    transaction.apply env world = .error (.integrity constraint) →
    ∃ error, next = .done (.error error) ∧ world.Conflicts transaction error

def uniquenessRegime : Regime World where
  invariant := World.ChartConsistent
  evolves _ _ := True
  refl _ := trivial
  trans _ _ := trivial

def uniquenessTask : Task Command Reply Raised Response Env World where
  permits world command _ := world.KeepsLookupKey command
  shows := ReportsConflict
  ensures _ _ := True

theorem uniqueness_writesOnly : WritesOnly uniquenessRegime uniquenessTask where
  reads world query env next transaction constraint same := by cases same
  logs world record env next transaction constraint same := by cases same
  faults world transaction env fault failed other constraint same calm refused := by
    cases same
    rcases failed with failed | failed
    · rw [calm] at failed
      cases failed
    · rw [refused] at failed
      cases failed
  fails _ _ := trivial
  logged world record holds := ⟨holds.congr rfl rfl, trivial⟩

/-- A committed transaction has nothing to report. -/
theorem reportsConflict_of_ok {world after : World} {transaction : Transaction} {env : Env}
    (applied : transaction.apply env world = .ok after) (next : Action Response) :
    ReportsConflict world (.transact transaction) env next := by
  rintro other constraint ⟨⟩ _ refused
  rw [applied] at refused
  cases refused

theorem createAccount_reportsConflict {world : World} {account : Account}
    {audit : AuditEventModel} {env : Env} {constraint : String}
    (refused : (Transaction.insertAccount account.code account.name
      (accountLookupKey account.name) account.category audit).apply env world =
        .error (.integrity constraint)) :
    world.Conflicts (.insertAccount account.code account.name (accountLookupKey account.name)
      account.category audit)
      (PostgresAccountRepo.onDuplicate account.code account.name (some constraint)) := by
  rcases insertAccount_refused refused with ⟨rfl, row, member, same⟩ | ⟨rfl, row, member, same⟩
  · rw [PostgresAccountRepo.onDuplicate_code]
    exact .code member same
  · rw [PostgresAccountRepo.onDuplicate_name]
    exact .name member same

theorem updateAccount_reportsConflict {world : World} {account : Account}
    {loaded : AccountModel} {audit : AuditEventModel} {env : Env} {constraint : String}
    (refused : (Transaction.updateAccount loaded account.name (accountLookupKey account.name)
      account.category audit).apply env world = .error (.integrity constraint)) :
    world.Conflicts (.updateAccount loaded account.name (accountLookupKey account.name)
      account.category audit)
      (PostgresAccountRepo.onDuplicate account.code account.name (some constraint)) := by
  obtain ⟨rfl, _, row, stored, other, same⟩ := updateAccount_refused refused
  rw [PostgresAccountRepo.onDuplicate_name]
  exact .rename stored other same

/-- A refused transaction whose call ends with a conflict reports it. -/
theorem reportsConflict_of_conflicts {world : World} {transaction : Transaction} {env : Env}
    {error : Raised} (conflicts : world.Conflicts transaction error) :
    ReportsConflict world (.transact transaction) env (.done (.error error)) := by
  rintro other constraint ⟨⟩ _ _
  exact ⟨error, rfl, conflicts⟩

/-- Every account write keeps the accounts consistent and reports its conflicts. -/
theorem uniqueness_valid {call : Call} (writes : call.WritesAccounts) (world : World) :
    call.program.Valid handle uniquenessRegime uniquenessTask world := by
  cases call with
  | createAccount dto actor =>
    refine createAccount_valid uniqueness_writesOnly dto actor Response.account ?_
    intro account _ later _ consistent env _ _
    exact
      { refused := fun constraint refused =>
          reportsConflict_of_conflicts (createAccount_reportsConflict refused)
        committed := fun after applied => ⟨consistent.insert account.name_clean rfl applied,
          trivial, reportsConflict_of_ok applied, fun _ _ _ _ => trivial⟩ }
  | updateAccount dto actor =>
    refine updateAccount_valid uniqueness_writesOnly dto actor Response.account ?_
    intro _ _ _ _ _ _ _ _ updated _ second loaded _ earlier member _ later _ consistent env _
      current
    exact
      { refused := fun constraint refused =>
          reportsConflict_of_conflicts (updateAccount_reportsConflict refused)
        committed := fun after applied => ⟨consistent.update (earlier.keyed loaded member)
          updated.name_clean rfl current applied, trivial, reportsConflict_of_ok applied,
          fun _ _ _ _ => trivial⟩ }
  | deleteAccount code actor =>
    refine deleteAccount_valid uniqueness_writesOnly code actor (fun _ => Response.deleted) ?_
    intro _ loaded _ _ _ _ later _ consistent env _ _
    exact
      { refused := fun constraint refused => absurd refused deleteAccount_not_refused
        committed := fun after applied => ⟨consistent.delete applied, trivial,
          reportsConflict_of_ok applied, fun _ _ _ _ => trivial⟩ }
  | getAccount | getChart | resolveAccount | listAccounts | createJournalEntry | getJournalEntry
  | listJournalEntries | postJournalEntry | getPostingsByAccount | getPostingsByJournalNumber
  | getTrialBalance => exact writes.elim

/-! ### Building the chart -/

/-- A stored account is rebuilt with its own code and name. -/
theorem World.ChartConsistent.toDomain_fields {world : World} (consistent : world.ChartConsistent)
    {row : AccountModel} (member : row ∈ world.accounts) {account : Account}
    (rebuilt : PostgresAccountRepo.toDomain row = .ok account) :
    account.code = row.code ∧ account.name = row.name ∧ account.category = row.category := by
  obtain ⟨code, ⟨clean, _⟩, category⟩ := Account.validate_eq_ok_iff.mp rebuilt
  rw [consistent.cleaned row member] at clean
  exact ⟨code, (Option.some.inj clean).symm, category⟩

/-- The chart of consistent accounts is built whenever every row is rebuilt. -/
theorem World.ChartConsistent.chart {world : World} (consistent : world.ChartConsistent)
    {rows : List AccountModel} {accounts : List Account} (arranged : rows.Perm world.accounts)
    (rebuilt : fromRows PostgresAccountRepo.toDomain rows = .ok accounts) :
    ∃ chart, ChartOfAccounts.validate accounts = .ok chart := by
  have fields : accounts.map Account.code = rows.map AccountModel.code ∧
      (accounts.map fun account => accountLookupKey account.name) =
        rows.map AccountModel.nameKey := by
    have members : ∀ row ∈ rows, row ∈ world.accounts := fun row => arranged.mem_iff.mp
    have pairs := fromRows_eq_ok_iff.mp rebuilt
    clear rebuilt arranged
    induction pairs with
    | nil => exact ⟨rfl, rfl⟩
    | @cons row account rest others converted _ inductionHypothesis =>
      obtain ⟨code, name, _⟩ :=
        consistent.toDomain_fields (members row List.mem_cons_self) converted
      obtain ⟨codes, keys⟩ :=
        inductionHypothesis fun other member => members other (List.mem_cons_of_mem _ member)
      simp only [List.map_cons, codes, keys, code, name,
        consistent.keyed row (members row List.mem_cons_self), and_self]
  rw [ChartOfAccounts.validate_ok_iff, fields.1, fields.2]
  exact ⟨(arranged.map _).nodup_iff.mpr consistent.codes,
    (arranged.map _).nodup_iff.mpr consistent.keys⟩

/-- In every run of account writes in which an update that changes the name but not the key finds
the key still stored: the accounts stay consistent, a refused write changes nothing and reports a
conflict that exists, and the chart never reports a duplicate. -/
theorem chartConsistent_of_reaches {Thread : Type} [DecidableEq Thread] (calls : Thread → Call)
    (writes : ∀ thread, (calls thread).WritesAccounts) {start : World}
    (consistent : start.ChartConsistent)
    {pool : Pool Thread Command Reply Raised Response World}
    (reaches : Reaches handle (fun world _ command _ => world.KeepsLookupKey command)
      ⟨start, fun thread => (calls thread).program⟩ pool) :
    pool.state.ChartConsistent ∧
      (∀ thread transaction next env constraint,
        pool.threads thread = .ask (.transact transaction) next → env.fault = none →
        transaction.apply env pool.state = .error (.integrity constraint) →
        (pool.step handle thread env).state = pool.state ∧
          ∃ error, (pool.step handle thread env).threads thread = .done (.error error) ∧
            pool.state.Conflicts transaction error) ∧
      ∀ rows accounts, rows.Perm pool.state.accounts →
        fromRows PostgresAccountRepo.toDomain rows = .ok accounts →
        ∃ chart, ChartOfAccounts.validate accounts = .ok chart := by
  have valid : (Pool.mk start fun thread => (calls thread).program).Valid handle
      uniquenessRegime (fun _ : Thread => uniquenessTask) :=
    ⟨consistent, fun thread => uniqueness_valid (writes thread) start⟩
  obtain ⟨still, _⟩ := Reaches.valid valid reaches
  have holds : pool.state.ChartConsistent := still.invariant
  refine ⟨holds, ?_, fun rows accounts => holds.chart⟩
  intro thread transaction next env constraint asks calm refused
  have permitted : pool.state.KeepsLookupKey (.transact transaction) := by
    cases transaction with
    | updateAccount loaded name nameKey category audit =>
      exact fun _ sameKey => absurd sameKey (updateAccount_refused refused).2.1
    | insertAccount | deleteAccount | insertJournal | insertPostings => trivial
  obtain ⟨_, shown, _⟩ := still.step_spec env asks permitted
  obtain ⟨error, ended, conflicts⟩ := shown transaction constraint rfl calm refused
  have unchanged : (handle (.transact transaction) env pool.state).2 = pool.state := by
    simp only [handle, calm, refused]
  rw [Pool.step_of_ask asks]
  exact ⟨unchanged, error, (Function.update_self _ _ _).trans ended, conflicts⟩

/-- One account and three renames of it, two of them to names that differ in case only. -/
def caseRenames : Fin 4 → Call
  | 0 => .createAccount ((CreateAccountInput.accept "1000" "Bank" .asset).get (.refl true)) "alice"
  | 1 => .updateAccount ((UpdateAccountInput.accept "1000" "CASH" none).get (.refl true)) "alice"
  | 2 => .updateAccount ((UpdateAccountInput.accept "1000" "Cash" none).get (.refl true)) "bob"
  | 3 => .updateAccount ((UpdateAccountInput.accept "1000" "Fund" none).get (.refl true)) "carol"

/-- The first rename passes its check, loads the row after the second and is flushed after the
third. -/
def caseRenamesOrder : List (Fin 4) :=
  [0, 0, 0, 0, 1, 1, 2, 2, 2, 2, 2, 1, 3, 3, 3, 3, 3, 1, 1]

/-- Two accounts that are created next to each other under one code. -/
def rivalCreations : Fin 2 → Call
  | 0 => .createAccount ((CreateAccountInput.accept "1000" "Bank" .asset).get (.refl true)) "alice"
  | 1 => .createAccount ((CreateAccountInput.accept "1000" "Cash" .asset).get (.refl true)) "bob"

/-- Both pass their checks before the first is inserted; the second insertion is refused. -/
theorem chartConsistent_of_rivalCreations :
    ∃ pool : Pool (Fin 2) Command Reply Raised Response World,
      pool.state.accounts.length = 1 ∧ pool.state.ChartConsistent := by
  refine ⟨_, ?_, (chartConsistent_of_reaches rivalCreations (fun | 0 | 1 => trivial)
    empty_chartConsistent (reaches_execute (([0, 0, 1, 1, 0, 1, 0] : List (Fin 2)).map
      fun thread => (thread, Env.calm 1700000000000000)) (by decide +kernel))).1⟩
  decide +kernel

/-- Without that condition a row is left with the name of one update and the key of another. -/
theorem chartConsistent_fails_between_renames :
    ∃ pool, Reaches handle (fun _ _ _ env => env.fault = none)
        ⟨World.empty, fun thread => (caseRenames thread).program⟩ pool ∧
      (∀ thread, (caseRenames thread).WritesAccounts) ∧
      ¬∀ row ∈ pool.state.accounts, row.nameKey = accountLookupKey row.name := by
  refine ⟨_, reaches_execute_of_forall (caseRenamesOrder.map fun thread =>
    (thread, Env.calm 1700000000000000)) (List.forall_mem_map.mpr fun _ _ _ _ => rfl),
    fun | 0 | 1 | 2 | 3 => trivial, by decide +kernel⟩

end Trutina
