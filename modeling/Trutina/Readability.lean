/-
This file proves when every stored account can be read back. A name is checked
for its length before it is trimmed, and checked again, trimmed, at every read:
a name of one character between spaces is stored and can never be read. Apart
from such names, and from updates that leave a column out which another update
has changed in between, every row is rebuilt into the account that was written,
and the chart resolves each account by its code and by its name.
-/

import Trutina.Uniqueness

namespace Trutina

open Interaction

/-- Every row is rebuilt into an account with its own values. -/
structure World.Readable (world : World) : Prop extends world.ChartConsistent where
  rebuilt : ∀ row ∈ world.accounts, ∃ account, PostgresAccountRepo.toDomain row = .ok account

theorem empty_readable : World.empty.Readable where
  toChartConsistent := empty_chartConsistent
  rebuilt := nofun

namespace World.Readable

variable {world after : World}

theorem congr (readable : world.Readable) (accounts : after.accounts = world.accounts)
    (sequence : after.nextAccountId = world.nextAccountId) : after.Readable where
  toChartConsistent := readable.toChartConsistent.congr accounts sequence
  rebuilt := accounts ▸ readable.rebuilt

theorem insert (readable : world.Readable) {account : Account} {audit : AuditEventModel}
    {env : Env} (long : 2 ≤ account.name.length)
    (applied : (Transaction.insertAccount account.code account.name
      (accountLookupKey account.name) account.category audit).apply env world = .ok after) :
    after.Readable where
  toChartConsistent := readable.toChartConsistent.insert account.name_clean rfl applied
  rebuilt := by
    obtain ⟨_, _, rfl⟩ := insertAccount_ok applied
    intro row member
    rcases List.mem_append.mp member with stored | new
    · exact readable.rebuilt row stored
    · rw [List.mem_singleton.mp new]
      exact ⟨account, account.validate_self long⟩

theorem update (readable : world.Readable) {loaded : AccountModel} {account : Account}
    {audit : AuditEventModel} {env : Env} (long : 2 ≤ account.name.length)
    (consistent : after.ChartConsistent)
    (applied : (Transaction.updateAccount loaded account.name (accountLookupKey account.name)
      account.category audit).apply env world = .ok after) : after.Readable where
  toChartConsistent := consistent
  rebuilt := by
    rcases updateAccount_ok applied with ⟨_, rfl⟩ | ⟨_, _, rfl⟩
    · exact readable.rebuilt
    · intro row member
      rw [toDomain_ok_iff (consistent.cleaned row member)]
      rcases mem_overwriteAccounts.mp member with ⟨stored, _⟩ | ⟨before, stored, _, rfl⟩
      · exact (toDomain_ok_iff (readable.cleaned row stored)).mp (readable.rebuilt row stored)
      · obtain ⟨format, bounds⟩ :=
          (toDomain_ok_iff (readable.cleaned before stored)).mp (readable.rebuilt before stored)
        refine ⟨format, ?_⟩
        by_cases same : account.name = loaded.name
        · simpa only [AccountModel.overwrite, if_pos same] using bounds
        · simpa only [AccountModel.overwrite, if_neg same] using ⟨long, account.name_length⟩

theorem delete (readable : world.Readable) {loaded : AccountModel} {audit : AuditEventModel}
    {env : Env} (applied : (Transaction.deleteAccount loaded audit).apply env world = .ok after) :
    after.Readable where
  toChartConsistent := readable.toChartConsistent.delete applied
  rebuilt := by
    rw [deleteAccount_ok applied]
    exact fun row member => readable.rebuilt row (List.mem_of_mem_filter member)

end World.Readable

/-! ### The conditions on a run -/

/-- No name that a call provides is a single character once it is trimmed. -/
def Call.NamesLong : Call → Prop
  | .createAccount dto _ => (strip dto.name).length ≠ 1
  | .updateAccount dto _ => ∀ name ∈ dto.name, (strip name).length ≠ 1
  | _ => True

/-- The columns an update does not send still have the values it loaded. -/
def World.KeepsUnsent (world : World) : Command → Prop
  | .transact (.updateAccount loaded name nameKey category _) =>
    ∀ row ∈ world.accounts, row.id = loaded.id →
      (name = loaded.name → row.name = name) ∧ (nameKey = loaded.nameKey → row.nameKey = nameKey) ∧
        (category = loaded.category → row.category = category)
  | _ => True

instance (world : World) (command : Command) : Decidable (world.KeepsUnsent command) :=
  match command with
  | .transact (.updateAccount loaded name nameKey category _) =>
    inferInstanceAs (Decidable (∀ row ∈ world.accounts, row.id = loaded.id →
      (name = loaded.name → row.name = name) ∧ (nameKey = loaded.nameKey → row.nameKey = nameKey) ∧
        (category = loaded.category → row.category = category)))
  | .transact (.insertAccount ..) => isTrue trivial
  | .transact (.deleteAccount ..) => isTrue trivial
  | .transact (.insertJournal ..) => isTrue trivial
  | .transact (.insertPostings ..) => isTrue trivial
  | .query _ => isTrue trivial
  | .nextval => isTrue trivial
  | .emit _ => isTrue trivial

/-- The name of an accepted account has at least two characters, when the provided one does. -/
theorem validated_name_long {code name : String} {category : AccountCategory} {account : Account}
    (built : Account.validate code name category = .ok account)
    (long : (strip name).length ≠ 1) : 2 ≤ account.name.length := by
  obtain ⟨_, ⟨clean, _⟩, _⟩ := Account.validate_eq_ok_iff.mp built
  have positive := cleanAccountName_length_pos clean
  rw [(cleanAccountName_eq_some_iff.mp clean).1] at positive ⊢
  omega

/-- The name of a merged account: the provided one, or the one it had. -/
theorem merged_name_long {code : String} {name : Option String} {category : AccountCategory}
    {existing updated : Account}
    (built : Account.validate code (name.getD existing.name) category = .ok updated)
    (long : ∀ given ∈ name, (strip given).length ≠ 1) : 2 ≤ updated.name.length := by
  cases name with
  | some given => exact validated_name_long built (long given rfl)
  | none =>
    obtain ⟨_, ⟨clean, bound, _⟩, _⟩ := Account.validate_eq_ok_iff.mp built
    rw [Option.getD_none, existing.name_clean, Option.some.injEq] at clean
    rwa [Option.getD_none, clean] at bound

/-! ### What a write leaves behind -/

/-- After a committed write, the row it wrote has the values of the account it was given. -/
def LeavesWritten (world : World) (env : Env) : Command → Prop
  | .transact (.insertAccount code name nameKey category audit) =>
    ∀ after, (Transaction.insertAccount code name nameKey category audit).apply env world =
        .ok after →
      ∀ row ∈ after.accounts, row.code = code → row.name = name ∧ row.category = category
  | .transact (.updateAccount loaded name nameKey category audit) =>
    ∀ after, (Transaction.updateAccount loaded name nameKey category audit).apply env world =
        .ok after →
      ∀ row ∈ after.accounts, row.id = loaded.id →
        row.code = loaded.code ∧ row.name = name ∧ row.category = category
  | _ => True

theorem insertAccount_leavesWritten (world : World) (env : Env) (code name nameKey : String)
    (category : AccountCategory) (audit : AuditEventModel) :
    LeavesWritten world env (.transact (.insertAccount code name nameKey category audit)) := by
  intro after applied row member same
  obtain ⟨free, _, rfl⟩ := insertAccount_ok applied
  rcases List.mem_append.mp member with stored | new
  · exact absurd same (free row stored)
  · rw [List.mem_singleton.mp new]
    exact ⟨rfl, rfl⟩

theorem updateAccount_leavesWritten {second world : World} {env : Env} {loaded : AccountModel}
    {name nameKey : String} {category : AccountCategory} {audit : AuditEventModel}
    (earlier : second.Readable) (stored : loaded ∈ second.accounts)
    (kept : second.KeepsCodes world)
    (unsent : world.KeepsUnsent
      (.transact (.updateAccount loaded name nameKey category audit))) :
    LeavesWritten world env
      (.transact (.updateAccount loaded name nameKey category audit)) := by
  intro after applied row member same
  refine ⟨earlier.code_of_id (kept.trans (.update applied)) stored member same, ?_⟩
  rcases updateAccount_ok applied with ⟨⟨sameName, _, sameCategory⟩, rfl⟩ | ⟨_, _, rfl⟩
  · obtain ⟨rightName, _, rightCategory⟩ := unsent row member same
    exact ⟨rightName sameName, rightCategory sameCategory⟩
  · rcases mem_overwriteAccounts.mp member with ⟨_, other⟩ | ⟨before, present, sameId, rfl⟩
    · exact absurd same other
    · obtain ⟨rightName, _, rightCategory⟩ := unsent before present sameId
      constructor
      · by_cases sameName : name = loaded.name
        · simpa only [AccountModel.overwrite, if_pos sameName] using rightName sameName
        · simp only [AccountModel.overwrite, if_neg sameName]
      · by_cases sameCategory : category = loaded.category
        · simpa only [AccountModel.overwrite, if_pos sameCategory] using
            rightCategory sameCategory
        · simp only [AccountModel.overwrite, if_neg sameCategory]

/-! ### Account writes next to each other -/

def readableRegime : Regime World where
  invariant := World.Readable
  evolves := World.KeepsCodes
  refl := World.KeepsCodes.refl
  trans := World.KeepsCodes.trans

def readableTask : Task Command Reply Raised Response Env World where
  permits world command _ := world.KeepsUnsent command
  shows world command env _ := env.fault = none → LeavesWritten world env command
  ensures _ _ := True

/-- A transaction that fails leaves nothing. -/
theorem leavesWritten_of_error {world : World} {env : Env} {transaction : Transaction}
    {error : SqlError} (failed : transaction.apply env world = .error error) :
    LeavesWritten world env (.transact transaction) := by
  cases transaction with
  | insertAccount | updateAccount =>
    intro after applied
    rw [failed] at applied
    cases applied
  | deleteAccount | insertJournal | insertPostings => trivial

theorem readable_writesOnly : WritesOnly readableRegime readableTask where
  reads _ _ _ _ _ := trivial
  logs _ _ _ _ _ := trivial
  faults world transaction env fault failed calm := by
    rcases failed with failed | failed
    · rw [calm] at failed
      cases failed
    · exact leavesWritten_of_error failed
  fails _ _ := trivial
  logged world record holds := ⟨holds.congr rfl rfl, .of_eq rfl rfl⟩

theorem World.KeepsUnsent.keepsLookupKey {world : World} {command : Command}
    (unsent : world.KeepsUnsent command) : world.KeepsLookupKey command := by
  unfold World.KeepsLookupKey
  split
  · exact fun _ sameKey row member same => (unsent row member same).2.1 sameKey
  · trivial

theorem readable_valid {call : Call} (writes : call.WritesAccounts) (long : call.NamesLong)
    (world : World) : call.program.Valid handle readableRegime readableTask world := by
  cases call with
  | createAccount dto actor =>
    refine createAccount_valid readable_writesOnly dto actor Response.account ?_
    intro account built later _ readable env _ _
    exact
      { refused := fun _ refused _ => leavesWritten_of_error refused
        committed := fun after applied => ⟨readable.insert (validated_name_long built long) applied,
          .insert applied, fun _ _ => insertAccount_leavesWritten _ _ _ _ _ _ _,
          fun _ _ _ _ => trivial⟩ }
  | updateAccount dto actor =>
    refine updateAccount_valid readable_writesOnly dto actor Response.account ?_
    intro _ _ existing _ _ _ _ _ updated built second loaded _ earlier member _ later kept readable
      env transaction permitted
    have unsent : later.KeepsUnsent (.transact transaction) := permitted
    exact
      { refused := fun _ refused _ => leavesWritten_of_error refused
        committed := fun after applied => ⟨readable.update (merged_name_long built long)
          (readable.toChartConsistent.update (earlier.keyed loaded member) updated.name_clean rfl
            unsent.keepsLookupKey applied) applied, .update applied,
          fun _ _ => updateAccount_leavesWritten earlier member kept unsent,
          fun _ _ _ _ => trivial⟩ }
  | deleteAccount code actor =>
    refine deleteAccount_valid readable_writesOnly code actor (fun _ => Response.deleted) ?_
    intro _ loaded _ _ _ _ later _ readable env _ _
    exact
      { refused := fun _ refused => absurd refused deleteAccount_not_refused
        committed := fun after applied => ⟨readable.delete applied, .delete applied,
          fun _ _ => trivial, fun _ _ _ _ => trivial⟩ }
  | getAccount | getChart | resolveAccount | listAccounts | createJournalEntry | getJournalEntry
  | listJournalEntries | postJournalEntry | getPostingsByAccount | getPostingsByJournalNumber
  | getTrialBalance => exact writes.elim

/-! ### Reading the accounts -/

/-- Rebuilding the rows of a readable store in any order succeeds. -/
theorem World.Readable.rebuild {world : World} (readable : world.Readable)
    {rows : List AccountModel} (arranged : rows.Perm world.accounts) :
    ∃ accounts, fromRows PostgresAccountRepo.toDomain rows = .ok accounts :=
  fromRows_total fun row member => readable.rebuilt row (arranged.mem_iff.mp member)

/-- The accounts of a readable store are listed, and its chart is built; the chart resolves every
stored account by its code and by its name. -/
theorem World.Readable.reads {world : World} (readable : world.Readable) (envs : Nat → Env)
    (calm : (envs 0).fault = none) :
    (∃ view, AccountService.listAccounts.run handle envs world = (.ok view, world)) ∧
      ∃ chart, AccountService.getChart.run handle envs world = (.ok chart, world) ∧
        ∀ row ∈ world.accounts, ∃ account,
          PostgresAccountRepo.toDomain row = .ok account ∧
          chart.getByCode row.code = some account ∧ chart.getByName row.name = some account := by
  have arranged := (envs 0).arrangeAccounts_perm world.accounts
  obtain ⟨accounts, rebuilt⟩ := readable.rebuild arranged
  obtain ⟨chart, built⟩ := readable.chart arranged rebuilt
  refine ⟨⟨{ accounts := accounts.map AccountService.toViewModel }, ?_⟩, chart, ?_, ?_⟩
  · simp only [AccountService.listAccounts, PostgresAccountRepo.listAll, bind_assoc]
    exact (run_execute_bind calm).trans (run_lift_bind_ok rebuilt)
  · simp only [AccountService.getChart, PostgresAccountRepo.listAll, bind_assoc]
    refine (run_execute_bind calm).trans ((run_lift_bind_ok rebuilt).trans ?_)
    rw [run_lift, built]
  · intro row member
    obtain ⟨account, listed, converted⟩ := mem_of_fromRows rebuilt (arranged.mem_iff.mpr member)
    obtain ⟨code, name, _⟩ := readable.toDomain_fields member converted
    have charted : account ∈ chart.accounts :=
      ChartOfAccounts.validate_eq_ok_iff.mp built ▸ listed
    exact ⟨account, converted, ChartOfAccounts.getByCode_eq_some_iff.mpr ⟨charted, code⟩,
      ChartOfAccounts.getByName_eq_some_iff.mpr ⟨charted, by rw [name]⟩⟩

/-- In every run of account writes from an empty store whose names keep two characters when
trimmed, and whose updates find the columns they do not send as they loaded them: each stored row
is rebuilt into an account with its values, a committed write leaves exactly the account it was
given, and the accounts are listed and resolved by code and by name. -/
theorem readable_of_reaches {Thread : Type} [DecidableEq Thread] (calls : Thread → Call)
    (writes : ∀ thread, (calls thread).WritesAccounts) (long : ∀ thread, (calls thread).NamesLong)
    {pool : Pool Thread Command Reply Raised Response World}
    (reaches : Reaches handle (fun world _ command _ => world.KeepsUnsent command)
      ⟨World.empty, fun thread => (calls thread).program⟩ pool) :
    (∀ row ∈ pool.state.accounts, ∃ account, PostgresAccountRepo.toDomain row = .ok account ∧
        account.code = row.code ∧ account.name = row.name ∧ account.category = row.category) ∧
      (∀ thread command next env, pool.threads thread = .ask command next → env.fault = none →
        pool.state.KeepsUnsent command → LeavesWritten pool.state env command) ∧
      ∀ envs : Nat → Env, (envs 0).fault = none →
        (∃ view, AccountService.listAccounts.run handle envs pool.state = (.ok view, pool.state)) ∧
        ∃ chart, AccountService.getChart.run handle envs pool.state = (.ok chart, pool.state) ∧
          ∀ row ∈ pool.state.accounts, ∃ account,
            PostgresAccountRepo.toDomain row = .ok account ∧
            chart.getByCode row.code = some account ∧ chart.getByName row.name = some account := by
  have valid : (Pool.mk World.empty fun thread => (calls thread).program).Valid handle
      readableRegime (fun _ : Thread => readableTask) :=
    ⟨empty_readable, fun thread => readable_valid (writes thread) (long thread) _⟩
  obtain ⟨still, _⟩ := Reaches.valid valid reaches
  have readable : pool.state.Readable := still.invariant
  refine ⟨fun row member => ?_, fun thread command next env asks calm unsent => ?_,
    fun envs calm => readable.reads envs calm⟩
  · obtain ⟨account, rebuilt⟩ := readable.rebuilt row member
    exact ⟨account, rebuilt, readable.toDomain_fields member rebuilt⟩
  · exact (still.step_spec env asks unsent).2.1 calm

/-- A creation, a rename and a deletion next to each other. -/
def overlappingWrites : Fin 3 → Call
  | 0 =>
    .createAccount ((CreateAccountInput.accept "1000" " Cash " .asset).get (.refl true)) "alice"
  | 1 => .updateAccount ((UpdateAccountInput.accept "1000" "Bank" none).get (.refl true)) "bob"
  | 2 => .deleteAccount "1000" "carol"

theorem readable_of_overlappingWrites :
    ∃ pool : Pool (Fin 3) Command Reply Raised Response World,
      pool.state.accounts.map AccountModel.name = ["Bank"] ∧
      ∀ row ∈ pool.state.accounts, ∃ account, PostgresAccountRepo.toDomain row = .ok account ∧
        account.code = row.code ∧ account.name = row.name ∧ account.category = row.category := by
  refine ⟨_, ?_, (readable_of_reaches overlappingWrites (fun | 0 | 1 | 2 => trivial)
    (fun
      | 0 => (by decide +kernel : (strip " Cash ").length ≠ 1)
      | 1 => (by decide +kernel : ∀ name ∈ some "Bank", (strip name).length ≠ 1)
      | 2 => trivial)
    (reaches_execute (([0, 0, 0, 0, 1, 1, 2, 1, 1] : List (Fin 3)).map
      fun thread => (thread, Env.calm 1700000000000000)) (by decide +kernel))).1⟩
  decide +kernel

/-- A name of one character and a space, which the input accepts. -/
def shortName : Call :=
  .createAccount ((CreateAccountInput.accept "1000" "A " .asset).get (.refl true)) "alice"

/-- It is stored without its space. The row cannot be rebuilt, and reading the accounts raises. -/
theorem readable_fails_after_shortName :
    ∃ pool, Reaches handle (fun _ _ _ env => env.fault = none)
        ⟨World.empty, fun _ : Fin 1 => shortName.program⟩ pool ∧
      (∃ row ∈ pool.state.accounts, (PostgresAccountRepo.toDomain row).toOption = none) ∧
      (AccountService.listAccounts.run handle (fun _ => Env.calm 1700000000000000)
        pool.state).1.toOption = none ∧
      (AccountService.getChart.run handle (fun _ => Env.calm 1700000000000000)
        pool.state).1.toOption.isNone = true := by
  refine ⟨_, reaches_execute (List.replicate 4 (0, Env.calm 1700000000000000))
    (by decide +kernel), ?_⟩
  decide +kernel

end Trutina
