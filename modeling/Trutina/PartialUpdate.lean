/-
This file proves when partial updates of one account do not overwrite each
other. An update reads the account, merges its input into it, and later loads
the row again to send the columns that differ. A field the input omits is merged
from the first read, so it is sent, with an outdated value, when another update
has changed it before the second. If the row still has the omitted fields when
it is loaded, each update sends at most what it provides.
-/

import Trutina.AccountStore

namespace Trutina

open Interaction

/-- The row loaded for the flush has the values that were merged for the omitted fields. -/
def UpdateAccountInput.FindsOmitted (dto : UpdateAccountInput) : Command → Prop
  | .transact (.updateAccount loaded name _ category _) =>
    (dto.name = none → loaded.name = name) ∧ (dto.category = none → loaded.category = category)
  | _ => True

instance (dto : UpdateAccountInput) (command : Command) : Decidable (dto.FindsOmitted command) :=
  match command with
  | .transact (.updateAccount loaded name _ category _) =>
    inferInstanceAs (Decidable ((dto.name = none → loaded.name = name) ∧
      (dto.category = none → loaded.category = category)))
  | .transact (.insertAccount ..) => isTrue trivial
  | .transact (.deleteAccount ..) => isTrue trivial
  | .transact (.insertJournal ..) => isTrue trivial
  | .transact (.insertPostings ..) => isTrue trivial
  | .query _ => isTrue trivial
  | .nextval => isTrue trivial
  | .emit _ => isTrue trivial

/-- What a field may become: nothing else than what it was or what is provided for it. -/
def Becomes {Value : Type} (provided : Option Value) (before after : Value) : Prop :=
  after = before ∨ some after = provided

theorem Becomes.trans {Value : Type} {provided : Option Value} {first second third : Value}
    (left : Becomes provided first second) (right : Becomes provided second third) :
    Becomes provided first third := by
  rcases right with rfl | changed
  · exact left
  · exact .inr changed

/-- A field that has the provided value keeps it. -/
theorem Becomes.stable {Value : Type} {provided : Option Value} {before after : Value}
    (becomes : Becomes provided before after) (reached : some before = provided) :
    some after = provided := by
  rcases becomes with rfl | changed
  · exact reached
  · exact changed

/-- A sent column, whose value is the loaded one or a provided one, and a stored one that has
become what it may become: the write makes it at most what is provided, and a provided value is
stored. -/
theorem Becomes.sent {Value : Type} [DecidableEq Value] {provided : Option Value}
    {loaded stored new : Value} (becomes : Becomes provided loaded stored)
    (own : new = loaded ∨ some new = provided) :
    Becomes provided stored (if new = loaded then stored else new) ∧
      (some new = provided → (if new = loaded then stored else new) = new) := by
  by_cases same : new = loaded
  · rw [if_pos same]
    refine ⟨.inl rfl, fun given => ?_⟩
    exact Option.some.inj ((becomes.stable (same ▸ given)).trans given.symm)
  · rw [if_neg same]
    exact ⟨.inr (own.resolve_left same), fun _ => rfl⟩

section Update

variable {code : String} {name : Option String} {category : Option AccountCategory}
  {first second world after : World}

/-- Every row under the code stays, and its fields become at most what is provided. -/
def World.Progresses (code : String) (name : Option String) (category : Option AccountCategory)
    (before after : World) : Prop :=
  ∀ row ∈ before.accounts, row.code = code → ∃ later ∈ after.accounts, later.id = row.id ∧
    later.code = code ∧ Becomes name row.name later.name ∧
      Becomes category row.category later.category

theorem World.Progresses.refl (code : String) (name : Option String)
    (category : Option AccountCategory) (world : World) :
    world.Progresses code name category world :=
  fun row member same => ⟨row, member, rfl, same, .inl rfl, .inl rfl⟩

theorem World.Progresses.trans (left : first.Progresses code name category second)
    (right : second.Progresses code name category world) :
    first.Progresses code name category world := by
  intro row member same
  obtain ⟨middle, member', sameId, sameCode, becomesName, becomesCategory⟩ := left row member same
  obtain ⟨last, member'', sameId', sameCode', becomesName', becomesCategory'⟩ :=
    right middle member' sameCode
  exact ⟨last, member'', sameId'.trans sameId, sameCode', becomesName.trans becomesName',
    becomesCategory.trans becomesCategory'⟩

def partialRegime (code : String) (name : Option String) (category : Option AccountCategory) :
    Regime World where
  invariant := World.Identified
  evolves := World.Progresses code name category
  refl := World.Progresses.refl code name category
  trans := World.Progresses.trans

/-- The stored row under the code of an update has the values the update provides. -/
def World.Carries (world : World) (dto : UpdateAccountInput) : Prop :=
  ∃ row ∈ world.accounts, row.code = dto.code ∧
    (∀ given ∈ dto.name, cleanAccountName given = some row.name) ∧
      ∀ given ∈ dto.category, given = row.category

/-- No other update takes a provided value away. -/
theorem World.Carries.later {dto : UpdateAccountInput} (carries : world.Carries dto)
    (sameName : dto.name = none ∨ dto.name.bind cleanAccountName = name)
    (sameCategory : dto.category = none ∨ dto.category = category)
    (progressed : world.Progresses dto.code name category after) : after.Carries dto := by
  obtain ⟨row, member, code, carriesName, carriesCategory⟩ := carries
  obtain ⟨last, present, _, lastCode, becomesName, becomesCategory⟩ := progressed row member code
  refine ⟨last, present, lastCode, fun given provides => ?_, fun given provides => ?_⟩
  · have cleaned := carriesName given provides
    rw [Option.mem_def] at provides
    rw [provides, Option.bind_some] at sameName
    have reached := sameName.resolve_left (Option.some_ne_none _)
    rw [reached]
    exact (becomesName.stable (cleaned.symm.trans reached)).symm
  · obtain rfl := carriesCategory given provides
    have reached := provides.symm.trans
      (sameCategory.resolve_left fun missing => by rw [missing] at provides; cases provides)
    exact Option.some.inj (reached.trans (becomesCategory.stable reached).symm)

def partialTask (dto : UpdateAccountInput) : Task Command Reply Raised Response Env World where
  permits _ command _ := dto.FindsOmitted command
  shows _ _ _ _ := True
  ensures outcome world := ∀ response, outcome = .ok response → world.Carries dto

theorem partial_writesOnly (dto : UpdateAccountInput) (name : Option String)
    (category : Option AccountCategory) :
    WritesOnly (partialRegime dto.code name category) (partialTask dto) where
  reads _ _ _ _ := trivial
  logs _ _ _ _ := trivial
  faults _ _ _ _ _ := trivial
  fails _ _ _ := nofun
  logged _ _ holds :=
    ⟨holds.congr rfl rfl, fun row member same =>
      ⟨row, member, rfl, same, .inl rfl, .inl rfl⟩⟩

/-- What a flush leaves of a stored row that has the loaded id: the row with the changed columns,
whether or not a column was sent. -/
theorem mem_of_updateAccount_ok {loaded row : AccountModel} {newName nameKey : String}
    {newCategory : AccountCategory} {audit : AuditEventModel} {env : Env}
    (stored : row ∈ world.accounts) (same : row.id = loaded.id)
    (applied :
      (Transaction.updateAccount loaded newName nameKey newCategory audit).apply env world =
        .ok after) : loaded.overwrite newName nameKey newCategory row ∈ after.accounts := by
  rcases updateAccount_ok applied with ⟨⟨sameName, sameKey, sameCategory⟩, rfl⟩ | ⟨_, _, rfl⟩
  · simpa only [AccountModel.overwrite, if_pos sameName, if_pos sameKey, if_pos sameCategory]
      using stored
  · exact mem_overwriteAccounts.mpr (.inr ⟨row, stored, same, rfl⟩)

/-- One flush, when the omitted fields are as they were merged. -/
theorem partialUpdate_commits {dto : UpdateAccountInput} {updated existing : Account}
    {loaded : AccountModel} {audit : AuditEventModel} {env : Env}
    (sameName : dto.name = none ∨ dto.name.bind cleanAccountName = name)
    (sameCategory : dto.category = none ∨ dto.category = category)
    (built : Account.validate existing.code (dto.name.getD existing.name)
      (dto.category.getD existing.category) = .ok updated)
    (member : loaded ∈ second.accounts) (loadedCode : loaded.code = dto.code)
    (progressed : second.Progresses dto.code name category world) (identified : world.Identified)
    (finds : dto.FindsOmitted (.transact (.updateAccount loaded updated.name
      (accountLookupKey updated.name) updated.category audit)))
    (applied : (Transaction.updateAccount loaded updated.name (accountLookupKey updated.name)
      updated.category audit).apply env world = .ok after) :
    after.Identified ∧ world.Progresses dto.code name category after ∧
      after.Carries dto := by
  obtain ⟨_, ⟨clean, _⟩, categoryBuilt⟩ := Account.validate_eq_ok_iff.mp built
  obtain ⟨stored, present, sameId, sameCode, becomesName, becomesCategory⟩ :=
    progressed loaded member loadedCode
  have givenName : ∀ given, dto.name = some given →
      cleanAccountName given = some updated.name ∧ some updated.name = name := by
    intro given provides
    rw [provides, Option.bind_some] at sameName
    rw [provides, Option.getD_some] at clean
    exact ⟨clean, clean.symm.trans (sameName.resolve_left (Option.some_ne_none _))⟩
  have givenCategory : ∀ given, dto.category = some given →
      given = updated.category ∧ some updated.category = category := by
    intro given provides
    rw [provides] at sameCategory
    rw [provides, Option.getD_some] at categoryBuilt
    exact ⟨categoryBuilt.symm,
      categoryBuilt ▸ sameCategory.resolve_left (Option.some_ne_none _)⟩
  have ownName : updated.name = loaded.name ∨ some updated.name = name := by
    cases provides : dto.name with
    | none => exact .inl (finds.1 provides).symm
    | some given => exact .inr (givenName given provides).2
  have ownCategory : updated.category = loaded.category ∨ some updated.category = category := by
    cases provides : dto.category with
    | none => exact .inl (finds.2 provides).symm
    | some given => exact .inr (givenCategory given provides).2
  have sentName := becomesName.sent ownName
  have sentCategory := becomesCategory.sent ownCategory
  have kept := mem_of_updateAccount_ok present sameId applied
  refine ⟨identified.update applied, fun row rowMember rowCode => ?_, ?_⟩
  · rw [identified.eq_of_code rowMember present (rowCode.trans sameCode.symm)]
    exact ⟨_, kept, rfl, sameCode, sentName.1, sentCategory.1⟩
  · refine ⟨_, kept, sameCode, fun given provides => ?_, fun given provides => ?_⟩
    · obtain ⟨cleaned, reached⟩ := givenName given provides
      exact cleaned.trans (congrArg some (sentName.2 reached).symm)
    · obtain ⟨same, reached⟩ := givenCategory given provides
      exact same.trans (sentCategory.2 reached).symm

/-- A partial update keeps the regime, provided it is the one that provides its fields. -/
theorem partial_valid {dto : UpdateAccountInput} (actor : String)
    (sameName : dto.name = none ∨ dto.name.bind cleanAccountName = name)
    (sameCategory : dto.category = none ∨ dto.category = category) (world : World) :
    (Call.updateAccount dto actor).program.Valid handle
      (partialRegime dto.code name category) (partialTask dto) world := by
  refine updateAccount_valid (partial_writesOnly dto name category) dto actor Response.account ?_
  intro _ row existing _ _ _ rowCode rebuilt updated built second loaded _ _ member loadedCode
    later progressed identified env transaction finds
  have code : updated.code = dto.code := by
    rw [(Account.validate_eq_ok_iff.mp built).1, (Account.validate_eq_ok_iff.mp rebuilt).1, rowCode]
  exact
    { refused := fun _ _ => trivial
      committed := fun after applied => by
        obtain ⟨still, moved, carries⟩ := partialUpdate_commits sameName sameCategory built member
          (loadedCode.trans code) progressed identified finds applied
        exact ⟨still, moved, fun _ => trivial, fun _ further _ _ _ _ =>
          carries.later sameName sameCategory further⟩ }

end Update

/-! ### Disjoint partial updates next to each other -/

/-- Of fields that are pairwise disjoint, at most one is provided. -/
theorem exists_provided {Thread Value : Type} {fields : Thread → Option Value}
    (disjoint : ∀ first second, first ≠ second → fields first = none ∨ fields second = none) :
    ∃ provided, (∀ thread, fields thread = none ∨ fields thread = provided) ∧
      ((∀ thread, fields thread = none) → provided = none) := by
  by_cases absent : ∀ thread, fields thread = none
  · exact ⟨none, fun thread => .inl (absent thread), fun _ => rfl⟩
  · obtain ⟨owner, provides⟩ := not_forall.mp absent
    refine ⟨fields owner, fun thread => ?_, fun none => absurd (none owner) provides⟩
    by_cases same : thread = owner
    · exact .inr (congrArg fields same)
    · exact .inl ((disjoint thread owner same).resolve_right provides)

/-- In every run of updates of one account that provide pairwise disjoint fields, where each flush
finds the omitted fields as they were merged: once all have succeeded, the account has every
provided value, and a field that none provides is as it was. -/
theorem partialUpdates_kept {Thread : Type} [DecidableEq Thread]
    (dtos : Thread → UpdateAccountInput) (actors : Thread → String) {start : World}
    (identified : start.Identified) {row : AccountModel} (stored : row ∈ start.accounts)
    (codes : ∀ thread, (dtos thread).code = row.code)
    (names : ∀ first second, first ≠ second →
      (dtos first).name = none ∨ (dtos second).name = none)
    (categories : ∀ first second, first ≠ second →
      (dtos first).category = none ∨ (dtos second).category = none)
    {pool : Pool Thread Command Reply Raised Response World}
    (reaches : Reaches handle (fun _ thread command _ => (dtos thread).FindsOmitted command)
      ⟨start, fun thread => (Call.updateAccount (dtos thread) (actors thread)).program⟩ pool)
    (returned : ∀ thread, ∃ response, pool.threads thread = .done (.ok response)) :
    ∃ final ∈ pool.state.accounts, final.id = row.id ∧ final.code = row.code ∧
      (∀ other ∈ pool.state.accounts, other.code = row.code → other = final) ∧
      (∀ thread, ∀ given ∈ (dtos thread).name, cleanAccountName given = some final.name) ∧
      (∀ thread, ∀ given ∈ (dtos thread).category, final.category = given) ∧
      ((∀ thread, (dtos thread).name = none) → final.name = row.name) ∧
      ((∀ thread, (dtos thread).category = none) → final.category = row.category) := by
  obtain ⟨name, sameName, noName⟩ := exists_provided names
  obtain ⟨category, sameCategory, noCategory⟩ := exists_provided categories
  have cleanedName : ∀ thread, (dtos thread).name = none ∨
      (dtos thread).name.bind cleanAccountName = name.bind cleanAccountName :=
    fun thread => (sameName thread).imp_right fun same => by rw [same]
  have valid : (Pool.mk start fun thread =>
      (Call.updateAccount (dtos thread) (actors thread)).program).Valid handle
      (partialRegime row.code (name.bind cleanAccountName) category)
      (fun thread => partialTask (dtos thread)) := by
    refine ⟨identified, fun thread => ?_⟩
    rw [← codes thread]
    exact partial_valid (actors thread) (cleanedName thread) (sameCategory thread) start
  obtain ⟨still, progressed⟩ := Reaches.valid valid reaches
  have distinct : pool.state.Identified := still.invariant
  obtain ⟨final, present, sameId, sameCode, becomesName, becomesCategory⟩ :=
    progressed row stored rfl
  have carried : ∀ thread, (∀ given ∈ (dtos thread).name, cleanAccountName given =
      some final.name) ∧ ∀ given ∈ (dtos thread).category, given = final.category := by
    intro thread
    obtain ⟨response, finished⟩ := returned thread
    obtain ⟨last, member, lastCode, carries⟩ := still.ensures finished response rfl
    rwa [distinct.eq_of_code member present (lastCode.trans ((codes thread).trans sameCode.symm))]
      at carries
  refine ⟨final, present, sameId, sameCode, fun other member code =>
    distinct.eq_of_code member present (code.trans sameCode.symm),
    fun thread => (carried thread).1, fun thread given provides =>
      ((carried thread).2 given provides).symm, fun absent => ?_, fun absent => ?_⟩
  · rcases becomesName with same | provides
    · exact same
    · rw [noName absent] at provides
      cases provides
  · rcases becomesCategory with same | provides
    · exact same
    · rw [noCategory absent] at provides
      cases provides

/-- A store with one account. -/
def oneAccount : World :=
  { World.empty with
    accounts := [⟨1, "1000", "Cash", "cash", .asset⟩]
    nextAccountId := 2 }

/-- Two updates of it: one provides the name, the other the category. -/
def disjointUpdates : Fin 2 → UpdateAccountInput
  | 0 => (UpdateAccountInput.accept "1000" "Bank" none).get (.refl true)
  | 1 => (UpdateAccountInput.accept "1000" none (some .equity)).get (.refl true)

/-- When the second update first reads after the first has finished, both are stored. -/
theorem partialUpdates_kept_inTurn :
    ∃ pool : Pool (Fin 2) Command Reply Raised Response World,
      ∃ final ∈ pool.state.accounts, cleanAccountName "Bank" = some final.name ∧
        final.category = .equity := by
  obtain ⟨final, present, _, _, _, names, categories, _⟩ := partialUpdates_kept
    disjointUpdates (fun _ => "alice")
    (⟨by decide, by decide, by decide⟩ : oneAccount.Identified) List.mem_cons_self
    (fun | 0 | 1 => rfl) (by decide) (by decide)
    (reaches_execute (([0, 0, 0, 0, 0, 1, 1, 1, 1] : List (Fin 2)).map
      fun thread => (thread, Env.calm 1700000000000000)) (by decide +kernel))
    (fun thread => Program.succeeded_iff.mp (by revert thread; decide +kernel))
  exact ⟨_, final, present, names 0 _ rfl, categories 1 _ rfl⟩

/-- When it reads before the first is flushed and loads the row afterwards, it sends the old name
back: both have succeeded, and the provided name is lost. -/
theorem partialUpdates_lost :
    ∃ pool, Reaches handle (fun _ _ _ env => env.fault = none)
        ⟨oneAccount, fun thread => (Call.updateAccount (disjointUpdates thread) "alice").program⟩
        pool ∧
      (∀ thread, ∃ response, pool.threads thread = .done (.ok response)) ∧
      ¬∃ final ∈ pool.state.accounts, cleanAccountName "Bank" = some final.name := by
  refine ⟨_, reaches_execute_of_forall (([1, 0, 0, 0, 0, 0, 1, 1, 1] : List (Fin 2)).map
    fun thread => (thread, Env.calm 1700000000000000)) (List.forall_mem_map.mpr fun _ _ _ _ => rfl),
    fun thread => Program.succeeded_iff.mp (by revert thread; decide +kernel), by decide +kernel⟩

end Trutina
