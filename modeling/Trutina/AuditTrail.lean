/-
This file proves when the audit trail of the accounts is faithful. Each write
transaction of the account repository loads a row, changes it and appends an
event, and other transactions may commit in between. An update that sends a
column fails when its row is gone, but a deletion of a row that is gone only
warns, and an update that sends no column does not look at the table: both
record what did not happen. Apart from these, the events of a code follow the
life of the account, and every success appends exactly one event.
-/

import Trutina.AccountStore

namespace Trutina

open Interaction
open scoped Computability

/-! ### The life of an account -/

/-- One event of a code: whether an account has the code before and after it. -/
def AuditAction.step : Bool → AuditAction → Option Bool
  | false, .create => some true
  | true, .update => some true
  | true, .delete => some false
  | _, _ => none

/-- Whether an account is left at the end of a trail, if the trail is possible at all. -/
def AuditAction.follow (present : Bool) (trail : List AuditAction) : Option Bool :=
  trail.foldlM AuditAction.step present

/-- A whole life: a creation, any number of updates and a deletion. -/
def lifecycle : Language AuditAction := {[.create]} * {[.update]}∗ * {[.delete]}

theorem follow_append (present : Bool) (first second : List AuditAction) :
    AuditAction.follow present (first ++ second) =
      (AuditAction.follow present first).bind fun middle => AuditAction.follow middle second :=
  List.foldlM_append

theorem updates_mem (count : Nat) :
    List.replicate count AuditAction.update ∈ ({[.update]}∗ : Language AuditAction) := by
  refine Language.mem_kstar.mpr ⟨List.replicate count [.update], ?_, fun event member => ?_⟩
  · induction count with
    | zero => rfl
    | succ count inductionHypothesis =>
      rw [List.replicate_succ, inductionHypothesis, List.replicate_succ, List.flatten_cons,
        List.singleton_append]
  · exact List.eq_of_mem_replicate member

theorem lifecycle_mem (count : Nat) :
    AuditAction.create :: List.replicate count .update ++ [.delete] ∈ lifecycle :=
  Language.mem_mul.mpr ⟨_, Language.mem_mul.mpr ⟨[.create], rfl, _, updates_mem count, rfl⟩,
    [.delete], rfl, rfl⟩

theorem kstar_append {Symbol : Type} {language : Language Symbol} {first second : List Symbol}
    (left : first ∈ language∗) (right : second ∈ language) : first ++ second ∈ language∗ := by
  obtain ⟨words, rfl, members⟩ := Language.mem_kstar.mp left
  refine Language.mem_kstar.mpr ⟨words ++ [second], by simp, fun word member => ?_⟩
  rcases List.mem_append.mp member with earlier | last
  · exact members word earlier
  · rwa [List.mem_singleton.mp last]

/-- A trail that ends without an account consists of whole lives; one that ends with an account
has, after whole lives, a creation and updates. -/
theorem lives_of_follow {trail : List AuditAction} {present : Bool}
    (follows : AuditAction.follow false trail = some present) :
    (present = false → trail ∈ lifecycle∗) ∧
      (present = true → ∃ past ∈ lifecycle∗, ∃ count,
        trail = past ++ .create :: List.replicate count .update) := by
  induction trail using List.reverseRecOn generalizing present with
  | nil =>
    obtain rfl := Option.some.inj follows
    exact ⟨fun _ => Language.nil_mem_kstar _, nofun⟩
  | append_singleton trail event inductionHypothesis =>
    rw [follow_append] at follows
    obtain ⟨before, follows, stepped⟩ := Option.bind_eq_some_iff.mp follows
    obtain ⟨dead, alive⟩ := inductionHypothesis follows
    have stepped : AuditAction.step before event = some present := by
      simpa [AuditAction.follow] using stepped
    cases before <;> cases event <;> cases stepped
    · exact ⟨nofun, fun _ => ⟨trail, dead rfl, 0, rfl⟩⟩
    · obtain ⟨past, lives, count, rfl⟩ := alive rfl
      refine ⟨nofun, fun _ => ⟨past, lives, count + 1, ?_⟩⟩
      rw [List.replicate_succ', List.append_assoc, List.cons_append]
    · obtain ⟨past, lives, count, rfl⟩ := alive rfl
      refine ⟨fun _ => ?_, nofun⟩
      rw [List.append_assoc]
      exact kstar_append lives (lifecycle_mem count)

theorem follow_updates (count : Nat) :
    AuditAction.follow true (List.replicate count .update) = some true := by
  induction count with
  | zero => rfl
  | succ count inductionHypothesis => exact inductionHypothesis

theorem follow_of_lifecycle {life : List AuditAction} (member : life ∈ lifecycle) :
    AuditAction.follow false life = some false := by
  obtain ⟨_, started, _, rfl, rfl⟩ := Language.mem_mul.mp member
  obtain ⟨_, rfl, updates, changed, rfl⟩ := Language.mem_mul.mp started
  obtain ⟨words, rfl, members⟩ := Language.mem_kstar.mp changed
  have only : words.flatten = List.replicate words.length .update := by
    refine List.eq_replicate_iff.mpr ⟨?_, fun event present => ?_⟩
    · rw [List.length_flatten, List.map_congr_left (g := fun _ => 1)]
      · simp
      · exact fun word present => congrArg List.length (members word present)
    · obtain ⟨word, present, inside⟩ := List.mem_flatten.mp present
      rw [members word present] at inside
      exact List.mem_singleton.mp inside
  rw [only, follow_append, follow_append]
  simp only [show AuditAction.follow false [.create] = some true from rfl, Option.bind_some,
    follow_updates]
  rfl

/-- The trails that can be followed are the prefixes of sequences of lives. -/
theorem follow_isSome_iff {trail : List AuditAction} :
    (AuditAction.follow false trail).isSome = true ↔ ∃ rest, trail ++ rest ∈ lifecycle∗ := by
  constructor
  · intro follows
    obtain ⟨present, followed⟩ := Option.isSome_iff_exists.mp follows
    obtain ⟨dead, alive⟩ := lives_of_follow followed
    cases present with
    | false => exact ⟨[], by simpa using dead rfl⟩
    | true =>
      obtain ⟨past, lives, count, rfl⟩ := alive rfl
      refine ⟨[.delete], ?_⟩
      rw [List.append_assoc]
      exact kstar_append lives (lifecycle_mem count)
  · rintro ⟨rest, member⟩
    have whole : AuditAction.follow false (trail ++ rest) = some false := by
      obtain ⟨words, flat, members⟩ := Language.mem_kstar.mp member
      rw [flat]
      clear flat
      induction words with
      | nil => rfl
      | cons word words inductionHypothesis =>
        rw [List.flatten_cons, follow_append,
          follow_of_lifecycle (members word List.mem_cons_self), Option.bind_some]
        exact inductionHypothesis fun other present =>
          members other (List.mem_cons_of_mem _ present)
    rw [follow_append] at whole
    obtain ⟨_, followed, _⟩ := Option.bind_eq_some_iff.mp whole
    rw [followed]
    rfl

/-- An account is left exactly when the last event is a creation or an update. -/
theorem follow_last {trail : List AuditAction} {present : Bool}
    (follows : AuditAction.follow false trail = some present) :
    present = true ↔ trail.getLast? = some .create ∨ trail.getLast? = some .update := by
  induction trail using List.reverseRecOn with
  | nil =>
    obtain rfl := Option.some.inj follows
    simp
  | append_singleton trail event _ =>
    rw [follow_append] at follows
    obtain ⟨before, _, stepped⟩ := Option.bind_eq_some_iff.mp follows
    have stepped : AuditAction.step before event = some present := by
      simpa [AuditAction.follow] using stepped
    rw [List.getLast?_concat]
    cases before <;> cases event <;> cases stepped <;> simp

/-- A trail that creates no account deletes the one that was there, or none. -/
theorem count_delete {trail : List AuditAction} {present final : Bool}
    (follows : AuditAction.follow present trail = some final) (creates : .create ∉ trail) :
    trail.count .delete + final.toNat = present.toNat := by
  induction trail generalizing present with
  | nil =>
    rw [Option.some.inj follows, List.count_nil, Nat.zero_add]
  | cons event trail inductionHypothesis =>
    obtain ⟨first, rest⟩ := not_or.mp (List.mem_cons.not.mp creates)
    obtain ⟨middle, stepped, follows⟩ := Option.bind_eq_some_iff.mp
      (show (AuditAction.step present event).bind (AuditAction.follow · trail) = some final
        from follows)
    have balance := inductionHypothesis follows rest
    cases present <;> cases event <;> cases stepped
    · exact absurd rfl first
    · rwa [List.count_cons_of_ne (by decide)]
    · rw [List.count_cons_self, Nat.add_right_comm, balance]
      rfl

/-! ### Writes of the repository -/

/-- A write of the account repository. -/
inductive AccountWrite where
  | create (account : Account) (createdBy : String)
  | update (account : Account) (createdBy : String)
  | delete (code createdBy : String)

/-- The program a write runs. -/
def AccountWrite.program : AccountWrite → Action Unit
  | .create account createdBy => PostgresAccountRepo.create account createdBy
  | .update account createdBy => PostgresAccountRepo.update account createdBy
  | .delete code createdBy => PostgresAccountRepo.deleteByCode code createdBy

/-- The event a write records. -/
def AccountWrite.event : AccountWrite → AuditEventModel
  | .create account createdBy => auditRow .create account.code createdBy
  | .update account createdBy => auditRow .update account.code createdBy
  | .delete code createdBy => auditRow .delete code createdBy

/-- Whether a write deletes the account with a code. -/
def AccountWrite.deletes (code : String) : AccountWrite → Bool
  | .create _ _ => false
  | .update _ _ => false
  | .delete other _ => other == code

/-- A write deletes the account with a code when its event says so. -/
theorem AccountWrite.deletes_eq (code : String) (write : AccountWrite) :
    write.deletes code = (write.event.action == .delete &&
      (write.event.entity == "account" && write.event.entityKey == code)) := by
  cases write <;> simp [AccountWrite.deletes, AccountWrite.event, auditRow]

/-- The events of one account code, in commit order. -/
def World.trail (world : World) (code : String) : List AuditAction :=
  (world.auditEvents.filter fun event => event.entity == "account" && event.entityKey == code).map
    AuditEventModel.action

/-- Whether an account has the code. -/
def World.has (world : World) (code : String) : Bool :=
  world.accounts.any fun row => row.code == code

/-- Each trail leads to the presence of its account. -/
structure World.Audited (world : World) : Prop extends world.Identified where
  trails : ∀ code, AuditAction.follow false (world.trail code) = some (world.has code)

/-- A flush that may send nothing or delete nothing finds the row it loaded. -/
def World.FindsStored (world : World) : Command → Prop
  | .transact (.updateAccount loaded name nameKey category _) =>
    name = loaded.name ∧ nameKey = loaded.nameKey ∧ category = loaded.category →
      ∃ row ∈ world.accounts, row.id = loaded.id
  | .transact (.deleteAccount loaded _) => ∃ row ∈ world.accounts, row.id = loaded.id
  | _ => True

instance (world : World) (command : Command) : Decidable (world.FindsStored command) :=
  match command with
  | .transact (.updateAccount loaded name nameKey category _) =>
    inferInstanceAs (Decidable (name = loaded.name ∧ nameKey = loaded.nameKey ∧
      category = loaded.category → ∃ row ∈ world.accounts, row.id = loaded.id))
  | .transact (.deleteAccount loaded _) =>
    inferInstanceAs (Decidable (∃ row ∈ world.accounts, row.id = loaded.id))
  | .transact (.insertAccount ..) => isTrue trivial
  | .transact (.insertJournal ..) => isTrue trivial
  | .transact (.insertPostings ..) => isTrue trivial
  | .query _ => isTrue trivial
  | .nextval => isTrue trivial
  | .emit _ => isTrue trivial

section Trails

variable {world after : World}

/-- One appended event moves its own trail, and no other. -/
theorem trail_append {action : AuditAction} {code actor : String}
    (appended : after.auditEvents = world.auditEvents ++ [auditRow action code actor])
    (other : String) :
    after.trail other = world.trail other ++ if code = other then [action] else [] := by
  rw [World.trail, appended, List.filter_append, List.map_append, World.trail]
  refine congrArg _ ?_
  by_cases same : code = other <;> simp [auditRow, same]

/-- The trails after an event that changes the presence of its account as its action says. -/
theorem World.Audited.append (audited : world.Audited) (identified : after.Identified)
    {action : AuditAction} {code actor : String}
    (appended : after.auditEvents = world.auditEvents ++ [auditRow action code actor])
    (others : ∀ other, other ≠ code → after.has other = world.has other)
    (own : AuditAction.step (world.has code) action = some (after.has code)) : after.Audited where
  toIdentified := identified
  trails other := by
    rw [trail_append appended, follow_append, audited.trails, Option.bind_some]
    by_cases same : code = other
    · subst same
      rw [if_pos rfl, ← own]
      simp [AuditAction.follow]
    · rw [if_neg same, others other (Ne.symm same)]
      rfl

theorem has_iff {code : String} :
    world.has code = true ↔ ∃ row ∈ world.accounts, row.code = code := by
  simp only [World.has, List.any_eq_true, beq_iff_eq]

theorem has_congr (codes : after.accounts.map AccountModel.code =
    world.accounts.map AccountModel.code) (code : String) : after.has code = world.has code := by
  have mapped : ∀ rows : List AccountModel,
      (rows.any fun row => row.code == code) = (rows.map AccountModel.code).any (· == code) :=
    fun rows => by rw [List.any_map]; rfl
  rw [World.has, World.has, mapped, mapped, codes]

theorem has_insert {code name nameKey : String} {category : AccountCategory}
    {audit : AuditEventModel} {env : Env}
    (applied : (Transaction.insertAccount code name nameKey category audit).apply env world =
      .ok after) :
    world.has code = false ∧ after.has code = true ∧
      ∀ other, other ≠ code → after.has other = world.has other := by
  obtain ⟨free, _, rfl⟩ := insertAccount_ok applied
  refine ⟨Bool.eq_false_iff.mpr fun taken => ?_, ?_, fun other different => ?_⟩
  · obtain ⟨row, member, same⟩ := has_iff.mp taken
    exact free row member same
  · exact has_iff.mpr ⟨_, List.mem_append_right _ List.mem_cons_self, rfl⟩
  · simp [World.has, Ne.symm different]

theorem has_update {loaded : AccountModel} {name nameKey : String} {category : AccountCategory}
    {audit : AuditEventModel} {env : Env}
    (applied : (Transaction.updateAccount loaded name nameKey category audit).apply env world =
      .ok after) (code : String) : after.has code = world.has code := by
  rcases updateAccount_ok applied with ⟨_, rfl⟩ | ⟨_, _, rfl⟩
  · rfl
  · exact has_congr (map_overwriteAccounts fun _ => rfl) code

theorem has_delete {loaded row : AccountModel} {audit : AuditEventModel} {env : Env}
    (identified : world.Identified) (member : row ∈ world.accounts) (same : row.id = loaded.id)
    (applied : (Transaction.deleteAccount loaded audit).apply env world = .ok after) :
    after.has row.code = false ∧
      ∀ other, other ≠ row.code → after.has other = world.has other := by
  rw [deleteAccount_ok applied]
  refine ⟨Bool.eq_false_iff.mpr fun present => ?_, fun other different => ?_⟩
  · obtain ⟨left, stays, code⟩ := has_iff.mp present
    obtain ⟨stored, other⟩ := List.mem_filter.mp stays
    rw [identified.eq_of_code stored member code, same] at other
    simp at other
  · refine Bool.eq_iff_iff.mpr (has_iff.trans (Iff.trans ?_ has_iff.symm))
    constructor
    · rintro ⟨left, stays, code⟩
      exact ⟨left, List.mem_of_mem_filter stays, code⟩
    · rintro ⟨left, stored, code⟩
      refine ⟨left, List.mem_filter.mpr ⟨stored, bne_iff_ne.mpr fun equal => ?_⟩, code⟩
      rw [identified.eq_of_id stored member (equal.trans same.symm)] at code
      exact different code.symm

end Trails

/-! ### Account writes next to each other -/

/-- With a code in focus, no account appears under it. -/
def auditRegime (focus : Option String) : Regime World where
  invariant := World.Audited
  evolves before after := before.KeepsCodes after ∧
    ∀ code ∈ focus, before.has code = false → after.has code = false
  refl world := ⟨.refl world, fun _ _ absent => absent⟩
  trans left right := ⟨left.1.trans right.1, fun code focused absent =>
    right.2 code focused (left.2 code focused absent)⟩

/-- Each step appends the event of the write when it ends the write with success, and nothing
otherwise. With a code in focus, and no failures, its deletions end without the account. -/
def auditTask (focus : Option String) (write : AccountWrite) :
    Task Command Reply Raised Unit Env World where
  permits world command env := world.FindsStored command ∧ (focus.isSome = true → env.fault = none)
  shows world command env next := (handle command env world).2.auditEvents =
    world.auditEvents ++ if next.succeeded then [write.event] else []
  ensures outcome world := ∀ code ∈ focus, (∃ createdBy, write = .delete code createdBy) →
    (outcome = .ok () ∨ outcome = .error (AccountService.unknownAccount code)) ∧
      world.has code = false

section Writes

variable {focus : Option String} {write : AccountWrite} {world after : World}

/-- An error is harmless unless it ends a deletion of the code in focus. -/
theorem audit_harmless {command : Command} {error : Raised}
    (promised : ∀ code ∈ focus, ∀ createdBy, write ≠ .delete code createdBy) :
    Harmless (auditTask focus write) command error where
  shows world env still := by
    simp only [auditTask, still, Program.succeeded, Bool.false_eq_true, if_false, List.append_nil]
  ensures _ code focused := fun ⟨createdBy, same⟩ => absurd same (promised code focused createdBy)

/-- A failure is only permitted without a focus. -/
theorem audit_fault_harmless {env : Env} {fault : Fault} {command : Command} {error : Raised}
    (permitted : focus.isSome = true → env.fault = none) (failed : env.fault = some fault) :
    Harmless (auditTask focus write) command error := by
  refine audit_harmless fun code focused => ?_
  rw [permitted (by rw [focused]; rfl)] at failed
  cases failed

/-- The transaction of a write. A refused one must not be a deletion of the code in focus, and a
committed one appends the event of the write. -/
theorem audit_commit {transaction : Transaction} {onViolation : Option String → Raised}
    (refused : ∀ later env error, transaction.apply env later = .error error →
      ∀ code ∈ focus, ∀ createdBy, write ≠ .delete code createdBy)
    (committed : ∀ later env after, (auditRegime focus).evolves world later → later.Audited →
      later.FindsStored (.transact transaction) → transaction.apply env later = .ok after →
      after.Audited ∧ (auditRegime focus).evolves later after ∧
        after.auditEvents = later.auditEvents ++ [write.event] ∧
        ∀ code ∈ focus, (∃ createdBy, write = .delete code createdBy) → after.has code = false) :
    (commitOr onViolation transaction).Valid handle (auditRegime focus) (auditTask focus write)
      world := by
  rw [← Program.bind_pure (commitOr onViolation transaction)]
  refine valid_commitOr_bind (fun later env fault permitted failed => ?_)
    (fun later _ _ env _ constraint calm violated => ?_)
    (fun later evolved audited env permitted after calm applied => ?_)
  · rcases failed with failed | failed
    · exact audit_fault_harmless permitted.2 failed
    · exact audit_harmless (refused later env _ failed)
  · exact (audit_harmless (refused later env _ violated)).continues
      (handle_transact_failed (.inr ⟨_, violated⟩)) _
  · obtain ⟨still, moved, appended, gone⟩ :=
      committed later env after evolved audited permitted.1 applied
    refine ⟨still, moved, ?_, Program.valid_done fun last further _ code focused deletes => ?_⟩
    · simpa only [auditTask, handle, calm, applied, Program.succeeded, if_true] using appended
    · exact ⟨.inl rfl, further.2 code focused (gone code focused deletes)⟩

theorem create_audited {account : Account} {createdBy : String}
    (other : ∀ code ∈ focus, account.code ≠ code) (world : World) :
    (AccountWrite.create account createdBy).program.Valid handle (auditRegime focus)
      (auditTask focus (.create account createdBy)) world := by
  refine audit_commit (fun _ _ _ _ _ _ _ same => by cases same)
    fun later env after _ audited _ applied => ?_
  obtain ⟨absent, present, others⟩ := has_insert applied
  have appended : after.auditEvents = later.auditEvents ++
      [auditRow .create account.code createdBy] := by
    rw [(insertAccount_ok applied).2.2]
  refine ⟨audited.append (audited.toIdentified.insert applied) appended others
    (by rw [absent, present]; rfl), ⟨.insert applied, fun code focused free => ?_⟩, appended,
    fun _ _ ⟨_, same⟩ => by cases same⟩
  rwa [others code (Ne.symm (other code focused))]

theorem update_audited {account : Account} {createdBy : String} (world : World) :
    (AccountWrite.update account createdBy).program.Valid handle (auditRegime focus)
      (auditTask focus (.update account createdBy)) world := by
  have harmless : ∀ command error,
      Harmless (auditTask focus (.update account createdBy)) command error :=
    fun _ _ => audit_harmless fun _ _ _ same => by cases same
  simp only [AccountWrite.program, PostgresAccountRepo.update, PostgresAccountRepo.load, bind_assoc]
  refine valid_execute_bind (fun _ _ _ _ _ => harmless _ _) fun later _ audited env _ => ?_
  refine continues_lift_bind (handle_query_state _ _ _) (fun _ _ => harmless _ _)
    fun found loads => ?_
  cases found with
  | none => exact (harmless _ _).continues (handle_query_state _ _ _) _
  | some loaded =>
    obtain ⟨loadedMember, loadedCode⟩ := mem_of_accountsByCode loads
    refine ⟨?_, audit_commit (fun _ _ _ _ _ _ _ same => by cases same) ?_⟩
    · simp [auditTask, commitOr_eq, Program.succeeded]
    intro last env after evolved still finds applied
    have present : last.has account.code = true := by
      obtain ⟨row, member, same⟩ : ∃ row ∈ last.accounts, row.id = loaded.id := by
        rcases updateAccount_ok applied with ⟨unchanged, _⟩ | ⟨stored, _⟩
        · exact finds unchanged
        · exact stored
      exact has_iff.mpr ⟨row, member, (audited.code_of_id evolved.1 loadedMember member same).trans
        loadedCode⟩
    have appended : after.auditEvents = last.auditEvents ++
        [auditRow .update account.code createdBy] := by
      rcases updateAccount_ok applied with ⟨_, rfl⟩ | ⟨_, _, rfl⟩ <;> rfl
    refine ⟨still.append (still.toIdentified.update applied) appended
      (fun other _ => has_update applied other) (by rw [has_update applied, present]; rfl),
      ⟨.update applied, fun code _ free => ?_⟩, appended, fun _ _ deletes => by
        obtain ⟨_, same⟩ := deletes
        cases same⟩
    rwa [has_update applied]

theorem delete_audited {code createdBy : String} (world : World) :
    (AccountWrite.delete code createdBy).program.Valid handle (auditRegime focus)
      (auditTask focus (.delete code createdBy)) world := by
  simp only [AccountWrite.program, PostgresAccountRepo.deleteByCode, PostgresAccountRepo.load,
    bind_assoc]
  refine valid_execute_bind (fun _ _ _ permitted failed => audit_fault_harmless permitted.2 failed)
    fun later _ audited env _ => ?_
  obtain ⟨found, loads, absent⟩ := accountsByCode_loads audited.toIdentified env code
  rw [loads, Program.lift_eq, Program.ok_bind]
  cases found with
  | none =>
    refine ⟨?_, Program.valid_done fun last further _ other focused deletes => ?_⟩
    · simp [auditTask, handle_query_state, Program.succeeded]
    · obtain ⟨_, same⟩ := deletes
      cases same
      refine ⟨.inr rfl, further.2 code focused (Bool.eq_false_iff.mpr fun present => ?_)⟩
      obtain ⟨row, member, same⟩ := has_iff.mp present
      exact absent rfl row member same
  | some loaded =>
    obtain ⟨loadedMember, loadedCode⟩ := mem_of_accountsByCode loads
    refine ⟨?_, audit_commit (fun _ _ _ refused => absurd refused deleteAccount_not_refused) ?_⟩
    · simp [auditTask, commitOr_eq, Program.succeeded]
    intro last env after evolved still finds applied
    obtain ⟨row, member, same⟩ := finds
    obtain rfl : row.code = code :=
      (audited.code_of_id evolved.1 loadedMember member same).trans loadedCode
    obtain ⟨gone, others⟩ := has_delete still.toIdentified member same applied
    have appended : after.auditEvents = last.auditEvents ++
        [auditRow .delete row.code createdBy] := by
      rw [deleteAccount_ok applied]
    refine ⟨still.append (still.toIdentified.delete applied) appended others
      (by rw [has_iff.mpr ⟨row, member, rfl⟩, gone]; rfl), ⟨.delete applied,
      fun other _ free => ?_⟩, appended, fun _ _ deletes => ?_⟩
    swap
    · obtain ⟨_, same⟩ := deletes
      cases same
      exact gone
    by_cases own : other = row.code
    · rwa [own]
    · rwa [others other own]

end Writes

theorem write_audited {focus : Option String} {write : AccountWrite}
    (creates : ∀ code ∈ focus, ∀ account createdBy, write = .create account createdBy →
      account.code ≠ code) (world : World) :
    write.program.Valid handle (auditRegime focus) (auditTask focus write) world := by
  cases write with
  | create account createdBy =>
    exact create_audited (fun code focused => creates code focused account createdBy rfl) world
  | update account createdBy => exact update_audited world
  | delete code createdBy => exact delete_audited world

/-- The writes of a pool that have succeeded, in the order of their events. -/
structure Winners {Thread : Type} (writes : Thread → AccountWrite) (start : World)
    (pool : Pool Thread Command Reply Raised Unit World) (winners : List Thread) : Prop where
  distinct : winners.Nodup
  events : pool.state.auditEvents =
    start.auditEvents ++ winners.map fun thread => (writes thread).event
  succeeded : ∀ thread, thread ∈ winners ↔ pool.threads thread = .done (.ok ())

theorem succeeded_unit_iff {program : Action Unit} :
    program.succeeded = true ↔ program = .done (.ok ()) :=
  Program.succeeded_iff.trans ⟨fun ⟨(), same⟩ => same, fun same => ⟨(), same⟩⟩

section Pools

variable {Thread : Type} [DecidableEq Thread] {focus : Option String}
  {writes : Thread → AccountWrite} {start : World}
  {pool : Pool Thread Command Reply Raised Unit World}

omit [DecidableEq Thread] in
theorem pool_audited (audited : start.Audited)
    (creates : ∀ code ∈ focus, ∀ thread account createdBy,
      writes thread = .create account createdBy → account.code ≠ code) :
    (Pool.mk start fun thread => (writes thread).program).Valid handle (auditRegime focus)
      (fun thread => auditTask focus (writes thread)) :=
  ⟨audited, fun thread => write_audited (fun code focused => creates code focused thread) start⟩

/-- Every success appends exactly one event, and nothing else appends any. -/
theorem winners_of_reaches (audited : start.Audited)
    (creates : ∀ code ∈ focus, ∀ thread account createdBy,
      writes thread = .create account createdBy → account.code ≠ code)
    (reaches : Reaches handle (fun world thread => (auditTask focus (writes thread)).permits world)
      ⟨start, fun thread => (writes thread).program⟩ pool) :
    ∃ winners, Winners writes start pool winners := by
  induction reaches with
  | refl =>
    refine ⟨[], List.nodup_nil, (List.append_nil _).symm, fun thread => ?_⟩
    rw [← succeeded_unit_iff, show (writes thread).program.succeeded = false by
      cases writes thread <;> rfl]
    simp
  | @step current thread command next before env asks permitted inductionHypothesis =>
    obtain ⟨winners, distinct, events, succeeded⟩ := inductionHypothesis
    obtain ⟨_, shown, _⟩ :=
      (Reaches.valid (pool_audited audited creates) before).1.step_spec env asks permitted
    have pending : thread ∉ winners := by
      rw [succeeded, asks]
      nofun
    have others : ∀ other, other ≠ thread →
        (current.step handle thread env).threads other = current.threads other := fun other no => by
      rw [Pool.step_of_ask asks]
      exact Function.update_of_ne no _ _
    have own : (current.step handle thread env).threads thread =
        next (handle command env current.state).1 := by
      rw [Pool.step_of_ask asks]
      exact Function.update_self _ _ _
    have shown : (current.step handle thread env).state.auditEvents = current.state.auditEvents ++
        if (next (handle command env current.state).1).succeeded then [(writes thread).event]
        else [] := by
      rw [Pool.step_of_ask asks]
      exact shown
    cases ended : (next (handle command env current.state).1).succeeded with
    | true =>
      rw [ended, if_pos rfl, events, List.append_assoc] at shown
      refine ⟨winners ++ [thread], List.nodup_append.mpr ⟨distinct, List.nodup_singleton _, ?_⟩,
        by rw [shown, List.map_append, List.map_singleton], fun other => ?_⟩
      · rintro winner member other single rfl
        rw [List.mem_singleton.mp single] at member
        exact pending member
      · rw [List.mem_append, List.mem_singleton]
        by_cases same : other = thread
        · subst same
          rw [own, succeeded_unit_iff.mp ended]
          simp
        · rw [others other same, ← succeeded]
          simp [same]
    | false =>
      rw [ended] at shown
      refine ⟨winners, distinct, by simpa [events] using shown, fun other => ?_⟩
      by_cases same : other = thread
      · subst same
        rw [own, ← succeeded_unit_iff, ended]
        simp [pending]
      · rw [others other same, succeeded]

omit [DecidableEq Thread] in
/-- When no account is created under a code that an account has, the account is deleted once or
still there. -/
theorem deletions_of_winners {winners : List Thread} {code : String} (audited : start.Audited)
    (still : pool.state.Audited) (won : Winners writes start pool winners)
    (creates : ∀ thread account createdBy, writes thread = .create account createdBy →
      account.code ≠ code) (stored : start.has code = true) :
    (winners.countP fun thread => (writes thread).deletes code) + (pool.state.has code).toNat =
      1 := by
  have follows := still.trails code
  rw [World.trail, won.events, List.filter_append, List.map_append, follow_append, ← World.trail,
    audited.trails, stored, Option.bind_some] at follows
  refine Eq.trans ?_ (count_delete follows fun member => ?_)
  · rw [List.count_eq_countP, List.countP_map, List.countP_filter, List.countP_map]
    refine congrArg (· + _) (List.countP_congr fun thread _ => ?_)
    rw [AccountWrite.deletes_eq]
    rfl
  · obtain ⟨_, listed, action⟩ := List.mem_map.mp member
    obtain ⟨mapped, own⟩ := List.mem_filter.mp listed
    obtain ⟨thread, _, rfl⟩ := List.mem_map.mp mapped
    cases write : writes thread with
    | create account createdBy =>
      rw [write] at own
      exact creates thread account createdBy write
        (by simpa [AccountWrite.event, auditRow] using own)
    | update | delete =>
      rw [write] at action
      cases action

end Pools

/-- In every run of account writes whose flushes find what they may leave untouched: the events of
each code are a prefix of whole lives, the account exists exactly when the last one is a creation
or an update, and the new events are those of the successful writes, one for each. If an account
exists, none is created under its code and nothing fails, then exactly one of its deletions
succeeds, and the others report that it is unknown. -/
theorem auditTrail_of_reaches {Thread : Type} [DecidableEq Thread] (writes : Thread → AccountWrite)
    {start : World} (audited : start.Audited) :
    (∀ pool, Reaches handle (fun world _ command _ => world.FindsStored command)
        ⟨start, fun thread => (writes thread).program⟩ pool →
      (∀ code, (∃ rest, pool.state.trail code ++ rest ∈ lifecycle∗) ∧
        ((∃ row ∈ pool.state.accounts, row.code = code) ↔
          (pool.state.trail code).getLast? = some .create ∨
            (pool.state.trail code).getLast? = some .update)) ∧
      ∃ winners, Winners writes start pool winners) ∧
    ∀ code, (∃ row ∈ start.accounts, row.code = code) →
      (∀ thread account createdBy, writes thread = .create account createdBy →
        account.code ≠ code) →
      ∀ pool, Reaches handle
          (fun world _ command env => world.FindsStored command ∧ env.fault = none)
          ⟨start, fun thread => (writes thread).program⟩ pool →
        (∃ thread, (writes thread).deletes code = true) →
        (∀ thread, (writes thread).deletes code = true →
          ∃ outcome, pool.threads thread = .done outcome) →
        ∃ winner, (writes winner).deletes code = true ∧ pool.threads winner = .done (.ok ()) ∧
          ∀ other, (writes other).deletes code = true → other ≠ winner →
            pool.threads other =
              .done (.error (AppError.notFound .unknownAccount "account" code)) := by
  have unfocused : ∀ code ∈ (none : Option String), ∀ thread account createdBy,
      writes thread = .create account createdBy → account.code ≠ code :=
    fun _ focused => by cases focused
  constructor
  · intro pool reaches
    have reaches : Reaches handle (fun world thread =>
        (auditTask none (writes thread)).permits world)
        ⟨start, fun thread => (writes thread).program⟩ pool :=
      reaches.mono fun _ _ _ _ finds => ⟨finds, fun focused => by cases focused⟩
    have still : pool.state.Audited :=
      (Reaches.valid (pool_audited audited unfocused) reaches).1.invariant
    refine ⟨fun code => ⟨?_, ?_⟩, winners_of_reaches audited unfocused reaches⟩
    · exact follow_isSome_iff.mp (by rw [still.trails]; rfl)
    · rw [← has_iff]
      exact follow_last (still.trails code)
  · intro code stored creates pool reaches some_deletes returned
    have focused : ∀ focus ∈ some code, ∀ thread account createdBy,
        writes thread = .create account createdBy → account.code ≠ focus := by
      rintro _ ⟨⟩
      exact creates
    have reaches : Reaches handle (fun world thread =>
        (auditTask (some code) (writes thread)).permits world)
        ⟨start, fun thread => (writes thread).program⟩ pool :=
      reaches.mono fun _ _ _ _ permitted => ⟨permitted.1, fun _ => permitted.2⟩
    have valid := (Reaches.valid (pool_audited audited focused) reaches).1
    obtain ⟨winners, won⟩ := winners_of_reaches audited focused reaches
    have balance := deletions_of_winners audited valid.invariant won creates (has_iff.mpr stored)
    have ends : ∀ thread, (writes thread).deletes code = true →
        (pool.threads thread = .done (.ok ()) ∨
          pool.threads thread = .done (.error (AccountService.unknownAccount code))) ∧
          pool.state.has code = false := by
      intro thread deletes
      obtain ⟨outcome, finished⟩ := returned thread deletes
      have promised := valid.ensures finished code rfl
      cases write : writes thread with
      | create | update => simp [write, AccountWrite.deletes] at deletes
      | delete other createdBy =>
        obtain rfl : other = code := by simpa [write, AccountWrite.deletes] using deletes
        obtain ⟨same, absent⟩ := promised ⟨createdBy, write⟩
        rw [finished]
        exact ⟨same.imp (congrArg _) (congrArg _), absent⟩
    obtain ⟨deleter, deletes⟩ := some_deletes
    rw [(ends deleter deletes).2, List.countP_eq_length_filter] at balance
    obtain ⟨winner, only⟩ := List.length_eq_one_iff.mp balance
    have isWinner : ∀ thread, (writes thread).deletes code = true →
        pool.threads thread = .done (.ok ()) → thread = winner := fun thread deletes finished => by
      have listed : thread ∈ winners.filter fun thread => (writes thread).deletes code :=
        List.mem_filter.mpr ⟨(won.succeeded thread).mpr finished, deletes⟩
      rw [only] at listed
      exact List.mem_singleton.mp listed
    obtain ⟨member, deletes⟩ : winner ∈ winners ∧ (writes winner).deletes code = true :=
      List.mem_filter.mp (only ▸ List.mem_singleton_self winner)
    refine ⟨winner, deletes, (won.succeeded winner).mp member, fun other deletes different => ?_⟩
    exact (ends other deletes).1.resolve_left fun finished =>
      different (isWinner other deletes finished)

/-- A store with one account that has been created. -/
def createdAccount : World :=
  { World.empty with
    accounts := [⟨1, "1000", "Cash", "cash", .asset⟩]
    nextAccountId := 2
    auditEvents := [auditRow .create "1000" "alice"] }

theorem createdAccount_audited : createdAccount.Audited where
  toIdentified := ⟨by decide, by decide, by decide⟩
  trails code := by
    by_cases same : "1000" = code
    · subst same
      decide
    · simp [World.trail, World.has, createdAccount, auditRow, same, AuditAction.follow]

/-- Deletions of it by two callers. -/
def rivalDeletions : Fin 2 → AccountWrite
  | 0 => .delete "1000" "bob"
  | 1 => .delete "1000" "carol"

/-- The second of them starts after the first has ended. -/
def deletionsInTurn : Pool (Fin 2) Command Reply Raised Unit World :=
  Pool.execute handle
    (([0, 0, 1] : List (Fin 2)).map fun thread => (thread, Env.calm 1700000000000000))
    ⟨createdAccount, fun thread => (rivalDeletions thread).program⟩

/-- One of them succeeds, and the trail is a whole life. -/
theorem auditTrail_of_rivalDeletions :
    (∃ rest, deletionsInTurn.state.trail "1000" ++ rest ∈ lifecycle∗) ∧
      ∃ winner, deletionsInTurn.threads winner = .done (.ok ()) ∧ ∀ other,
        (rivalDeletions other).deletes "1000" = true → other ≠ winner →
        deletionsInTurn.threads other =
          .done (.error (AppError.notFound .unknownAccount "account" "1000")) := by
  have reaches : Reaches handle
      (fun world _ command env => world.FindsStored command ∧ env.fault = none)
      ⟨createdAccount, fun thread => (rivalDeletions thread).program⟩ deletionsInTurn :=
    reaches_execute _ (by decide +kernel)
  have ended : ∀ thread, (deletionsInTurn.threads thread).ended = true := by decide +kernel
  have stored : ∃ row ∈ createdAccount.accounts, row.code = "1000" :=
    ⟨_, List.mem_cons_self, rfl⟩
  have creates : ∀ thread account createdBy, rivalDeletions thread = .create account createdBy →
      account.code ≠ "1000" := by
    intro thread account createdBy same
    match thread, same with
    | 0, same => cases same
    | 1, same => cases same
  obtain ⟨faithful, single⟩ := auditTrail_of_reaches rivalDeletions createdAccount_audited
  obtain ⟨winner, _, succeeded, others⟩ := single "1000" stored creates deletionsInTurn reaches
    ⟨0, rfl⟩ fun thread _ => Program.ended_iff.mp (ended thread)
  exact ⟨((faithful deletionsInTurn (reaches.mono fun _ _ _ _ permitted => permitted.1)).1
    "1000").1, winner, succeeded, others⟩

/-- A creation of an account before deletions of it by two callers. -/
def creationAndDeletions : Fin 3 → AccountWrite
  | 0 => .create ⟨"1000", "Cash", .asset, by decide +kernel, by decide +kernel, by decide⟩ "alice"
  | 1 => .delete "1000" "bob"
  | 2 => .delete "1000" "carol"

/-- Two deletions that both load the row before either is flushed both succeed, and the account
has been deleted twice. -/
theorem auditTrail_fails_between_deletions :
    ∃ pool, Reaches handle (fun _ _ _ env => env.fault = none)
        ⟨World.empty, fun thread => (creationAndDeletions thread).program⟩ pool ∧
      (∀ thread, pool.threads thread = .done (.ok ())) ∧
      ¬∃ rest, pool.state.trail "1000" ++ rest ∈ lifecycle∗ := by
  refine ⟨_, reaches_execute_of_forall (([0, 1, 2, 1, 2] : List (Fin 3)).map fun thread =>
    (thread, Env.calm 1700000000000000)) (List.forall_mem_map.mpr fun _ _ _ _ => rfl),
    fun thread => succeeded_unit_iff.mp (by revert thread; decide +kernel), ?_⟩
  rw [← follow_isSome_iff]
  decide +kernel

end Trutina
