/-
This file compares the three places where an account is referred to by a name. A
journal line and an account store the cleaned name. Creating an account refuses
every spelling of a name that is taken. But the chart looks a reference up by the
key of its raw text, so a spelling that only adds surrounding whitespace does not
find the account it names, and an entry that uses it is refused.
-/

import Trutina.Renaming

namespace Trutina

open Interaction

/-! ### References to a chart -/

/-- A chart has an account under the lookup key of a name. -/
def ChartOfAccounts.Has (chart : ChartOfAccounts) (name : String) : Prop :=
  ∃ account ∈ chart.accounts, accountLookupKey account.name = accountLookupKey name

theorem ChartOfAccounts.getByName_isSome_iff {chart : ChartOfAccounts} {name : String} :
    (∃ account, chart.getByName name = some account) ↔ chart.Has name :=
  exists_congr fun _ => getByName_eq_some_iff

/-- A reference that finds an account as it was given needed no cleaning. -/
theorem ChartOfAccounts.cleaned_of_has {chart : ChartOfAccounts} {reference cleaned : String}
    (clean : cleanAccountName reference = some cleaned) (has : chart.Has reference) :
    cleaned = reference := by
  obtain ⟨account, _, key⟩ := has
  exact cleanAccountName_of_same_key clean account.name_clean key.symm

theorem strip_of_clean {reference cleaned : String}
    (clean : cleanAccountName reference = some cleaned) : cleaned = strip reference :=
  (cleanAccountName_eq_some_iff.mp clean).1

/-- Looking a reference up agrees with cleaning it first exactly when there was nothing to clean
or there is nothing to find. -/
theorem ChartOfAccounts.getByName_cleaned_iff (chart : ChartOfAccounts)
    {reference cleaned : String} (clean : cleanAccountName reference = some cleaned) :
    (∀ account, chart.getByName reference = some account ↔
      account ∈ chart.accounts ∧ accountLookupKey account.name = accountLookupKey cleaned) ↔
      strip reference = reference ∨ ¬chart.Has cleaned := by
  simp only [getByName_eq_some_iff]
  constructor
  · intro agrees
    by_cases has : chart.Has cleaned
    · obtain ⟨account, listed, key⟩ := has
      have found := (agrees account).mpr ⟨listed, key⟩
      have unchanged := chart.cleaned_of_has clean ⟨account, found⟩
      exact .inl ((strip_of_clean clean).symm.trans unchanged)
    · exact .inr has
  · rintro (trimmed | missing) account
    · rw [strip_of_clean clean, trimmed]
    · constructor
      · intro found
        rw [chart.cleaned_of_has clean ⟨account, found⟩]
        exact found
      · exact fun found => absurd ⟨account, found⟩ missing

/-! ### What creating an entry reports -/

section Entries

variable {envs : Nat → Env} {world : World} {chart : ChartOfAccounts}

/-- An error that reports an account the chart does not have. -/
def Raised.ReportsUnknownAccount (error : Raised) : Prop :=
  ∃ reference, error = AccountService.unknownAccount reference

theorem translatePostgresErrors_not_unknown (fault : Fault) :
    ¬(translatePostgresErrors (.failed fault)).ReportsUnknownAccount := by
  cases fault <;> (rintro ⟨reference, same⟩; cases same)

/-- The construction of an entry finds nothing about accounts of the chart. -/
theorem buildEntry_unmapped {now : Timestamp} {number : Int} {input : CreateJournalInput}
    {error : Raised} (raised : JournalService.buildEntry now number input = .error error) :
    error.Unmapped := by
  unfold JournalService.buildEntry at raised
  cases built : JournalService.buildLines input.lines with
  | error first =>
    rw [built] at raised
    cases raised
    exact fromRows_error (fun _ _ => JournalLine.validate_unmapped) built
  | ok lines =>
    rw [built] at raised
    exact JournalEntry.validate_unmapped raised

theorem buildEntry_not_unknown {now : Timestamp} {number : Int} {input : CreateJournalInput}
    {error : Raised}
    (raised : translating (JournalService.buildEntry now number input) = .error error) :
    ¬error.ReportsUnknownAccount := by
  rintro ⟨reference, rfl⟩
  cases built : JournalService.buildEntry now number input with
  | ok entry =>
    rw [built] at raised
    cases raised
  | error first =>
    have unmapped := buildEntry_unmapped built
    rw [built] at raised
    cases first with
    | validationError details => cases raised
    | typeError => cases raised
    | overflow => cases raised
    | _ => exact unmapped

/-- Storing an entry does not look at the chart. -/
theorem save_not_unknown {entry : JournalEntry} {actor event : String}
    {context : List (String × LogValue)} {error : Raised}
    (raised : ((do
      PostgresJournalRepo.save entry actor
      logInfo event context
      JournalService.computing (toEntryView entry) : Action JournalViewModel).run
        handle envs world).1 = .error error) : ¬error.ReportsUnknownAccount := by
  obtain ⟨view, viewed, _⟩ := toEntryView_eq_ok entry
  rw [PostgresJournalRepo.save, commitOr_eq, Program.ask_bind, Program.run_ask] at raised
  generalize (handle (.transact _) (envs 0) world).1 = reply at raised
  obtain ⟨(constraint | fault) | done, now⟩ := reply
  · rintro ⟨reference, rfl⟩
    cases raised
  · rw [← Except.error.inj raised]
    exact translatePostgresErrors_not_unknown fault
  · rw [viewed] at raised
    cases raised

/-- Alone, `create_journal_entry` reports an unknown account exactly when the chart does not have
the reference of some line as it was given. -/
theorem createJournalEntry_unknown_iff
    (read : (AccountService.getChart.run handle envs world).1 = .ok chart) {actor : String}
    (named : isNonBlankActor actor = true) (input : CreateJournalInput) :
    (∃ reference, ((JournalService.createJournalEntry input actor).run handle envs world).1 =
      .error (AccountService.unknownAccount reference)) ↔
      ∃ line ∈ input.lines, ¬chart.Has line.account := by
  unfold JournalService.createJournalEntry JournalService.validateAccounts
  rw [run_lift_bind_ok (requireActor_ok named), bind_assoc, run_getChart_bind, read]
  dsimp only
  have resolves : JournalService.resolveLines chart input.lines = .ok () ↔
      ∀ line ∈ input.lines, chart.Has line.account := by
    simp only [resolveLines_eq_ok_iff, ChartOfAccounts.getByName_isSome_iff]
  cases resolved : JournalService.resolveLines chart input.lines with
  | error error =>
    rw [resolved] at resolves
    obtain ⟨reference, rfl⟩ := resolveLines_error resolved
    refine iff_of_true ⟨reference, rfl⟩ ?_
    by_contra! has
    cases resolves.mpr has
  | ok value =>
    rw [resolved] at resolves
    have has := resolves.mp rfl
    refine iff_of_false ?_ (by rintro ⟨line, member, missing⟩; exact missing (has line member))
    rintro ⟨reference, raised⟩
    rw [run_lift_bind_ok rfl, run_nextJournalNumber_bind] at raised
    cases failed : (envs 1).fault with
    | some fault =>
      simp only [failed] at raised
      exact translatePostgresErrors_not_unknown fault ⟨reference, Except.error.inj raised⟩
    | none =>
      simp only [failed] at raised
      cases built : translating
          (JournalService.buildEntry (envs 1).now world.nextJournalNumber input) with
      | error error =>
        rw [built] at raised
        exact buildEntry_not_unknown built ⟨reference, Except.error.inj raised⟩
      | ok entry =>
        rw [built, run_lift_bind_ok rfl] at raised
        exact save_not_unknown raised ⟨reference, rfl⟩

end Entries

/-! ### What creating an account refuses -/

section Accounts

variable {envs : Nat → Env} {world : World} {chart : ChartOfAccounts}

/-- The chart that is read has the names of the rows. -/
theorem has_iff_stored (consistent : world.ChartConsistent) (calm : (envs 0).fault = none)
    (read : (AccountService.getChart.run handle envs world).1 = .ok chart) (name : String) :
    chart.Has name ↔ ∃ row ∈ world.accounts, row.nameKey = accountLookupKey name := by
  have arranged := (envs 0).arrangeAccounts_perm world.accounts
  have rebuilt := getChart_rebuilds calm read
  constructor
  · rintro ⟨account, listed, key⟩
    obtain ⟨row, stored, converted⟩ := (fromRows_eq_ok_iff.mp rebuilt).exists_left listed
    have member := arranged.mem_iff.mp stored
    obtain ⟨_, sameName, _⟩ := consistent.toDomain_fields member converted
    exact ⟨row, member, by rw [consistent.keyed row member, ← sameName, key]⟩
  · rintro ⟨row, member, key⟩
    obtain ⟨account, listed, converted⟩ := mem_of_fromRows rebuilt (arranged.mem_iff.mpr member)
    obtain ⟨_, sameName, _⟩ := consistent.toDomain_fields member converted
    exact ⟨account, listed, by rw [sameName, ← consistent.keyed row member, key]⟩

/-- An insertion under a free code is decided by its lookup key. -/
theorem insertAccount_refused_iff {code : String} (free : ∀ row ∈ world.accounts, row.code ≠ code)
    (name nameKey : String) (category : AccountCategory) (audit : AuditEventModel) (env : Env) :
    ((∃ row ∈ world.accounts, row.nameKey = nameKey) ∧
      (Transaction.insertAccount code name nameKey category audit).apply env world =
        .error (.integrity "uq_accounts_name_key")) ∨
    ((¬∃ row ∈ world.accounts, row.nameKey = nameKey) ∧ ∃ after,
      (Transaction.insertAccount code name nameKey category audit).apply env world =
        .ok after) := by
  have codeFree : (world.accounts.any fun row => row.code == code) = false := by
    rw [List.any_eq_false]
    exact fun row member => by simp [free row member]
  simp only [Transaction.apply, codeFree, Bool.false_and, Bool.false_eq_true, if_false]
  cases taken : world.accounts.any fun row => row.nameKey == nameKey with
  | true =>
    obtain ⟨row, member, key⟩ := List.any_eq_true.mp taken
    exact .inl ⟨⟨row, member, beq_iff_eq.mp key⟩, rfl⟩
  | false =>
    refine .inr ⟨?_, _, rfl⟩
    rintro ⟨row, member, key⟩
    exact (List.any_eq_false.mp taken) row member (beq_iff_eq.mpr key)

/-- Alone, creating an account under a free code is refused as a duplicate exactly when a row has
the key of the cleaned name. -/
theorem createAccount_duplicate_iff (consistent : world.ChartConsistent)
    (calm : ∀ step, (envs step).fault = none) {dto : CreateAccountInput} {cleaned : String}
    (clean : cleanAccountName dto.name = some cleaned)
    (format : accountCodePattern.fullmatch dto.code.toList = true)
    (free : ∀ row ∈ world.accounts, row.code ≠ dto.code) {actor : String}
    (named : isNonBlankActor actor = true) :
    (∃ value, ((AccountService.createAccount dto actor).run handle envs world).1 =
      .error (AccountService.duplicateName value)) ↔
      ∃ row ∈ world.accounts, row.nameKey = accountLookupKey cleaned := by
  have unused : (world.accounts.any fun row => decide (row.code = dto.code)) = false := by
    rw [List.any_eq_false]
    exact fun row member => by simp [free row member]
  obtain ⟨account, built⟩ : ∃ account, Account.validate dto.code dto.name dto.category =
      .ok account :=
    ⟨⟨dto.code, cleaned, dto.category, format, cleanAccountName_idempotent clean,
        (cleanAccountName_length_le clean).trans dto.name_length.2⟩,
      Account.validate_eq_ok_iff.mpr ⟨rfl, ⟨clean, dto.name_length⟩, rfl⟩⟩
  obtain ⟨sameCode, ⟨sameName, _⟩, _⟩ := Account.validate_eq_ok_iff.mp built
  rw [clean] at sameName
  have sameName : cleaned = account.name := Option.some.inj sameName
  have translated : translating (Account.validate dto.code dto.name dto.category) =
      .ok account := by
    rw [built]
    rfl
  have passes : ∀ {error}, refuseIf false error = .ok () := rfl
  unfold AccountService.createAccount
  rw [run_lift_bind_ok (requireActor_ok named),
    run_existsByCode_bind consistent.toIdentified (calm 0), unused, run_lift_bind_ok passes,
    run_existsByName_bind consistent (calm 1)]
  cases looked : world.accounts.any fun row =>
      decide (row.nameKey = accountLookupKey dto.name) with
  | true =>
    refine iff_of_true ⟨dto.name, rfl⟩ ?_
    obtain ⟨row, member, key⟩ := List.any_eq_true.mp looked
    have key := of_decide_eq_true key
    have unchanged := cleanAccountName_of_same_key clean (consistent.cleaned row member)
      ((consistent.keyed row member).symm.trans key).symm
    exact ⟨row, member, by rw [key, unchanged]⟩
  | false =>
    rw [run_lift_bind_ok passes, run_lift_bind_ok translated, sameName]
    rw [← sameCode] at free
    rcases insertAccount_refused_iff free account.name (accountLookupKey account.name)
      account.category (auditRow .create account.code actor) (envs 2) with
      ⟨taken, refused⟩ | ⟨untaken, after, applied⟩
    · refine iff_of_true ⟨account.name, ?_⟩ taken
      rw [PostgresAccountRepo.create, run_commitOr_refused (calm 2) refused,
        PostgresAccountRepo.onDuplicate_name]
      rfl
    · refine iff_of_false ?_ untaken
      rw [PostgresAccountRepo.create, run_commitOr_bind (calm 2) applied]
      rintro ⟨value, raised⟩
      cases raised

end Accounts

/-! ### Whether references are resolved up to their spelling -/

/-- A chart returns, for a reference, the account under the lookup key of the cleaned reference. -/
def ChartOfAccounts.Resolves (chart : ChartOfAccounts) (reference : String) : Prop :=
  ∀ cleaned, cleanAccountName reference = some cleaned →
    ∀ account, chart.getByName reference = some account ↔
      account ∈ chart.accounts ∧ accountLookupKey account.name = accountLookupKey cleaned

/-- Creating an entry reports an unknown account exactly when the chart does not have some line's
reference, cleaned. -/
def EntryResolves (envs : Nat → Env) (world : World) (chart : ChartOfAccounts)
    (input : CreateJournalInput) (actor : String) : Prop :=
  (∃ reference, ((JournalService.createJournalEntry input actor).run handle envs world).1 =
      .error (AccountService.unknownAccount reference)) ↔
    ∃ line ∈ input.lines, ∀ cleaned, cleanAccountName line.account = some cleaned →
      ¬chart.Has cleaned

/-- A chart resolves a reference up to case and surrounding whitespace exactly when there is no
such whitespace or it does not have the account. So does creating an entry: all its references are
trimmed, or one is not charted in any spelling. A line stores the cleaned reference, and creating
an account refuses every spelling of a name the chart has. -/
theorem references_resolve_iff (chart : ChartOfAccounts) {reference cleaned : String}
    (clean : cleanAccountName reference = some cleaned) :
    (chart.Resolves reference ↔ strip reference = reference ∨ ¬chart.Has cleaned) ∧
    (∀ debit credit line, JournalLine.validate reference debit credit = .ok line →
      line.account = cleaned) ∧
    ∀ (world : World) (envs : Nat → Env), world.ChartConsistent →
      (∀ step, (envs step).fault = none) →
      (AccountService.getChart.run handle envs world).1 = .ok chart →
      ∀ actor, isNonBlankActor actor = true →
        (∀ input : CreateJournalInput,
          (∀ line ∈ input.lines, (cleanAccountName line.account).isSome) →
          (EntryResolves envs world chart input actor ↔
            (∀ line ∈ input.lines, strip line.account = line.account) ∨
              ∃ line ∈ input.lines, ¬chart.Has (strip line.account))) ∧
        ∀ dto : CreateAccountInput, dto.name = reference →
          accountCodePattern.fullmatch dto.code.toList = true →
          (∀ row ∈ world.accounts, row.code ≠ dto.code) →
          ((∃ value, ((AccountService.createAccount dto actor).run handle envs world).1 =
            .error (AccountService.duplicateName value)) ↔ chart.Has cleaned) := by
  refine ⟨?_, ?_, ?_⟩
  · rw [← chart.getByName_cleaned_iff clean]
    refine ⟨fun resolves => resolves cleaned clean, fun agrees cleaned' clean' => ?_⟩
    rw [clean] at clean'
    rwa [← Option.some.inj clean']
  · intro debit credit line built
    have kept := (JournalLine.validate_eq_ok_iff.mp built).1.1
    rw [clean] at kept
    exact (Option.some.inj kept).symm
  · intro world envs consistent calm read actor named
    refine ⟨fun input cleans => ?_, fun dto named' format free => ?_⟩
    · unfold EntryResolves
      rw [createJournalEntry_unknown_iff read named]
      have cleaned_iff : (∃ line ∈ input.lines, ∀ cleaned,
          cleanAccountName line.account = some cleaned → ¬chart.Has cleaned) ↔
            ∃ line ∈ input.lines, ¬chart.Has (strip line.account) := by
        refine exists_congr fun line => and_congr_right fun member => ?_
        obtain ⟨own, ownClean⟩ := Option.isSome_iff_exists.mp (cleans line member)
        rw [ownClean, ← strip_of_clean ownClean]
        refine ⟨fun missing => missing own rfl, fun missing other same => ?_⟩
        rwa [← Option.some.inj same]
      have trimmed_of_has : ∀ line ∈ input.lines, chart.Has line.account →
          strip line.account = line.account := by
        intro line member has
        obtain ⟨own, ownClean⟩ := Option.isSome_iff_exists.mp (cleans line member)
        exact (strip_of_clean ownClean).symm.trans (chart.cleaned_of_has ownClean has)
      rw [cleaned_iff]
      constructor
      · intro agrees
        by_cases missing : ∃ line ∈ input.lines, ¬chart.Has (strip line.account)
        · exact .inr missing
        · rw [← agrees] at missing
          push Not at missing
          exact .inl fun line member => trimmed_of_has line member (missing line member)
      · rintro (trimmed | ⟨line, member, missing⟩)
        · exact exists_congr fun line => and_congr_right fun member => by rw [trimmed line member]
        · refine iff_of_true ⟨line, member, fun has => missing ?_⟩ ⟨line, member, missing⟩
          rwa [trimmed_of_has line member has]
    · subst named'
      rw [createAccount_duplicate_iff consistent calm clean format free named,
        has_iff_stored consistent (calm 0) read]

/-- The chart of two accounts. -/
def pettyChart : ChartOfAccounts :=
  (ChartOfAccounts.validate [cashAccount, bankAccount]).toOption.get (.refl true)

theorem pettyPool_consistent : pettyPool.state.ChartConsistent := by
  have valid : (Pool.mk World.empty fun thread => (pettyCreations thread).program).Valid handle
      uniquenessRegime (fun _ : Nat => uniquenessTask) :=
    ⟨empty_chartConsistent, fun thread => uniqueness_valid (pettyCreations_write thread) _⟩
  have reaches : Reaches handle (fun world _ command _ => world.KeepsLookupKey command)
      ⟨World.empty, fun thread => (pettyCreations thread).program⟩ pettyPool :=
    reaches_execute _ (by decide +kernel)
  exact (Reaches.valid valid reaches).1.invariant

theorem pettyPool_chart : (AccountService.getChart.run handle
    (fun _ => Env.calm 1700000000000000) pettyPool.state).1 = .ok pettyChart := by
  have rebuilt : fromRows PostgresAccountRepo.toDomain ((Env.calm 1700000000000000).arrangeAccounts
      pettyPool.state.accounts) = .ok [cashAccount, bankAccount] := by decide +kernel
  have listed : pettyChart.accounts = [cashAccount, bankAccount] := by decide +kernel
  rw [getChart_run rfl, rebuilt]
  exact ChartOfAccounts.validate_eq_ok_iff.mpr listed

/-- A debit of 12.50 and its credit between two accounts. -/
def pettyInput (debited credited : JournalLineInput) : Option CreateJournalInput :=
  CreateJournalInput.accept ⟨1650000000000000, none⟩ [debited, credited] none

/-- The names in another case. -/
def shoutedInput : CreateJournalInput :=
  (pettyInput ((JournalLineInput.accept "CASH" ⟨1250, -2⟩ ⟨0, 0⟩).get (.refl true))
    ((JournalLineInput.accept "BANK" ⟨0, 0⟩ ⟨1250, -2⟩).get (.refl true))).get (.refl true)

/-- One of them behind a space. -/
def spacedInput : CreateJournalInput :=
  (pettyInput ((JournalLineInput.accept " Cash" ⟨1250, -2⟩ ⟨0, 0⟩).get (.refl true))
    ((JournalLineInput.accept "Bank" ⟨0, 0⟩ ⟨1250, -2⟩).get (.refl true))).get (.refl true)

theorem shout_clean : cleanAccountName "CASH" = some "CASH" := by decide +kernel

/-- Another case of a name finds its account. -/
theorem references_resolve_in_another_case :
    pettyChart.Resolves "CASH" ∧
      EntryResolves (fun _ => Env.calm 1700000000000000) pettyPool.state pettyChart shoutedInput
        "alice" := by
  obtain ⟨resolves, _, others⟩ := references_resolve_iff pettyChart shout_clean
  refine ⟨resolves.mpr (.inl (by decide +kernel)), ?_⟩
  obtain ⟨entries, _⟩ := others pettyPool.state _ pettyPool_consistent (fun _ => rfl)
    pettyPool_chart "alice" (by decide +kernel)
  exact (entries shoutedInput (by decide +kernel)).mpr (.inl (by decide +kernel))

/-- A leading space hides the account from the chart and from the entry, though a line that is
built from the reference names it. -/
theorem references_unresolved_with_space :
    cleanAccountName " Cash" = some "Cash" ∧ pettyChart.Has "Cash" ∧
      ¬pettyChart.Resolves " Cash" ∧
      ((JournalService.createJournalEntry spacedInput "alice").run handle
        (fun _ => Env.calm 1700000000000000) pettyPool.state).1 =
          .error (AccountService.unknownAccount " Cash") := by
  have clean : cleanAccountName " Cash" = some "Cash" := by decide +kernel
  have charted : cashAccount ∈ pettyChart.accounts := by decide +kernel
  refine ⟨clean, ⟨cashAccount, charted, rfl⟩, fun resolves => ?_, by decide +kernel⟩
  have found := (resolves "Cash" clean cashAccount).mpr ⟨charted, rfl⟩
  have missed : pettyChart.getByName " Cash" = none := by decide +kernel
  rw [missed] at found
  cases found

end Trutina
