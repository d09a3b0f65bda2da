/-
This file asks which refusals of a journal entry are conflicts of its number.
Every violated constraint is reported as one. Under a fresh number no line is a
duplicate, so what remains are the two checks: the posting date against the
clock of the database, and the side of a line after its amounts are rounded. A
valid entry can violate either. An amount that is too large for its column is
found before the sides of its page are checked, and is no conflict.
-/

import Trutina.Completion

namespace Trutina

open Interaction

/-! ### What becomes of a line -/

/-- Both amounts are rounded to nothing. -/
def JournalLine.Vanishes (line : JournalLine) : Prop :=
  Decimal.roundHalfUp 2 line.debitAmount = 0 ∧ Decimal.roundHalfUp 2 line.creditAmount = 0

/-- An amount does not fit its column. -/
def JournalLine.TooLarge (line : JournalLine) : Prop :=
  10 ^ 18 ≤ (Decimal.roundHalfUp 2 line.debitAmount).natAbs ∨
    10 ^ 18 ≤ (Decimal.roundHalfUp 2 line.creditAmount).natAbs

instance (line : JournalLine) : Decidable line.Vanishes :=
  inferInstanceAs (Decidable (_ ∧ _))

instance (line : JournalLine) : Decidable line.TooLarge :=
  inferInstanceAs (Decidable (_ ∨ _))

/-- Some amount of a page does not fit, or no line of it is rounded to nothing and the same holds of
the pages that follow. -/
def PagesSpared : List (List JournalLine) → Prop
  | [] => True
  | page :: rest => (∃ line ∈ page, line.TooLarge) ∨
      ((∀ line ∈ page, ¬line.Vanishes) ∧ PagesSpared rest)

instance PagesSpared.decidable : (pages : List (List JournalLine)) → Decidable (PagesSpared pages)
  | [] => .isTrue trivial
  | page :: rest =>
    have := PagesSpared.decidable rest
    inferInstanceAs (Decidable ((∃ line ∈ page, line.TooLarge) ∨
      ((∀ line ∈ page, ¬line.Vanishes) ∧ PagesSpared rest)))

/-- No line is rounded to nothing on the pages before the first with an amount that does not fit. -/
def RoundingSpares (lines : List JournalLine) : Prop := PagesSpared (lines.pages pageSize)

instance (lines : List JournalLine) : Decidable (RoundingSpares lines) :=
  inferInstanceAs (Decidable (PagesSpared _))

/-- A row with the amounts of a line. -/
def Sends (line : JournalLine) (row : JournalLineModel Decimal) : Prop :=
  row.debitAmount = line.debitAmount ∧ row.creditAmount = line.creditAmount

theorem coerceAmount_of_fits {amount : Decimal}
    (fits : (Decimal.roundHalfUp 2 amount).natAbs < 10 ^ 18) :
    coerceAmount amount = .ok ⟨Decimal.roundHalfUp 2 amount, fits⟩ := by
  simp only [coerceAmount, Money.ofDecimal, dif_pos fits]

theorem coerceAmount_of_large {amount : Decimal}
    (large : 10 ^ 18 ≤ (Decimal.roundHalfUp 2 amount).natAbs) :
    coerceAmount amount = .error (.failed .other) := by
  simp only [coerceAmount, Money.ofDecimal, dif_neg (not_lt.mpr large)]

/-- An amount of a zero coefficient is rounded to nothing. -/
theorem roundHalfUp_of_zero {amount : Decimal} (zero : amount.coefficient = 0) :
    Decimal.roundHalfUp 2 amount = 0 :=
  Decimal.roundHalfUp_of_value (by rw [Decimal.toRat, zero]; simp)

section Lines

variable {world : World} {line : JournalLine} {row : JournalLineModel Decimal}

/-- What a row is coerced to, in its place. -/
structure Coerces (row : JournalLineModel Decimal) (stored : JournalLineModel Money) : Prop where
  coerced : coerceLine row = .ok stored
  number : stored.journalNumber = row.journalNumber
  index : stored.lineIndex = row.lineIndex

theorem coerceLine_of_large (sends : Sends line row) (large : line.TooLarge) :
    coerceLine row = .error (.failed .other) := by
  obtain ⟨debit, credit⟩ := sends
  unfold coerceLine
  rw [debit, credit]
  by_cases first : 10 ^ 18 ≤ (Decimal.roundHalfUp 2 line.debitAmount).natAbs
  · rw [coerceAmount_of_large first]
    rfl
  · rw [coerceAmount_of_fits (not_le.mp first),
      coerceAmount_of_large (large.resolve_left first)]
    rfl

/-- A row with the amounts of a line is coerced in its place, and has one side unless the line
vanishes. -/
theorem coerceLine_of_fits (sends : Sends line row) (fits : ¬line.TooLarge) :
    ∃ stored, Coerces row stored ∧
      (exactlyOneSide stored.debitAmount stored.creditAmount = true ↔ ¬line.Vanishes) := by
  obtain ⟨debit, credit⟩ := sends
  simp only [JournalLine.TooLarge, not_or, not_le] at fits
  refine ⟨⟨row.journalNumber, row.lineIndex, row.account, ⟨_, fits.1⟩, ⟨_, fits.2⟩⟩,
    ⟨?_, rfl, rfl⟩, ?_⟩
  · unfold coerceLine
    rw [debit, credit, coerceAmount_of_fits fits.1, coerceAmount_of_fits fits.2]
    rfl
  · have debitNonneg : 0 ≤ Decimal.roundHalfUp 2 line.debitAmount :=
      Decimal.roundHalfUp_nonneg line.debit_nonneg
    have creditNonneg : 0 ≤ Decimal.roundHalfUp 2 line.creditAmount :=
      Decimal.roundHalfUp_nonneg line.credit_nonneg
    simp only [exactlyOneSide, JournalLine.Vanishes, Bool.or_eq_true, Bool.and_eq_true,
      decide_eq_true_eq, beq_iff_eq]
    rcases (isValidLineAmounts_iff line.debit_nonneg line.credit_nonneg).mp line.one_side with
      ⟨_, zero⟩ | ⟨zero, _⟩
    · have noCredit := roundHalfUp_of_zero zero
      omega
    · have noDebit := roundHalfUp_of_zero zero
      omega

/-- An amount of a page that does not fit is found before anything is inserted. -/
theorem coerced_of_large {lines : List JournalLine} {rows : List (JournalLineModel Decimal)}
    (pairs : List.Forall₂ Sends lines rows) (large : ∃ line ∈ lines, line.TooLarge) :
    rows.mapM coerceLine = .error (.failed .other) := by
  induction pairs with
  | nil =>
    obtain ⟨_, member, _⟩ := large
    cases member
  | @cons line row lines rows sends _ inductionHypothesis =>
    rw [List.mapM_cons]
    by_cases first : line.TooLarge
    · rw [coerceLine_of_large sends first]
      rfl
    obtain ⟨stored, coerces, _⟩ := coerceLine_of_fits sends first
    obtain ⟨other, member, tooLarge⟩ := large
    have later : other ∈ lines := (List.mem_cons.mp member).resolve_left fun same =>
      first (same ▸ tooLarge)
    rw [coerces.coerced, inductionHypothesis ⟨other, later, tooLarge⟩]
    rfl

/-- Lines are inserted up to one without a side. -/
theorem insertLines_refused {stored : List (JournalLineModel Money)}
    (free : ∀ row ∈ stored, ∀ other ∈ world.journalLines,
      other.journalNumber = row.journalNumber → other.lineIndex ≠ row.lineIndex)
    (distinct : (stored.map JournalLineModel.lineIndex).Nodup)
    (unsided : ∃ row ∈ stored, ¬exactlyOneSide row.debitAmount row.creditAmount = true) :
    stored.foldlM insertLine world =
      .error (.integrity "ck_journal_lines_exactly_one_side") := by
  induction stored generalizing world with
  | nil =>
    obtain ⟨_, member, _⟩ := unsided
    cases member
  | cons first rest inductionHypothesis =>
    rw [List.foldlM_cons]
    by_cases sided : exactlyOneSide first.debitAmount first.creditAmount = true
    · rw [insertLine_accepted sided (free first List.mem_cons_self)]
      obtain ⟨row, member, none⟩ := unsided
      have later : row ∈ rest := (List.mem_cons.mp member).resolve_left fun same =>
        none (same ▸ sided)
      exact inductionHypothesis (free_after free distinct) (List.nodup_cons.mp distinct).2
        ⟨row, later, none⟩
    · rw [insertLine, if_pos (Bool.not_eq_true _ ▸ sided)]
      rfl

/-- Rows whose amounts all fit are coerced together. -/
theorem coerced_of_fits {lines : List JournalLine} {rows : List (JournalLineModel Decimal)}
    (pairs : List.Forall₂ Sends lines rows) (fits : ¬∃ line ∈ lines, line.TooLarge) :
    ∃ stored, List.Forall₂ Coerces rows stored ∧
      List.Forall₂ (fun line stored =>
        exactlyOneSide stored.debitAmount stored.creditAmount = true ↔ ¬line.Vanishes)
          lines stored := by
  induction pairs with
  | nil => exact ⟨[], .nil, .nil⟩
  | @cons line row lines rows sends _ inductionHypothesis =>
    obtain ⟨first, coerces, sided⟩ :=
      coerceLine_of_fits sends fun large => fits ⟨line, List.mem_cons_self, large⟩
    obtain ⟨rest, others, sides⟩ := inductionHypothesis fun ⟨other, member, large⟩ =>
      fits ⟨other, List.mem_cons_of_mem _ member, large⟩
    exact ⟨first :: rest, .cons coerces others, .cons sided sides⟩

/-- What becomes of a page under free places. -/
theorem addPage_cases {lines : List JournalLine} {rows : List (JournalLineModel Decimal)}
    (pairs : List.Forall₂ Sends lines rows)
    (free : ∀ row ∈ rows, ∀ other ∈ world.journalLines,
      other.journalNumber = row.journalNumber → other.lineIndex ≠ row.lineIndex)
    (distinct : (rows.map JournalLineModel.lineIndex).Nodup) :
    ((∃ line ∈ lines, line.TooLarge) ∧
      List.addPage coerceLine insertLine world rows = .error (.failed .other)) ∨
    (¬(∃ line ∈ lines, line.TooLarge) ∧ (∀ line ∈ lines, ¬line.Vanishes) ∧
      ∃ stored, List.Forall₂ Coerces rows stored ∧
        List.addPage coerceLine insertLine world rows =
          .ok { world with journalLines := world.journalLines ++ stored }) ∨
    ¬((∃ line ∈ lines, line.TooLarge) ∨ ∀ line ∈ lines, ¬line.Vanishes) ∧
      List.addPage coerceLine insertLine world rows =
        .error (.integrity "ck_journal_lines_exactly_one_side") := by
  by_cases large : ∃ line ∈ lines, line.TooLarge
  · refine .inl ⟨large, ?_⟩
    rw [List.addPage, coerced_of_large pairs large]
    rfl
  obtain ⟨stored, coerces, sides⟩ := coerced_of_fits pairs large
  have page : List.addPage coerceLine insertLine world rows = stored.foldlM insertLine world := by
    rw [List.addPage, List.mapM_eq_ok_iff.mpr (coerces.imp fun _ _ one => one.coerced)]
    rfl
  have free' : ∀ row ∈ stored, ∀ other ∈ world.journalLines,
      other.journalNumber = row.journalNumber → other.lineIndex ≠ row.lineIndex := by
    intro row member
    obtain ⟨sent, listed, one⟩ := coerces.exists_left member
    rw [one.number, one.index]
    exact free sent listed
  have distinct' : (stored.map JournalLineModel.lineIndex).Nodup := by
    rwa [coerces.map_eq fun _ _ _ one => one.index]
  by_cases spared : ∀ line ∈ lines, ¬line.Vanishes
  · refine .inr (.inl ⟨large, spared, stored, coerces, page.trans ?_⟩)
    refine insertLines_accepted (fun row member => ?_) free' distinct'
    obtain ⟨line, listed, sided⟩ := sides.exists_left member
    exact sided.mpr (spared line listed)
  · refine .inr (.inr ⟨fun either => either.elim large spared, page.trans ?_⟩)
    refine insertLines_refused free' distinct' ?_
    obtain ⟨line, listed, vanishes⟩ : ∃ line ∈ lines, line.Vanishes := by
      by_contra none
      exact spared fun line listed vanishes => none ⟨line, listed, vanishes⟩
    obtain ⟨row, member, sided⟩ := sides.exists_right listed
    exact ⟨row, member, fun has => sided.mp has vanishes⟩

/-- Pages under free places are stored, or an amount does not fit, unless rounding leaves nothing of
a line first: then its CHECK is violated. -/
theorem insertPages_cases {pages : List (List JournalLine)}
    {rows : List (List (JournalLineModel Decimal))}
    (pairs : List.Forall₂ (List.Forall₂ Sends) pages rows)
    (free : ∀ row ∈ rows.flatten, ∀ other ∈ world.journalLines,
      other.journalNumber = row.journalNumber → other.lineIndex ≠ row.lineIndex)
    (distinct : (rows.flatten.map JournalLineModel.lineIndex).Nodup) :
    let inserted := rows.foldlM (List.addPage coerceLine insertLine) world
    (PagesSpared pages ∧ ((∃ after, inserted = .ok after) ∨ inserted = .error (.failed .other))) ∨
      (¬PagesSpared pages ∧
        inserted = .error (.integrity "ck_journal_lines_exactly_one_side")) := by
  induction pairs generalizing world with
  | nil => exact .inl ⟨trivial, .inl ⟨world, rfl⟩⟩
  | @cons page sent pages rows own _ inductionHypothesis =>
    rw [List.flatten_cons] at free distinct
    rw [List.map_append, List.nodup_append] at distinct
    obtain ⟨distinctOwn, distinctRest, apart⟩ := distinct
    rw [List.foldlM_cons, PagesSpared]
    rcases addPage_cases own (fun row member => free row (List.mem_append_left _ member))
        distinctOwn with
      ⟨large, refused⟩ | ⟨fits, spared, stored, coerces, added⟩ | ⟨neither, refused⟩
    · rw [refused]
      exact .inl ⟨.inl large, .inr rfl⟩
    · rw [added]
      have rest := @inductionHypothesis
        { world with journalLines := world.journalLines ++ stored } ?_ distinctRest
      · rw [or_iff_right fits, and_iff_right spared]
        exact rest
      · intro row member other present number
        rcases List.mem_append.mp present with before | new
        · exact free row (List.mem_append_right _ member) other before number
        · obtain ⟨first, listed, coerced⟩ := coerces.exists_left new
          rw [coerced.index]
          exact apart _ (List.mem_map_of_mem listed) _ (List.mem_map_of_mem member)
    · rw [refused]
      exact .inr ⟨fun either => neither (either.imp_right And.left), rfl⟩

theorem sends_lineRows (number : Int) (lines : List JournalLine) :
    List.Forall₂ Sends lines (PostgresJournalRepo.lineRows number lines) := by
  rw [List.forall₂_iff_get]
  refine ⟨by simp [PostgresJournalRepo.lineRows], fun index left right => ?_⟩
  simp [PostgresJournalRepo.lineRows, Sends]

end Lines

/-! ### What saving an entry raises -/

/-- Every line belongs to a stored entry, as the foreign key has it. -/
def World.LinesOwned (world : World) : Prop :=
  ∀ line ∈ world.journalLines, ∃ header ∈ world.journalEntries,
    header.journalNumber = line.journalNumber

/-- Whether a number is stored. -/
def World.HasNumber (world : World) (number : Int) : Prop :=
  ∃ header ∈ world.journalEntries, header.journalNumber = number

/-- The error that reports a number as taken. -/
def numberTaken (number : Int) : Raised :=
  AppError.conflict .unknownError "journal_entry" "journal_number" (toString number)

/-- The store after an entry is saved with all its lines, their amounts rounded. -/
def World.Saved (world : World) (entry : JournalEntry) (actor : String) (after : World) : Prop :=
  ∃ lines, List.Forall₂ StoredAs (PostgresJournalRepo.lineRows entry.journalNumber entry.lines)
      lines ∧
    after = { world with
      journalEntries := world.journalEntries ++ [headerOf entry actor]
      journalLines := world.journalLines ++ lines }

/-- A number is reported as taken only if it is, and under a fresh number the entry is saved whole,
or another error is raised and nothing is stored. -/
def SavesGenuinely (world : World) (entry : JournalEntry) (actor : String)
    (outcome : Except Raised Unit) (after : World) : Prop :=
  (outcome = .error (numberTaken entry.journalNumber) → world.HasNumber entry.journalNumber) ∧
  (¬world.HasNumber entry.journalNumber →
    (outcome = .ok () ∧ world.Saved entry actor after) ∨
      ∃ error, outcome = .error error ∧ error ≠ numberTaken entry.journalNumber ∧ after = world)

/-- A save is one transaction. -/
theorem run_save (world : World) (entry : JournalEntry) (actor : String) (envs : Nat → Env) :
    (PostgresJournalRepo.save entry actor).run handle envs world =
      match (envs 0).fault with
      | some fault => (.error (translatePostgresErrors (.failed fault)), world)
      | none =>
        match (Transaction.insertJournal (headerOf entry actor)
          (PostgresJournalRepo.lineRows entry.journalNumber entry.lines)).apply (envs 0) world with
        | .ok after => (.ok (), after)
        | .error (.integrity _) => (.error (numberTaken entry.journalNumber), world)
        | .error (.failed fault) => (.error (translatePostgresErrors (.failed fault)), world) := by
  rw [PostgresJournalRepo.save, commitOr_eq, Program.run_ask]
  cases failed : (envs 0).fault with
  | some fault =>
    simp only [handle, failed]
    rfl
  | none =>
    cases applied : (Transaction.insertJournal (headerOf entry actor)
        (PostgresJournalRepo.lineRows entry.journalNumber entry.lines)).apply (envs 0) world with
    | ok after =>
      rw [headerOf] at applied
      simp only [handle, failed, applied]
      rfl
    | error error =>
      rw [headerOf] at applied
      simp only [handle, failed, applied]
      cases error <;> rfl

theorem translatePostgresErrors_not_taken (fault : Fault) (number : Int) :
    translatePostgresErrors (.failed fault) ≠ numberTaken number := by
  cases fault <;> (intro same; cases same)

section Saving

variable {world : World} {env : Env} {entry : JournalEntry} {actor : String}

/-- Under a fresh number an entry is refused for its date, for the side of a line, or for the size
of an amount. -/
theorem insertJournal_fresh (owned : world.LinesOwned)
    (fresh : ¬world.HasNumber entry.journalNumber) :
    let applied := (Transaction.insertJournal (headerOf entry actor)
      (PostgresJournalRepo.lineRows entry.journalNumber entry.lines)).apply env world
    ((entry.postingDate ≤ env.dbNow ∧ RoundingSpares entry.lines) ∧
      ((∃ after, applied = .ok after) ∨ applied = .error (.failed .other))) ∨
    (¬(entry.postingDate ≤ env.dbNow ∧ RoundingSpares entry.lines) ∧
      ∃ constraint, applied = .error (.integrity constraint)) := by
  have unused : ¬(world.journalEntries.any fun stored =>
      stored.journalNumber == (headerOf entry actor).journalNumber) = true := by
    rw [List.any_eq_true]
    rintro ⟨header, member, same⟩
    exact fresh ⟨header, member, beq_iff_eq.mp same⟩
  rw [Transaction.apply, if_neg unused]
  by_cases past : entry.postingDate ≤ env.dbNow
  · have dated : ¬postingDateInRange env.dbNow (headerOf entry actor).postingDate = false := by
      rw [Bool.not_eq_false, postingDateInRange, Bool.and_eq_true, decide_eq_true_eq,
        decide_eq_true_eq]
      exact ⟨entry.date_after, past⟩
    rw [if_neg dated, and_iff_right past]
    have outcome := @insertPages_cases
      { world with journalEntries := world.journalEntries ++ [headerOf entry actor] } _ _
      ((sends_lineRows entry.journalNumber entry.lines).pages pageSize) ?_ ?_
    · obtain kept | ⟨refused, raised⟩ := outcome
      · exact .inl kept
      · exact .inr ⟨refused, _, raised⟩
    · intro row member other present number
      rw [List.flatten_pages (by decide)] at member
      obtain ⟨header, stored, same⟩ := owned other present
      exact absurd ⟨header, stored, same.trans (number.trans (mem_lineRows member).1)⟩ fresh
    · rw [List.flatten_pages (by decide), lineRows_index]
      exact List.nodup_range
  · have dated : postingDateInRange env.dbNow (headerOf entry actor).postingDate = false := by
      rw [postingDateInRange, Bool.and_eq_false_iff]
      exact .inr (decide_eq_false past)
    rw [if_pos dated]
    exact .inr ⟨fun both => past both.1, _, rfl⟩

/-- Saving an entry reports its number as taken only when it is, and otherwise saves it whole or
stores nothing, exactly when the number is taken, the database fails, or the entry passes the two
checks: its date is not ahead of the clock of the database, and rounding leaves no line empty on
the pages before the first with an amount that does not fit. -/
theorem save_genuine_iff (owned : world.LinesOwned) (entry : JournalEntry) (actor : String)
    (envs : Nat → Env) :
    SavesGenuinely world entry actor
        ((PostgresJournalRepo.save entry actor).run handle envs world).1
        ((PostgresJournalRepo.save entry actor).run handle envs world).2 ↔
      world.HasNumber entry.journalNumber ∨ (envs 0).fault.isSome = true ∨
        (entry.postingDate ≤ (envs 0).dbNow ∧ RoundingSpares entry.lines) := by
  rw [run_save]
  cases (envs 0).fault with
  | some fault =>
    refine iff_of_true ⟨fun raised => ?_, fun _ => .inr ⟨_, rfl, ?_, rfl⟩⟩ (.inr (.inl rfl))
    · exact absurd (Except.error.inj raised) (translatePostgresErrors_not_taken fault _)
    · exact translatePostgresErrors_not_taken fault _
  | none =>
    by_cases taken : world.HasNumber entry.journalNumber
    · refine iff_of_true ⟨fun _ => taken, fun fresh => absurd taken fresh⟩ (.inl taken)
    rw [or_iff_right taken, or_iff_right (by simp)]
    rcases @insertJournal_fresh world (envs 0) entry actor owned taken with
      ⟨passes, ⟨after, applied⟩ | large⟩ | ⟨refused, constraint, violated⟩
    · rw [applied]
      obtain ⟨_, _, lines, stored, same⟩ := insertJournal_ok applied
      refine iff_of_true ⟨fun raised => ?_, fun _ => .inl ⟨rfl, lines, stored, same⟩⟩ passes
      cases raised
    · rw [large]
      refine iff_of_true ⟨fun raised => ?_, fun _ => .inr ⟨_, rfl, ?_, rfl⟩⟩ passes
      · exact absurd (Except.error.inj raised) (translatePostgresErrors_not_taken _ _)
      · exact translatePostgresErrors_not_taken _ _
    · rw [violated]
      exact iff_of_false (fun genuine => taken (genuine.1 rfl)) refused

end Saving

theorem empty_linesOwned : World.empty.LinesOwned := fun _ member =>
  (List.not_mem_nil member).elim

/-- The first entry: a debit of an amount and its credit. -/
def firstEntry (amount : Decimal) : Except Raised JournalEntry := do
  let debit ← JournalLine.validate "Cash" amount ⟨0, 0⟩
  let credit ← JournalLine.validate "Sales" ⟨0, 0⟩ amount
  JournalEntry.validate 1700000000000000 1 ⟨1600000000000000, none⟩ [debit, credit] none

theorem plainEntry_built : (firstEntry ⟨1250, -2⟩).toOption.isSome = true := by decide +kernel

/-- 12.50. -/
def plainEntry : JournalEntry := (firstEntry ⟨1250, -2⟩).toOption.get plainEntry_built

theorem tinyEntry_built : (firstEntry ⟨1, -3⟩).toOption.isSome = true := by decide +kernel

/-- 0.001. -/
def tinyEntry : JournalEntry := (firstEntry ⟨1, -3⟩).toOption.get tinyEntry_built

/-- Amounts of two decimal places are saved. -/
theorem save_genuine_of_cents :
    SavesGenuinely World.empty plainEntry "alice"
      ((PostgresJournalRepo.save plainEntry "alice").run handle
        (fun _ => Env.calm 1700000000000000) World.empty).1
      ((PostgresJournalRepo.save plainEntry "alice").run handle
        (fun _ => Env.calm 1700000000000000) World.empty).2 :=
  (save_genuine_iff empty_linesOwned plainEntry "alice" _).mpr
    (.inr (.inr ⟨by decide +kernel, by decide +kernel⟩))

/-- A tenth of a cent is reported as a taken number, although no entry is stored. -/
theorem save_misreports_tiny_amounts :
    ((PostgresJournalRepo.save tinyEntry "alice").run handle
        (fun _ => Env.calm 1700000000000000) World.empty).1 =
      .error (numberTaken tinyEntry.journalNumber) ∧
    ¬World.empty.HasNumber tinyEntry.journalNumber := by
  refine ⟨by decide +kernel, ?_⟩
  rintro ⟨header, member, _⟩
  exact List.not_mem_nil member

end Trutina
