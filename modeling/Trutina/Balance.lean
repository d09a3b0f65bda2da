/-
This file says when the balance check of an entry decides as exact arithmetic does.
The check compares two running sums, and every addition rounds to 28 digits. Where every
running total of a column is a number of at most 28 digits no addition rounds, and only
there; the sums of two such columns are compared as their exact totals would be. Amounts of
ordinary size are summed in this way whatever the order of the lines.
-/

import Trutina.Journal

namespace Trutina

/-! ### Totals -/

/-- The exact total of a column. -/
def exactTotal (amounts : List Decimal) : ℚ := (amounts.map Decimal.toRat).sum

/-- A running total of the column leaves the exponent range. -/
def Overflows (amounts : List Decimal) : Prop :=
  Decimal.sum decimalContext amounts = .error .overflow

instance (amounts : List Decimal) : Decidable (Overflows amounts) :=
  inferInstanceAs (Decidable (_ = _))

/-- Every running total of a column is a number of at most 28 digits. -/
def FitsPrecision (amounts : List Decimal) : Prop :=
  ∀ count, decimalContext.Holds (exactTotal (amounts.take count))

/-- The running totals of a column fit the precision exactly when no addition rounds: every sum
that is built on the way is the exact one. -/
theorem fitsPrecision_iff_exact {amounts : List Decimal} :
    FitsPrecision amounts ↔ ∀ count, ∃ total,
      Decimal.sum decimalContext (amounts.take count) = .ok total ∧
        total.toRat = exactTotal (amounts.take count) := by
  constructor
  · intro fits count
    refine Decimal.sum_of_holds decimalContext fun shorter => ?_
    rw [List.take_take]
    exact fits (min shorter count)
  · intro exact count
    obtain ⟨total, summed, value⟩ := exact count
    rw [← value]
    exact Decimal.sum_holds decimalContext summed

theorem FitsPrecision.sums {amounts : List Decimal} (fits : FitsPrecision amounts) :
    ∃ total, Decimal.sum decimalContext amounts = .ok total ∧
      total.toRat = exactTotal amounts := by
  have whole := fitsPrecision_iff_exact.mp fits amounts.length
  rwa [List.take_length] at whole

/-- Columns whose running totals fit the precision are compared by their exact totals. -/
theorem sumsAgree_iff_of_fits {debits credits : List Decimal} (debitsFit : FitsPrecision debits)
    (creditsFit : FitsPrecision credits) :
    sumsAgree debits credits = .ok true ↔ exactTotal debits = exactTotal credits := by
  obtain ⟨totalDebits, summedDebits, debitsExact⟩ := debitsFit.sums
  obtain ⟨totalCredits, summedCredits, creditsExact⟩ := creditsFit.sums
  rw [← debitsExact, ← creditsExact, ← Decimal.equals_iff, sumsAgree_eq_true_iff]
  constructor
  · rintro ⟨debitSum, creditSum, debitSummed, creditSummed, agree⟩
    obtain rfl := Except.ok.inj (summedDebits.symm.trans debitSummed)
    obtain rfl := Except.ok.inj (summedCredits.symm.trans creditSummed)
    exact agree
  · exact fun agree => ⟨totalDebits, totalCredits, summedDebits, summedCredits, agree⟩

/-- Whole cents fit the precision while their total has at most 28 digits. -/
theorem fitsPrecision_of_cents {amounts : List Decimal} (cents : List Nat)
    (values : amounts.map Decimal.toRat =
      cents.map fun count : Nat => (count : ℚ) * 10 ^ (-2 : Int))
    (bounded : cents.sum < 10 ^ 28) : FitsPrecision amounts := by
  intro count
  have range : decimalContext.tiny ≤ -2 ∧ -2 ≤ decimalContext.top := by decide
  refine ⟨⟨(cents.take count).sum, -2⟩, ?_, range.1, range.2, ?_⟩
  · rw [exactTotal, List.map_take, values, ← List.map_take, List.sum_map_mul_right,
      ← Nat.cast_list_sum, Decimal.toRat, Int.cast_natCast]
  · rw [Int.natAbs_natCast]
    exact (List.take_sublist count cents).sum_le_sum (fun _ _ => Nat.zero_le _)
      |>.trans_lt bounded

/-! ### Entries -/

/-- An entry whose other fields are valid is built exactly when its sums agree. -/
theorem JournalEntry.validate_iff_sums {now : Timestamp} {number : Int} {date : Timestamp}
    {lines : List JournalLine} {description : Option String} (positive : 0 < number)
    (dated : earliestPosting < date ∧ date ≤ now) (two : 2 ≤ lines.length)
    (short : ∀ text ∈ description, text.length ≤ 255) :
    (∃ entry, JournalEntry.validate now number ⟨date, none⟩ lines description = .ok entry) ↔
      sumsAgree (lines.map JournalLine.debitAmount) (lines.map JournalLine.creditAmount) =
        .ok true := by
  constructor
  · rintro ⟨entry, built⟩
    obtain ⟨_, _, same, _⟩ := JournalEntry.validate_eq_ok_iff.mp built
    rw [← same]
    exact entry.balanced
  · intro balanced
    exact ⟨⟨number, date, lines, description, positive, dated.1, two, short, balanced⟩,
      JournalEntry.validate_eq_ok_iff.mpr ⟨rfl, ⟨rfl, dated.2⟩, rfl, rfl⟩⟩

/-- An entry whose other fields are valid and whose running totals have at most 28 digits is
accepted exactly when its exact totals are equal; and so is the entry with the lines in another
order in which the running totals have at most 28 digits. -/
theorem journalEntry_balance_exact {now : Timestamp} {number : Int} {date : Timestamp}
    {lines : List JournalLine} {description : Option String} (positive : 0 < number)
    (dated : earliestPosting < date ∧ date ≤ now) (two : 2 ≤ lines.length)
    (short : ∀ text ∈ description, text.length ≤ 255)
    (debitsFit : FitsPrecision (lines.map JournalLine.debitAmount))
    (creditsFit : FitsPrecision (lines.map JournalLine.creditAmount)) :
    ((∃ entry, JournalEntry.validate now number ⟨date, none⟩ lines description = .ok entry) ↔
      exactTotal (lines.map JournalLine.debitAmount) =
        exactTotal (lines.map JournalLine.creditAmount)) ∧
    ∀ others : List JournalLine, others.Perm lines →
      FitsPrecision (others.map JournalLine.debitAmount) →
      FitsPrecision (others.map JournalLine.creditAmount) →
      ((∃ entry, JournalEntry.validate now number ⟨date, none⟩ lines description = .ok entry) ↔
        ∃ entry, JournalEntry.validate now number ⟨date, none⟩ others description =
          .ok entry) := by
  have accepted := (JournalEntry.validate_iff_sums positive dated two short).trans
    (sumsAgree_iff_of_fits debitsFit creditsFit)
  refine ⟨accepted, fun others reordered debitsFit' creditsFit' => ?_⟩
  have accepted' := (JournalEntry.validate_iff_sums positive dated
    (reordered.length_eq ▸ two) short).trans (sumsAgree_iff_of_fits debitsFit' creditsFit')
  have debits : exactTotal (others.map JournalLine.debitAmount) =
      exactTotal (lines.map JournalLine.debitAmount) :=
    ((reordered.map _).map _).sum_eq
  have credits : exactTotal (others.map JournalLine.creditAmount) =
      exactTotal (lines.map JournalLine.creditAmount) :=
    ((reordered.map _).map _).sum_eq
  rw [accepted, accepted', debits, credits]

/-- Two lines of ordinary size. -/
def centLines : List JournalLine :=
  [(JournalLine.validate "Cash" ⟨1250, -2⟩ ⟨0, 0⟩).toOption.get (.refl true),
    (JournalLine.validate "Sales" ⟨0, 0⟩ ⟨125, -1⟩).toOption.get (.refl true)]

theorem journalEntry_balance_exact_of_cents :
    ((∃ entry, JournalEntry.validate 1700000000000000 1 ⟨1650000000000000, none⟩ centLines none =
        .ok entry) ↔
      exactTotal (centLines.map JournalLine.debitAmount) =
        exactTotal (centLines.map JournalLine.creditAmount)) ∧
    ((∃ entry, JournalEntry.validate 1700000000000000 1 ⟨1650000000000000, none⟩ centLines none =
        .ok entry) ↔
      ∃ entry, JournalEntry.validate 1700000000000000 1 ⟨1650000000000000, none⟩
        centLines.reverse none = .ok entry) := by
  have debits : centLines.map JournalLine.debitAmount = [⟨1250, -2⟩, ⟨0, 0⟩] := by decide +kernel
  have credits : centLines.map JournalLine.creditAmount = [⟨0, 0⟩, ⟨125, -1⟩] := by decide +kernel
  have result := @journalEntry_balance_exact 1700000000000000 1 1650000000000000 centLines none
    (by decide) (by decide) (by decide) no_description
    (fitsPrecision_of_cents [1250, 0] (by rw [debits]; norm_num [Decimal.toRat]) (by decide))
    (fitsPrecision_of_cents [0, 1250] (by rw [credits]; norm_num [Decimal.toRat]) (by decide))
  refine ⟨result.1, result.2 centLines.reverse (List.reverse_perm centLines) ?_ ?_⟩
  · exact fitsPrecision_of_cents [0, 1250]
      (by rw [List.map_reverse, debits]; norm_num [Decimal.toRat]) (by decide)
  · exact fitsPrecision_of_cents [1250, 0]
      (by rw [List.map_reverse, credits]; norm_num [Decimal.toRat]) (by decide)

/-- Lines of 29 digits: a debit of `1E+28` and one of 1 against a credit of `1E+28`. -/
def lostUnitLines : List JournalLine :=
  [(JournalLine.validate "Cash" ⟨1, 28⟩ ⟨0, 0⟩).toOption.get (.refl true),
    (JournalLine.validate "Bank" ⟨1, 0⟩ ⟨0, 0⟩).toOption.get (.refl true),
    (JournalLine.validate "Sales" ⟨0, 0⟩ ⟨1, 28⟩).toOption.get (.refl true)]

/-- Debits of `1E+28` and twice 5 against a credit of `1E+28` and 10. -/
def lostFiveLines : List JournalLine :=
  [(JournalLine.validate "Cash" ⟨1, 28⟩ ⟨0, 0⟩).toOption.get (.refl true),
    (JournalLine.validate "Bank" ⟨5, 0⟩ ⟨0, 0⟩).toOption.get (.refl true),
    (JournalLine.validate "Fees" ⟨5, 0⟩ ⟨0, 0⟩).toOption.get (.refl true),
    (JournalLine.validate "Sales" ⟨0, 0⟩ ⟨1000000000000000000000000001, 1⟩).toOption.get
      (.refl true)]

/-- An entry is accepted although its totals differ by one, and one is accepted or refused with
the order of its lines. -/
theorem journalEntry_balance_inexact :
    ((JournalEntry.validate 1700000000000000 1 ⟨1650000000000000, none⟩ lostUnitLines none).isOk =
        true ∧
      exactTotal (lostUnitLines.map JournalLine.debitAmount) =
        exactTotal (lostUnitLines.map JournalLine.creditAmount) + 1) ∧
    (JournalEntry.validate 1700000000000000 1 ⟨1650000000000000, none⟩ lostFiveLines none).isOk =
      false ∧
    (JournalEntry.validate 1700000000000000 1 ⟨1650000000000000, none⟩ lostFiveLines.reverse
      none).isOk = true := by
  have debits : lostUnitLines.map JournalLine.debitAmount = [⟨1, 28⟩, ⟨1, 0⟩, ⟨0, 0⟩] := by
    decide +kernel
  have credits : lostUnitLines.map JournalLine.creditAmount = [⟨0, 0⟩, ⟨0, 0⟩, ⟨1, 28⟩] := by
    decide +kernel
  refine ⟨⟨by decide +kernel, ?_⟩, by decide +kernel, by decide +kernel⟩
  rw [debits, credits]
  norm_num [exactTotal, Decimal.toRat]

end Trutina
