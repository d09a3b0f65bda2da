/-
This file models decimal floating-point arithmetic as the General Decimal
Arithmetic specification defines it. A number is an integer coefficient scaled
by a power of ten, and every addition rounds its exact sum half to even to the
precision of a context. Two numbers are equal when their values are, whatever
their coefficients. The content is that arithmetic respects this equality, and
that a sum whose exact value fits the precision is exact. Numbers are also
rounded half up to a fixed number of places, as fixed-point columns store them.
-/

import Mathlib

/-- A finite decimal number: `coefficient * 10 ^ exponent`. -/
structure Decimal where
  coefficient : Int
  exponent : Int
  deriving DecidableEq, Repr

namespace Decimal

/-- What arithmetic can raise: the result is beyond the exponent range of the context. -/
inductive ArithmeticError where
  | overflow
  deriving DecidableEq, Repr

/-- How many digits a coefficient may keep, and the range of the adjusted exponents. -/
structure Context where
  precision : Nat
  maxExponent : Int
  minExponent : Int
  precision_pos : 0 < precision
  range_nonempty : minExponent ≤ maxExponent

/-- The exponent of the least significant digit of the smallest numbers. -/
def Context.tiny (context : Context) : Int := context.minExponent - context.precision + 1

/-- The exponent of the least significant digit of the largest numbers. -/
def Context.top (context : Context) : Int := context.maxExponent - context.precision + 1

theorem Context.tiny_le_top (context : Context) : context.tiny ≤ context.top := by
  have := context.range_nonempty
  unfold Context.tiny Context.top
  omega

/-- The rational value of a number. -/
def toRat (number : Decimal) : ℚ := number.coefficient * 10 ^ number.exponent

/-- The coefficient a number has at a smaller exponent. -/
def coefficientAt (exponent : Int) (number : Decimal) : Int :=
  number.coefficient * 10 ^ (number.exponent - exponent).toNat

/-- Numeric comparison: `1.0` equals `1.00`. -/
def equals (first second : Decimal) : Bool :=
  coefficientAt (min first.exponent second.exponent) first =
    coefficientAt (min first.exponent second.exponent) second

/-- The number of decimal digits of a positive number. -/
def digits (number : Nat) : Nat := Nat.log 10 number + 1

/-- Integer division rounded half to even. -/
def divideHalfEven (number divisor : Nat) : Nat :=
  if 2 * (number % divisor) < divisor ∨
      (2 * (number % divisor) = divisor ∧ number / divisor % 2 = 0) then
    number / divisor
  else number / divisor + 1

/-- A rounded coefficient at its exponent. Rounding up may have added a digit, which is a zero
to be dropped, and may have left the exponent range. -/
def finish (context : Context) (sign : Int) (rounded : Nat) (exponent : Int) :
    Except ArithmeticError Decimal :=
  let (coefficient, exponent) :=
    if context.precision < digits rounded then (rounded / 10, exponent + 1)
    else (rounded, exponent)
  if context.top < exponent then .error .overflow else .ok ⟨sign * coefficient, exponent⟩

/-- Round an exact result to the context. -/
def fix (context : Context) (number : Decimal) : Except ArithmeticError Decimal :=
  if number.coefficient = 0 then
    .ok ⟨0, min (max number.exponent context.tiny) context.maxExponent⟩
  else
    let least := digits number.coefficient.natAbs + number.exponent - context.precision
    if context.top < least then .error .overflow
    else if max least context.tiny ≤ number.exponent then .ok number
    else
      finish context number.coefficient.sign
        (divideHalfEven number.coefficient.natAbs
          (10 ^ (max least context.tiny - number.exponent).toNat))
        (max least context.tiny)

/-- The exact sum of two numbers. -/
def exactSum (first second : Decimal) : Decimal :=
  ⟨coefficientAt (min first.exponent second.exponent) first +
    coefficientAt (min first.exponent second.exponent) second,
    min first.exponent second.exponent⟩

/-- Addition rounds the exact sum. -/
def add (context : Context) (first second : Decimal) : Except ArithmeticError Decimal :=
  fix context (exactSum first second)

/-- The running sum of a list, from zero, in order. -/
def sum (context : Context) (numbers : List Decimal) : Except ArithmeticError Decimal :=
  numbers.foldlM (add context) ⟨0, 0⟩

/-- The value of a number at `scale` decimal places, rounded half away from zero. -/
def roundHalfUp (scale : Nat) (number : Decimal) : Int :=
  if -(scale : Int) ≤ number.exponent then coefficientAt (-scale) number
  else
    let divisor := 10 ^ (-(scale : Int) - number.exponent).toNat
    number.coefficient.sign *
      ((2 * number.coefficient.natAbs + divisor) / (2 * divisor) : Nat)

/-! ### Values -/

theorem ten_zpow_ne_zero (exponent : Int) : (10 : ℚ) ^ exponent ≠ 0 :=
  zpow_ne_zero _ (by norm_num)

theorem ten_pow_toNat {exponent : Int} (nonneg : 0 ≤ exponent) :
    (10 : ℚ) ^ exponent.toNat = 10 ^ exponent := by
  rw [← zpow_natCast, Int.toNat_of_nonneg nonneg]

theorem coefficientAt_value {exponent : Int} {number : Decimal}
    (below : exponent ≤ number.exponent) :
    (coefficientAt exponent number : ℚ) * 10 ^ exponent = number.toRat := by
  unfold coefficientAt toRat
  push_cast
  rw [ten_pow_toNat (by omega), mul_assoc, ← zpow_add₀ (by norm_num : (10 : ℚ) ≠ 0)]
  congr 2
  omega

theorem equals_iff {first second : Decimal} :
    equals first second = true ↔ first.toRat = second.toRat := by
  rw [← coefficientAt_value (min_le_left first.exponent second.exponent),
    ← coefficientAt_value (min_le_right first.exponent second.exponent),
    mul_left_inj' (ten_zpow_ne_zero _), Int.cast_inj]
  simp [equals]

theorem toRat_exactSum (first second : Decimal) :
    (exactSum first second).toRat = first.toRat + second.toRat := by
  rw [← coefficientAt_value (min_le_left first.exponent second.exponent),
    ← coefficientAt_value (min_le_right first.exponent second.exponent), ← add_mul]
  simp [exactSum, toRat]

/-! ### Rounding depends on the value alone -/

/-- The same value at a smaller exponent. -/
def rescale (number : Decimal) (places : Nat) : Decimal :=
  ⟨number.coefficient * 10 ^ places, number.exponent - places⟩

/-- Of two numbers of one value, the one with the smaller exponent is the other rescaled. -/
theorem eq_rescale {first second : Decimal} (same : first.toRat = second.toRat)
    (below : second.exponent ≤ first.exponent) :
    second = rescale first (first.exponent - second.exponent).toNat := by
  have scaled := coefficientAt_value below
  rw [same] at scaled
  have coefficients : coefficientAt second.exponent first = second.coefficient :=
    Int.cast_injective ((mul_left_inj' (ten_zpow_ne_zero second.exponent)).mp scaled)
  obtain ⟨coefficient, exponent⟩ := second
  simp only [rescale, mk.injEq]
  exact ⟨coefficients.symm, by simp only at below; omega⟩

theorem digits_mul_pow {number : Nat} (positive : number ≠ 0) (places : Nat) :
    digits (number * 10 ^ places) = digits number + places := by
  induction places with
  | zero => simp
  | succ places inductionHypothesis =>
    have product : number * 10 ^ places ≠ 0 := Nat.mul_ne_zero positive (by positivity)
    unfold digits at *
    rw [pow_succ, ← mul_assoc, Nat.log_mul_base (by norm_num) product]
    omega

theorem digits_le_iff {number count : Nat} (positive : number ≠ 0) :
    digits number ≤ count ↔ number < 10 ^ count := by
  unfold digits
  rw [Nat.add_one_le_iff, Nat.log_lt_iff_lt_pow (by norm_num) positive]

theorem divideHalfEven_mul_right (number divisor : Nat) {factor : Nat} (positive : 0 < factor) :
    divideHalfEven (number * factor) (divisor * factor) = divideHalfEven number divisor := by
  have smaller : 2 * (number % divisor * factor) < divisor * factor ↔
      2 * (number % divisor) < divisor := by
    rw [← mul_assoc]
    exact Nat.mul_lt_mul_right positive
  have equal : 2 * (number % divisor * factor) = divisor * factor ↔
      2 * (number % divisor) = divisor := by
    rw [← mul_assoc]
    exact Nat.mul_left_inj positive.ne'
  simp only [divideHalfEven, Nat.mul_mod_mul_right, Nat.mul_div_mul_right _ _ positive, smaller,
    equal]

theorem divideHalfEven_one (number : Nat) : divideHalfEven number 1 = number := by
  simp [divideHalfEven, Nat.mod_one]

/-- Dropping zeros that were only appended loses nothing. -/
theorem divideHalfEven_exact (number : Nat) {kept dropped : Nat} (within : dropped ≤ kept) :
    divideHalfEven (number * 10 ^ kept) (10 ^ dropped) = number * 10 ^ (kept - dropped) := by
  have split : number * 10 ^ kept = number * 10 ^ (kept - dropped) * 10 ^ dropped := by
    rw [mul_assoc, ← pow_add, Nat.sub_add_cancel within]
  have cancel := divideHalfEven_mul_right (number * 10 ^ (kept - dropped)) 1
    (by positivity : 0 < 10 ^ dropped)
  rw [one_mul, divideHalfEven_one] at cancel
  rw [split, cancel]

theorem sign_mul_natAbs_pow (coefficient : Int) (places : Nat) :
    coefficient.sign * ((coefficient.natAbs * 10 ^ places : Nat) : Int) =
      coefficient * 10 ^ places := by
  push_cast
  rw [← mul_assoc, Int.sign_mul_abs]

theorem sign_mul_pow (coefficient : Int) (places : Nat) :
    (coefficient * 10 ^ places).sign = coefficient.sign := by
  rw [Int.sign_mul, Int.sign_eq_one_of_pos (by positivity : (0 : Int) < 10 ^ places), mul_one]

theorem toRat_rescale (number : Decimal) (places : Nat) :
    (rescale number places).toRat = number.toRat := by
  unfold rescale toRat
  push_cast
  rw [mul_assoc, ← zpow_natCast, ← zpow_add₀ (by norm_num : (10 : ℚ) ≠ 0)]
  congr 2
  omega

/-- Rounding a rescaled number gives the same value, or overflows as well. -/
theorem fix_rescale (context : Context) (number : Decimal) (places : Nat) :
    (fix context (rescale number places)).map toRat = (fix context number).map toRat := by
  by_cases zero : number.coefficient = 0
  · simp [fix, rescale, zero, Except.map, toRat]
  have magnitude : number.coefficient.natAbs ≠ 0 := Int.natAbs_ne_zero.mpr zero
  have scaledMagnitude : (number.coefficient * 10 ^ places).natAbs =
      number.coefficient.natAbs * 10 ^ places := by
    rw [Int.natAbs_mul, Int.natAbs_pow]
    rfl
  have scaledNonzero : number.coefficient * 10 ^ places ≠ 0 :=
    mul_ne_zero zero (by positivity)
  -- The leading digit stays where it is, so the least kept exponent is the same.
  have sameLeast : (digits (number.coefficient.natAbs * 10 ^ places) : Int) +
      (number.exponent - places) - context.precision =
        digits number.coefficient.natAbs + number.exponent - context.precision := by
    rw [digits_mul_pow magnitude]
    push_cast
    ring
  simp only [fix, rescale, if_neg scaledNonzero, if_neg zero, scaledMagnitude, sameLeast,
    sign_mul_pow]
  generalize leastEq : (digits number.coefficient.natAbs : Int) + number.exponent -
    context.precision = least
  by_cases above : context.top < least
  · simp only [if_pos above]
  simp only [if_neg above]
  have bound : max least context.tiny ≤ context.top := by
    have := context.tiny_le_top
    omega
  by_cases fits : max least context.tiny ≤ number.exponent
  · -- The original keeps its digits, so only appended zeros can be dropped.
    rw [if_pos fits]
    by_cases still : max least context.tiny ≤ number.exponent - places
    · rw [if_pos still]
      exact congrArg Except.ok (toRat_rescale number places)
    · rw [if_neg still]
      obtain ⟨dropped, droppedEq⟩ : ∃ dropped : Nat,
          max least context.tiny - (number.exponent - places) = dropped :=
        ⟨_, (Int.toNat_of_nonneg (by omega)).symm⟩
      have within : dropped ≤ places := by omega
      rw [droppedEq, Int.toNat_natCast, divideHalfEven_exact _ within]
      have short : ¬context.precision <
          digits (number.coefficient.natAbs * 10 ^ (places - dropped)) := by
        rw [digits_mul_pow magnitude]
        omega
      simp only [finish, if_neg short, if_neg (not_lt.mpr bound), sign_mul_natAbs_pow, Except.map]
      refine congrArg Except.ok ?_
      rw [← toRat_rescale number (places - dropped)]
      simp only [rescale]
      congr 2
      omega
  · -- Both round at the same exponent, and the quotients are the same.
    have still : ¬max least context.tiny ≤ number.exponent - places := by omega
    rw [if_neg fits, if_neg still]
    have shift : (max least context.tiny - (number.exponent - places)).toNat =
        (max least context.tiny - number.exponent).toNat + places := by omega
    rw [shift, pow_add, divideHalfEven_mul_right _ _ (by positivity)]

/-- Rounding respects numeric equality. -/
theorem fix_congr (context : Context) {first second : Decimal}
    (same : first.toRat = second.toRat) :
    (fix context first).map toRat = (fix context second).map toRat := by
  rcases le_total second.exponent first.exponent with below | below
  · rw [eq_rescale same below, fix_rescale]
  · rw [eq_rescale same.symm below, fix_rescale]

theorem add_congr (context : Context) {first second first' second' : Decimal}
    (left : first.toRat = first'.toRat) (right : second.toRat = second'.toRat) :
    (add context first second).map toRat = (add context first' second').map toRat :=
  fix_congr context (by rw [toRat_exactSum, toRat_exactSum, left, right])

/-- Sums of numerically equal lists are numerically equal, or overflow together. -/
theorem sum_congr (context : Context) {first second : List Decimal}
    (same : first.map toRat = second.map toRat) :
    (sum context first).map toRat = (sum context second).map toRat := by
  have general : ∀ (start start' : Decimal), start.toRat = start'.toRat →
      (first.foldlM (add context) start).map toRat =
        (second.foldlM (add context) start').map toRat := by
    induction first generalizing second with
    | nil =>
      intro start start' equal
      rw [List.map_nil, eq_comm, List.map_eq_nil_iff] at same
      rw [same]
      exact congrArg Except.ok equal
    | cons head rest inductionHypothesis =>
      intro start start' equal
      obtain ⟨head', rest', rfl, headSame, restSame⟩ := List.map_eq_cons_iff.mp same.symm
      have added := add_congr context equal headSame.symm
      simp only [List.foldlM_cons]
      cases left : add context start head with
      | error error =>
        rw [left] at added
        cases right : add context start' head' with
        | error error' =>
          rw [right] at added
          exact added
        | ok total' =>
          rw [right] at added
          cases added
      | ok total =>
        rw [left] at added
        cases right : add context start' head' with
        | error error' =>
          rw [right] at added
          cases added
        | ok total' =>
          rw [right] at added
          exact inductionHypothesis restSame.symm total total' (Except.ok.inj added)
  exact general _ _ rfl

/-! ### Exact results -/

/-- A number that fits the precision and the exponent range is not rounded. -/
theorem fix_exact (context : Context) {number : Decimal} (lower : context.tiny ≤ number.exponent)
    (upper : number.exponent ≤ context.top)
    (fits : number.coefficient.natAbs < 10 ^ context.precision) :
    fix context number = .ok number := by
  by_cases zero : number.coefficient = 0
  · have positive := context.precision_pos
    have within : number.exponent ≤ context.maxExponent := by
      unfold Context.top at upper
      omega
    obtain ⟨coefficient, exponent⟩ := number
    simp only at zero lower within
    subst zero
    simp [fix, max_eq_left lower, min_eq_left within]
  · have short : digits number.coefficient.natAbs ≤ context.precision :=
      (digits_le_iff (Int.natAbs_ne_zero.mpr zero)).mpr fits
    simp only [fix, if_neg zero]
    rw [if_neg (by omega), if_pos (by omega)]

/-- Non-negative numbers at one exponent are summed exactly while the sum fits the precision. -/
theorem sum_exact (context : Context) {exponent : Int} (lower : context.tiny ≤ exponent)
    (upper : exponent ≤ context.top) (nonpositive : exponent ≤ 0) (coefficients : List Nat)
    (fits : coefficients.sum < 10 ^ context.precision) :
    ∃ total, sum context (coefficients.map fun coefficient : Nat => ⟨coefficient, exponent⟩) =
      .ok total ∧ total.toRat = coefficients.sum * 10 ^ exponent := by
  have general : ∀ (rest : List Nat) (start : Nat),
      start + rest.sum < 10 ^ context.precision →
      (rest.map fun coefficient : Nat => (⟨coefficient, exponent⟩ : Decimal)).foldlM (add context)
        ⟨start, exponent⟩ = .ok ⟨(start + rest.sum : Nat), exponent⟩ := by
    intro rest
    induction rest with
    | nil =>
      intro start _
      rfl
    | cons head tail inductionHypothesis =>
      intro start small
      rw [List.sum_cons, ← add_assoc] at small
      have step : add context ⟨start, exponent⟩ ⟨head, exponent⟩ =
          .ok ⟨(start + head : Nat), exponent⟩ := by
        have exact : exactSum ⟨start, exponent⟩ ⟨head, exponent⟩ =
            ⟨(start + head : Nat), exponent⟩ := by
          simp [exactSum, coefficientAt]
        rw [add, exact]
        exact fix_exact context lower upper (by rw [Int.natAbs_natCast]; omega)
      rw [List.map_cons, List.foldlM_cons, step]
      refine (inductionHypothesis (start + head) small).trans ?_
      rw [List.sum_cons, add_assoc]
  cases coefficients with
  | nil => exact ⟨⟨0, 0⟩, rfl, by simp [toRat]⟩
  | cons head tail =>
    rw [List.sum_cons] at fits
    have first : add context ⟨0, 0⟩ ⟨head, exponent⟩ = .ok ⟨head, exponent⟩ := by
      have exact : exactSum ⟨0, 0⟩ ⟨head, exponent⟩ = ⟨head, exponent⟩ := by
        simp [exactSum, coefficientAt, min_eq_right nonpositive]
      rw [add, exact]
      exact fix_exact context lower upper (by rw [Int.natAbs_natCast]; omega)
    refine ⟨⟨(head + tail.sum : Nat), exponent⟩, ?_, by
      rw [toRat, List.sum_cons, Int.cast_natCast]⟩
    rw [sum, List.map_cons, List.foldlM_cons, first]
    exact general tail head fits

/-! ### Values that a context holds -/

/-- A value that a context holds without rounding. -/
def Context.Holds (context : Context) (value : ℚ) : Prop :=
  ∃ number : Decimal, number.toRat = value ∧ context.tiny ≤ number.exponent ∧
    number.exponent ≤ context.top ∧ number.coefficient.natAbs < 10 ^ context.precision

/-- A sum that the context holds is exact, whatever its coefficient and exponent. -/
theorem add_of_holds (context : Context) {first second : Decimal}
    (holds : context.Holds (first.toRat + second.toRat)) :
    ∃ total, add context first second = .ok total ∧
      total.toRat = first.toRat + second.toRat := by
  obtain ⟨number, value, lower, upper, fits⟩ := holds
  have same := fix_congr context ((toRat_exactSum first second).trans value.symm)
  rw [fix_exact context lower upper fits] at same
  rw [add]
  cases rounded : fix context (exactSum first second) with
  | error error =>
    rw [rounded] at same
    cases same
  | ok total =>
    rw [rounded] at same
    exact ⟨total, rfl, (Except.ok.inj same).trans value⟩

/-- A column all of whose partial sums the context holds is summed without any rounding. -/
theorem foldlM_add_of_holds (context : Context) {numbers : List Decimal} {start : Decimal}
    (holds : ∀ count, context.Holds (start.toRat + ((numbers.take count).map toRat).sum)) :
    ∃ total, numbers.foldlM (add context) start = .ok total ∧
      total.toRat = start.toRat + (numbers.map toRat).sum := by
  induction numbers generalizing start with
  | nil => exact ⟨start, rfl, by simp⟩
  | cons number rest inductionHypothesis =>
    have first : context.Holds (start.toRat + number.toRat) := by simpa using holds 1
    obtain ⟨next, added, value⟩ := add_of_holds context first
    obtain ⟨total, summed, tail⟩ := @inductionHypothesis next fun count => by
      simpa [value, add_assoc] using holds (count + 1)
    refine ⟨total, ?_, ?_⟩
    · rw [List.foldlM_cons, added]
      exact summed
    · rw [tail, value, List.map_cons, List.sum_cons, add_assoc]

theorem sum_of_holds (context : Context) {numbers : List Decimal}
    (holds : ∀ count, context.Holds ((numbers.take count).map toRat).sum) :
    ∃ total, sum context numbers = .ok total ∧ total.toRat = (numbers.map toRat).sum := by
  have zero : (⟨0, 0⟩ : Decimal).toRat = 0 := by simp [toRat]
  have whole := @foldlM_add_of_holds context numbers ⟨0, 0⟩ fun count => by
    rw [zero, zero_add]
    exact holds count
  rwa [zero, zero_add] at whole

theorem Context.holds_zero (context : Context) : context.Holds 0 :=
  ⟨⟨0, context.tiny⟩, by simp [toRat], le_rfl, context.tiny_le_top, by simp⟩

/-- A number of enough digits at an exponent that is not too small is held: where its exponent is
too large, zeros are appended. -/
theorem Context.holds_of_digits (context : Context) {number : Decimal}
    (positive : number.coefficient ≠ 0) (lower : context.tiny ≤ number.exponent)
    (fits : digits number.coefficient.natAbs ≤ context.precision)
    (least : digits number.coefficient.natAbs + number.exponent - context.precision ≤
      context.top) : context.Holds number.toRat := by
  by_cases upper : number.exponent ≤ context.top
  · exact ⟨number, rfl, lower, upper,
      (digits_le_iff (Int.natAbs_ne_zero.mpr positive)).mp fits⟩
  · obtain ⟨places, raised⟩ : ∃ places : Nat, number.exponent = context.top + places :=
      ⟨(number.exponent - context.top).toNat, by omega⟩
    have sized : digits (number.rescale places).coefficient.natAbs ≤ context.precision := by
      rw [rescale, Int.natAbs_mul, Int.natAbs_pow]
      rw [show (10 : Int).natAbs = 10 from rfl, digits_mul_pow (Int.natAbs_ne_zero.mpr positive)]
      omega
    have nonzero : (number.rescale places).coefficient ≠ 0 :=
      mul_ne_zero positive (pow_ne_zero _ (by decide))
    have exponent : (number.rescale places).exponent = context.top :=
      sub_eq_of_eq_add raised
    exact ⟨number.rescale places, toRat_rescale number places, by
      rw [exponent]; exact context.tiny_le_top, exponent.le,
      (digits_le_iff (Int.natAbs_ne_zero.mpr nonzero)).mp sized⟩

theorem divideHalfEven_le {number divisor bound : Nat} (below : number < bound * divisor) :
    divideHalfEven number divisor ≤ bound := by
  have quotient : number / divisor < bound := Nat.div_lt_of_lt_mul (by rwa [mul_comm])
  unfold divideHalfEven
  split <;> omega

/-- A rounded coefficient of at most one digit too many is held once the digit is dropped. -/
theorem finish_holds (context : Context) {sign exponent : Int} {rounded : Nat} {total : Decimal}
    (unit : sign.natAbs ≤ 1) (lower : context.tiny ≤ exponent)
    (bounded : rounded ≤ 10 ^ context.precision)
    (finished : finish context sign rounded exponent = .ok total) :
    context.Holds total.toRat := by
  have kept : ∀ coefficient : Nat, coefficient < 10 ^ context.precision →
      (sign * coefficient).natAbs < 10 ^ context.precision := by
    intro coefficient small
    rw [Int.natAbs_mul, Int.natAbs_natCast]
    exact (Nat.mul_le_mul_right _ unit).trans_lt (by rwa [one_mul])
  have enough : 0 < 10 ^ context.precision := by positivity
  unfold finish at finished
  by_cases carried : context.precision < digits rounded
  · have dropped : rounded / 10 < 10 ^ context.precision := by omega
    simp only [if_pos carried] at finished
    split at finished
    · cases finished
    · rename_i within
      obtain rfl := Except.ok.inj finished
      exact ⟨_, rfl, by simp only; omega, not_lt.mp within, kept _ dropped⟩
  · simp only [if_neg carried] at finished
    have small : rounded < 10 ^ context.precision := by
      by_cases zero : rounded = 0
      · rwa [zero]
      · exact (digits_le_iff zero).mp (not_lt.mp carried)
    split at finished
    · cases finished
    · rename_i within
      obtain rfl := Except.ok.inj finished
      exact ⟨_, rfl, lower, not_lt.mp within, kept _ small⟩

/-- What rounding returns is held. -/
theorem fix_holds (context : Context) {number total : Decimal}
    (fixed : fix context number = .ok total) : context.Holds total.toRat := by
  unfold fix at fixed
  split at fixed
  · obtain rfl := Except.ok.inj fixed
    simpa [toRat] using context.holds_zero
  · rename_i nonzero
    have magnitude := Int.natAbs_ne_zero.mpr nonzero
    simp only at fixed
    split at fixed
    · cases fixed
    · rename_i least
      split at fixed
      · rename_i whole
        obtain rfl := Except.ok.inj fixed
        exact context.holds_of_digits nonzero (by omega) (by omega) (by omega)
      · rename_i cut
        refine finish_holds context (Int.natAbs_sign_of_ne_zero nonzero).le (le_max_right _ _)
          (divideHalfEven_le ?_) fixed
        have size : digits number.coefficient.natAbs ≤ context.precision +
            (max (digits number.coefficient.natAbs + number.exponent - context.precision)
              context.tiny - number.exponent).toNat := by omega
        rw [← pow_add]
        exact (digits_le_iff magnitude).mp size

theorem sum_holds (context : Context) {numbers : List Decimal} {total : Decimal}
    (summed : sum context numbers = .ok total) : context.Holds total.toRat := by
  induction numbers using List.reverseRecOn with
  | nil =>
    obtain rfl := Except.ok.inj summed
    simpa [toRat] using context.holds_zero
  | append_singleton numbers number _ =>
    rw [sum, List.foldlM_append] at summed
    cases previous : numbers.foldlM (add context) ⟨0, 0⟩ with
    | error error =>
      rw [previous] at summed
      cases summed
    | ok running =>
      rw [previous] at summed
      exact fix_holds context ((bind_pure (add context running number)).symm.trans summed)

/-! ### Rounding to a fixed number of places -/

/-- A number that has `scale` decimal places is stored as it is. -/
theorem roundHalfUp_of_value {scale : Nat} {number : Decimal} {units : Int}
    (value : number.toRat = units * 10 ^ (-(scale : Int))) :
    roundHalfUp scale number = units := by
  unfold roundHalfUp
  by_cases coarse : -(scale : Int) ≤ number.exponent
  · rw [if_pos coarse]
    have scaled := coefficientAt_value coarse
    rw [value] at scaled
    exact Int.cast_injective ((mul_left_inj' (ten_zpow_ne_zero _)).mp scaled)
  · -- The number is the stored one with zeros appended, so nothing is rounded.
    rw [if_neg coarse]
    have stored : (⟨units, -scale⟩ : Decimal).toRat = number.toRat := value.symm
    have scaled := eq_rescale stored (by simp only; omega)
    simp only [rescale] at scaled
    generalize (-(scale : Int) - number.exponent).toNat = places at scaled ⊢
    rw [scaled]
    simp only [sign_mul_pow, Int.natAbs_mul, Int.natAbs_pow]
    have quotient : (2 * (units.natAbs * 10 ^ places) + 10 ^ places) / (2 * 10 ^ places) =
        units.natAbs := by
      have positive : 0 < 10 ^ places := by positivity
      refine Nat.div_eq_of_lt_le ?_ ?_
      · nlinarith
      · nlinarith
    have ten : (10 : Int).natAbs = 10 := rfl
    rw [ten, quotient, Int.natCast_natAbs, Int.sign_mul_abs]

theorem roundHalfUp_self (scale : Nat) (units : Int) : roundHalfUp scale ⟨units, -scale⟩ = units :=
  roundHalfUp_of_value rfl

/-- The numbers with at most `scale` decimal places. -/
def HasPlaces (scale : Nat) (number : Decimal) : Prop :=
  ∃ units : Int, number.toRat = units * 10 ^ (-(scale : Int))

/-- They are the numbers that rounding does not change. -/
theorem hasPlaces_iff {scale : Nat} {number : Decimal} :
    HasPlaces scale number ↔ equals ⟨roundHalfUp scale number, -scale⟩ number = true := by
  rw [equals_iff]
  constructor
  · rintro ⟨units, value⟩
    rw [roundHalfUp_of_value value]
    exact value.symm
  · exact fun same => ⟨_, same.symm⟩

instance (scale : Nat) (number : Decimal) : Decidable (HasPlaces scale number) :=
  decidable_of_iff _ hasPlaces_iff.symm

theorem roundHalfUp_nonneg {scale : Nat} {number : Decimal} (nonneg : 0 ≤ number.coefficient) :
    0 ≤ roundHalfUp scale number := by
  unfold roundHalfUp
  split
  · unfold coefficientAt
    positivity
  · exact mul_nonneg (Int.sign_nonneg_iff.mpr nonneg) (Int.natCast_nonneg _)

end Decimal
