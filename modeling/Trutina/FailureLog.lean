/-
This file relates two ways of counting failures by key within a sliding window.
An ideal log keeps every failure and every success, and nothing is ever removed
from it. A table keeps one row for each failure; rows before a cutoff are purged,
and a success clears the rows of its key. As long as the table is asked only
about times from a horizon on, is purged only before the horizon, and is cleared
at least when it counts something there, the two count alike.
-/

import Mathlib

namespace FailureLog

/-! ### The ideal log -/

/-- What the log keeps. -/
inductive Event (Key Time : Type) where
  | failure (key : Key) (time : Time)
  | success (key : Key)

variable {Row Key Time : Type} [DecidableEq Key] [LinearOrder Time]

/-- The failures of a key since its last success, from a time on. The log has the newest event
first. -/
def failuresSince (key : Key) (since : Time) : List (Event Key Time) → Nat
  | [] => 0
  | .failure other time :: rest =>
    if other = key ∧ since ≤ time then failuresSince key since rest + 1
    else failuresSince key since rest
  | .success other :: rest => if other = key then 0 else failuresSince key since rest

/-! ### The table -/

section Table

variable (keyOf : Row → Key) (timeOf : Row → Time)

/-- The rows of a key from a time on. -/
def count (key : Key) (since : Time) (rows : List Row) : Nat :=
  rows.countP fun row => decide (keyOf row = key ∧ since ≤ timeOf row)

/-- The table without the rows before a cutoff. -/
def purge (cutoff : Time) (rows : List Row) : List Row :=
  rows.filter fun row => decide (cutoff ≤ timeOf row)

/-- The table without the rows of a key. -/
def clear (key : Key) (rows : List Row) : List Row :=
  rows.filter fun row => decide (keyOf row ≠ key)

variable {keyOf timeOf} {key : Key} {since cutoff : Time} {rows : List Row}

theorem count_append_singleton (row : Row) :
    count keyOf timeOf key since (rows ++ [row]) =
      if keyOf row = key ∧ since ≤ timeOf row then count keyOf timeOf key since rows + 1
      else count keyOf timeOf key since rows := by
  rw [count, List.countP_append, List.countP_singleton]
  simp only [decide_eq_true_eq]
  split <;> rfl

/-- A purge before the times that are asked about changes nothing. -/
theorem count_purge (before : cutoff ≤ since) :
    count keyOf timeOf key since (purge timeOf cutoff rows) =
      count keyOf timeOf key since rows := by
  rw [count, count, purge, List.countP_filter]
  refine List.countP_congr fun row _ => ?_
  simp only [Bool.and_eq_true, decide_eq_true_eq]
  exact and_iff_left_of_imp fun counted => before.trans counted.2

theorem count_clear_self : count keyOf timeOf key since (clear keyOf key rows) = 0 := by
  rw [count, clear, List.countP_eq_zero]
  intro row member counted
  rw [List.mem_filter, decide_eq_true_eq] at member
  exact member.2 (of_decide_eq_true counted).1

theorem count_clear_other {other : Key} (different : other ≠ key) :
    count keyOf timeOf key since (clear keyOf other rows) = count keyOf timeOf key since rows := by
  rw [count, count, clear, List.countP_filter]
  refine List.countP_congr fun row _ => ?_
  simp only [Bool.and_eq_true, decide_eq_true_eq]
  exact and_iff_left_of_imp fun counted => counted.1.trans_ne different.symm

/-- Fewer rows count from a later time on. -/
theorem count_le_of_le {later : Time} (after : since ≤ later) :
    count keyOf timeOf key later rows ≤ count keyOf timeOf key since rows := by
  refine List.countP_mono_left fun row _ counted => ?_
  rw [decide_eq_true_eq] at counted ⊢
  exact ⟨counted.1, after.trans counted.2⟩

/-- A table that has lost rows counts no more than before. -/
theorem count_le_of_sublist {fewer : List Row} (sublist : fewer.Sublist rows) :
    count keyOf timeOf key since fewer ≤ count keyOf timeOf key since rows :=
  sublist.countP_le

/-! ### Agreement -/

/-- From the horizon on, table and log count alike. -/
def Agrees (keyOf : Row → Key) (timeOf : Row → Time) (horizon : Time)
    (log : List (Event Key Time)) (rows : List Row) : Prop :=
  ∀ key since, horizon ≤ since → count keyOf timeOf key since rows = failuresSince key since log

/-- The log of which a table is all that is known. -/
def logOf (keyOf : Row → Key) (timeOf : Row → Time) (rows : List Row) : List (Event Key Time) :=
  rows.map fun row => .failure (keyOf row) (timeOf row)

theorem agrees_logOf (horizon : Time) (rows : List Row) :
    Agrees keyOf timeOf horizon (logOf keyOf timeOf rows) rows := by
  intro key since _
  induction rows with
  | nil => rfl
  | cons row rest inductionHypothesis =>
    have head : logOf keyOf timeOf (row :: rest) =
        .failure (keyOf row) (timeOf row) :: logOf keyOf timeOf rest := rfl
    rw [head, failuresSince, ← inductionHypothesis, count, List.countP_cons, ← count]
    simp only [decide_eq_true_eq]
    split <;> rfl

namespace Agrees

variable {horizon later : Time} {log : List (Event Key Time)}

theorem advance (agrees : Agrees keyOf timeOf horizon log rows) (after : horizon ≤ later) :
    Agrees keyOf timeOf later log rows :=
  fun key since within => agrees key since (after.trans within)

theorem failure (agrees : Agrees keyOf timeOf horizon log rows) (row : Row) :
    Agrees keyOf timeOf horizon (.failure (keyOf row) (timeOf row) :: log) (rows ++ [row]) := by
  intro key since within
  rw [count_append_singleton, agrees key since within, failuresSince]

theorem purge (agrees : Agrees keyOf timeOf horizon log rows) (before : cutoff ≤ horizon) :
    Agrees keyOf timeOf horizon log (FailureLog.purge timeOf cutoff rows) := by
  intro key since within
  rw [count_purge (before.trans within), agrees key since within]

theorem success_clear (agrees : Agrees keyOf timeOf horizon log rows) (key : Key) :
    Agrees keyOf timeOf horizon (.success key :: log) (clear keyOf key rows) := by
  intro other since within
  rw [failuresSince]
  split
  · rename_i same
    rw [← same, count_clear_self]
  · rename_i different
    rw [count_clear_other different, agrees other since within]

/-- A success needs no clearing when nothing counts from the horizon on. -/
theorem success_of_zero (agrees : Agrees keyOf timeOf horizon log rows)
    (zero : failuresSince key horizon log = 0) :
    Agrees keyOf timeOf horizon (.success key :: log) rows := by
  intro other since within
  rw [failuresSince]
  split
  · rename_i same
    have none := agrees key horizon le_rfl
    rw [zero, same] at none
    exact Nat.le_zero.mp (none ▸ count_le_of_le within)
  · exact agrees other since within

end Agrees

end Table

end FailureLog
