/-
This file defines regular expressions over character classes and decides
whether one matches a whole text. The meaning is an inductive relation; the
decision procedure takes one derivative for each character, and agrees with it.
A class is any decidable predicate, so a pattern is written as it stands in the
source and a match is still read off by its rules.
-/

import Mathlib.Data.List.Basic

/-- Regular expressions whose letters are classes of characters. -/
inductive Regex (Letter : Type) where
  | empty
  | epsilon
  | oneOf (members : Letter → Bool)
  | append (first second : Regex Letter)
  | either (first second : Regex Letter)
  | star (body : Regex Letter)

namespace Regex

variable {Letter : Type}

/-- One or more repetitions. -/
def plus (body : Regex Letter) : Regex Letter := .append body (.star body)

/-- Exactly `count` repetitions. -/
def times (body : Regex Letter) : Nat → Regex Letter
  | 0 => .epsilon
  | count + 1 => .append body (body.times count)

/-- Between `least` and `least + extra` repetitions. -/
def between (body : Regex Letter) (least : Nat) : Nat → Regex Letter
  | 0 => body.times least
  | extra + 1 => .either (body.times (least + extra + 1)) (body.between least extra)

/-- The texts a regular expression matches as a whole. -/
inductive Matches : Regex Letter → List Letter → Prop where
  | epsilon : Matches .epsilon []
  | oneOf {members : Letter → Bool} {letter : Letter} (member : members letter = true) :
      Matches (.oneOf members) [letter]
  | append {first second : Regex Letter} {left right : List Letter}
      (front : Matches first left) (back : Matches second right) :
      Matches (.append first second) (left ++ right)
  | eitherFirst {first second : Regex Letter} {text : List Letter} (here : Matches first text) :
      Matches (.either first second) text
  | eitherSecond {first second : Regex Letter} {text : List Letter} (here : Matches second text) :
      Matches (.either first second) text
  | starNil {body : Regex Letter} : Matches (.star body) []
  | starCons {body : Regex Letter} {letter : Letter} {left right : List Letter}
      (front : Matches body (letter :: left)) (back : Matches (.star body) right) :
      Matches (.star body) (letter :: left ++ right)

/-- Whether the empty text matches. -/
def nullable : Regex Letter → Bool
  | .empty => false
  | .epsilon => true
  | .oneOf _ => false
  | .append first second => first.nullable && second.nullable
  | .either first second => first.nullable || second.nullable
  | .star _ => true

/-- What must still match after one letter has been read. -/
def derivative (letter : Letter) : Regex Letter → Regex Letter
  | .empty => .empty
  | .epsilon => .empty
  | .oneOf members => if members letter then .epsilon else .empty
  | .append first second =>
    if first.nullable then
      .either (.append (first.derivative letter) second) (second.derivative letter)
    else .append (first.derivative letter) second
  | .either first second => .either (first.derivative letter) (second.derivative letter)
  | .star body => .append (body.derivative letter) (.star body)

/-- Whether the whole text matches. -/
def fullmatch : Regex Letter → List Letter → Bool
  | pattern, [] => pattern.nullable
  | pattern, letter :: rest => (pattern.derivative letter).fullmatch rest

/-! ### Correctness of the matcher -/

theorem matches_append_iff {first second : Regex Letter} {text : List Letter} :
    Matches (.append first second) text ↔
      ∃ left right, text = left ++ right ∧ Matches first left ∧ Matches second right := by
  constructor
  · rintro ⟨⟩
    exact ⟨_, _, rfl, ‹_›, ‹_›⟩
  · rintro ⟨left, right, rfl, front, back⟩
    exact .append front back

theorem matches_either_iff {first second : Regex Letter} {text : List Letter} :
    Matches (.either first second) text ↔ Matches first text ∨ Matches second text := by
  constructor
  · rintro (_ | _)
    · exact .inl ‹_›
    · exact .inr ‹_›
  · rintro (here | here)
    · exact .eitherFirst here
    · exact .eitherSecond here

theorem matches_oneOf_iff {members : Letter → Bool} {text : List Letter} :
    Matches (.oneOf members) text ↔ ∃ letter, text = [letter] ∧ members letter = true := by
  constructor
  · intro matched
    cases matched with
    | oneOf member => exact ⟨_, rfl, member⟩
  · rintro ⟨letter, rfl, member⟩
    exact .oneOf member

theorem not_matches_empty {text : List Letter} : ¬Matches .empty text := nofun

theorem matches_epsilon_iff {text : List Letter} : Matches .epsilon text ↔ text = [] := by
  constructor
  · rintro ⟨⟩
    rfl
  · rintro rfl
    exact .epsilon

theorem nullable_iff {pattern : Regex Letter} : pattern.nullable = true ↔ Matches pattern [] := by
  induction pattern with
  | empty => simp [nullable, not_matches_empty]
  | epsilon => simp [nullable, matches_epsilon_iff]
  | oneOf members => simp [nullable, matches_oneOf_iff]
  | append first second first_ih second_ih =>
    simp [nullable, matches_append_iff, first_ih, second_ih]
  | either first second first_ih second_ih =>
    simp [nullable, matches_either_iff, first_ih, second_ih]
  | star body => simp [nullable, Matches.starNil]

/-- A repetition that reads a letter reads it in a repetition of its body. -/
theorem matches_star_cons_iff {body : Regex Letter} {letter : Letter} {text : List Letter} :
    Matches (.star body) (letter :: text) ↔
      ∃ left right, text = left ++ right ∧ Matches body (letter :: left) ∧
        Matches (.star body) right := by
  constructor
  · rintro (_ | _ | _ | _ | _ | _ | ⟨front, back⟩)
    exact ⟨_, _, rfl, front, back⟩
  · rintro ⟨left, right, rfl, front, back⟩
    exact .starCons front back

/-- A repetition of single letters matches any letters of the class. -/
theorem matches_star_oneOf_iff {members : Letter → Bool} {text : List Letter} :
    Matches (.star (.oneOf members)) text ↔ ∀ letter ∈ text, members letter = true := by
  induction text with
  | nil => exact iff_of_true .starNil (List.forall_mem_nil _)
  | cons letter rest inductionHypothesis =>
    rw [matches_star_cons_iff, List.forall_mem_cons, ← inductionHypothesis]
    constructor
    · rintro ⟨left, right, rfl, front, back⟩
      obtain ⟨own, single, member⟩ := matches_oneOf_iff.mp front
      obtain ⟨rfl, rfl⟩ := List.cons.inj single
      exact ⟨member, back⟩
    · rintro ⟨member, back⟩
      exact ⟨[], rest, rfl, .oneOf member, back⟩

theorem derivative_iff {pattern : Regex Letter} {letter : Letter} {text : List Letter} :
    Matches (pattern.derivative letter) text ↔ Matches pattern (letter :: text) := by
  induction pattern generalizing text with
  | empty => simp [derivative, not_matches_empty]
  | epsilon => simp [derivative, not_matches_empty, matches_epsilon_iff]
  | oneOf members =>
    by_cases member : members letter = true
    · simp [derivative, member, matches_epsilon_iff, matches_oneOf_iff, and_comm]
    · simp [derivative, member, not_matches_empty, matches_oneOf_iff]
  | append first second first_ih second_ih =>
    -- The letter is read by the first part, or by the second when the first may be empty.
    have whole : Matches (.append first second) (letter :: text) ↔
        (∃ left right, text = left ++ right ∧ Matches first (letter :: left) ∧
          Matches second right) ∨ (Matches first [] ∧ Matches second (letter :: text)) := by
      rw [matches_append_iff]
      constructor
      · rintro ⟨left, right, split, front, back⟩
        cases left with
        | nil => exact .inr ⟨front, by rw [split]; exact back⟩
        | cons head left =>
          obtain ⟨rfl, rfl⟩ := List.cons.inj split
          exact .inl ⟨left, right, rfl, front, back⟩
      · rintro (⟨left, right, rfl, front, back⟩ | ⟨front, back⟩)
        · exact ⟨letter :: left, right, rfl, front, back⟩
        · exact ⟨[], letter :: text, rfl, front, back⟩
    rw [whole]
    by_cases skips : first.nullable = true
    · simp only [derivative, if_pos skips, matches_either_iff, matches_append_iff, first_ih,
        second_ih, nullable_iff.mp skips, true_and]
    · have stuck : ¬Matches first [] := fun empty => skips (nullable_iff.mpr empty)
      simp only [derivative, if_neg skips, matches_append_iff, first_ih, stuck, false_and,
        or_false]
  | either first second first_ih second_ih =>
    simp only [derivative, matches_either_iff, first_ih, second_ih]
  | star body body_ih =>
    simp only [derivative, matches_append_iff, body_ih, matches_star_cons_iff]

/-- The matcher decides the matches. -/
theorem fullmatch_iff {pattern : Regex Letter} {text : List Letter} :
    pattern.fullmatch text = true ↔ Matches pattern text := by
  induction text generalizing pattern with
  | nil => exact nullable_iff
  | cons letter rest inductionHypothesis => exact inductionHypothesis.trans derivative_iff

/-! ### The letters of a match -/

/-- Every class of the expression lies within a set of letters. -/
def Within (letters : Letter → Prop) : Regex Letter → Prop
  | .empty => True
  | .epsilon => True
  | .oneOf members => ∀ letter, members letter = true → letters letter
  | .append first second => first.Within letters ∧ second.Within letters
  | .either first second => first.Within letters ∧ second.Within letters
  | .star body => body.Within letters

theorem Matches.within {letters : Letter → Prop} {pattern : Regex Letter} {text : List Letter}
    (matched : Matches pattern text) (within : pattern.Within letters) :
    ∀ letter ∈ text, letters letter := by
  induction matched with
  | epsilon => simp
  | oneOf member => simpa using within _ member
  | append _ _ front_ih back_ih =>
    intro letter present
    rcases List.mem_append.mp present with present | present
    · exact front_ih within.1 letter present
    · exact back_ih within.2 letter present
  | eitherFirst _ here_ih => exact here_ih within.1
  | eitherSecond _ here_ih => exact here_ih within.2
  | starNil => simp
  | starCons _ _ front_ih back_ih =>
    intro letter present
    rcases List.mem_append.mp present with present | present
    · exact front_ih within letter present
    · exact back_ih within letter present

/-! ### The length of a match -/

/-- A counted repetition of single letters matches that many letters of the class. -/
theorem matches_times_iff {members : Letter → Bool} {count : Nat} {text : List Letter} :
    Matches ((Regex.oneOf members).times count) text ↔
      text.length = count ∧ ∀ letter ∈ text, members letter = true := by
  induction count generalizing text with
  | zero =>
    refine matches_epsilon_iff.trans ⟨?_, fun both => List.length_eq_zero_iff.mp both.1⟩
    rintro rfl
    exact ⟨rfl, List.forall_mem_nil _⟩
  | succ count inductionHypothesis =>
    constructor
    · intro matched
      obtain ⟨left, right, rfl, front, back⟩ := matches_append_iff.mp matched
      obtain ⟨letter, rfl, member⟩ := matches_oneOf_iff.mp front
      obtain ⟨length, members⟩ := inductionHypothesis.mp back
      exact ⟨congrArg (· + 1) length, List.forall_mem_cons.mpr ⟨member, members⟩⟩
    · rintro ⟨length, members⟩
      obtain ⟨letter, rest, rfl⟩ := List.exists_cons_of_length_eq_add_one length
      obtain ⟨member, members⟩ := List.forall_mem_cons.mp members
      have back := inductionHypothesis.mpr ⟨Nat.succ.inj length, members⟩
      exact .append (.oneOf member) back

theorem matches_between_iff {members : Letter → Bool} {least extra : Nat} {text : List Letter} :
    Matches ((Regex.oneOf members).between least extra) text ↔
      (least ≤ text.length ∧ text.length ≤ least + extra) ∧
        ∀ letter ∈ text, members letter = true := by
  induction extra with
  | zero =>
    refine matches_times_iff.trans (and_congr_left fun _ => ?_)
    omega
  | succ extra inductionHypothesis =>
    refine matches_either_iff.trans ?_
    rw [matches_times_iff, inductionHypothesis, ← or_and_right]
    refine and_congr_left fun _ => ?_
    omega

end Regex
