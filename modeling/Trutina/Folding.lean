/-
This file proves that case folding settles: what it produces it leaves alone, it
produces at least one character for each, and it makes no white space out of
anything else. So folding a trimmed text twice is folding it once, and the
result is trimmed. The tables are checked as a whole: the code points that
folding moves and the white space are the bits of one number, and no code point
that folding produces is among them.
-/

import Trutina.Text
import Mathlib.Data.Nat.Bitwise

namespace Trutina

/-! ### Sets of code points -/

/-- The numbers as the bits of one. -/
def bitsOf (codes : List Nat) : Nat := codes.foldl (fun bits code => bits ||| 2 ^ code) 0

theorem testBit_bitsOf {codes : List Nat} {code : Nat} :
    (bitsOf codes).testBit code = true ↔ code ∈ codes := by
  have general : ∀ bits, (codes.foldl (fun bits code => bits ||| 2 ^ code) bits).testBit code =
      (bits.testBit code || codes.contains code) := by
    induction codes with
    | nil => simp
    | cons first rest inductionHypothesis =>
      intro bits
      rw [List.foldl_cons, inductionHypothesis, Nat.testBit_or, Nat.testBit_two_pow,
        List.contains_cons, Bool.or_assoc]
      congr 2
      rw [Bool.eq_iff_iff, decide_eq_true_eq, beq_iff_eq]
      exact eq_comm
  rw [bitsOf, general, Nat.zero_testBit, Bool.false_or, List.contains_iff_mem]

/-- The code points of a range: its first and last one, and the distance between two. -/
def codesOf (first last step : Nat) : List Nat :=
  (List.range ((last - first) / step + 1)).map fun index => first + index * step

theorem mem_codesOf {first last step code : Nat} (lower : first ≤ code) (upper : code ≤ last)
    (stride : (code - first) % step = 0) : code ∈ codesOf first last step := by
  refine List.mem_map.mpr ⟨(code - first) / step, ?_, ?_⟩
  · have within : (code - first) / step ≤ (last - first) / step :=
      Nat.div_le_div_right (by omega)
    exact List.mem_range.mpr (by omega)
  · rw [Nat.div_mul_cancel (Nat.dvd_of_mod_eq_zero stride)]
    omega

/-! ### What folding moves and what it produces -/

/-- The code points that folding changes. -/
def movedCodes : List Nat :=
  codesOf 65 90 1 ++ foldExpansions.map Prod.fst ++
    foldShifts.flatMap fun (first, last, step, _) => codesOf first last step

/-- The code points that folding changes others to. -/
def foldedCodes : List Nat :=
  codesOf 97 122 1 ++ foldExpansions.flatMap Prod.snd ++
    foldShifts.flatMap fun (first, last, step, shift) =>
      (codesOf first last step).map fun code : Nat => ((code : Int) + shift).toNat

theorem foldedCodes_valid : ∀ code ∈ foldedCodes, (Char.ofNat code).toNat = code := by
  decide +kernel

/-- Folding moves nothing that it produces, and produces no white space. -/
theorem foldedCodes_unmoved {code : Nat} (member : code ∈ foldedCodes) :
    code ∉ movedCodes ∧ code ∉ spaceCodes := by
  have disjoint : (let bits := bitsOf (movedCodes ++ spaceCodes);
      foldedCodes.all fun code => !bits.testBit code) = true := by decide +kernel
  have unset := List.all_eq_true.mp disjoint code member
  rw [Bool.not_eq_true', ← Bool.not_eq_true, testBit_bitsOf, List.mem_append, not_or] at unset
  exact unset

theorem foldExpansions_nonempty : ∀ entry ∈ foldExpansions, entry.2 ≠ [] := by decide +kernel

theorem mem_of_lookup {Value : Type} {entries : List (Nat × Value)} {key : Nat} {value : Value}
    (found : entries.lookup key = some value) : (key, value) ∈ entries := by
  induction entries with
  | nil => cases found
  | cons entry rest inductionHypothesis =>
    obtain ⟨other, first⟩ := entry
    rw [List.lookup_cons] at found
    split at found
    · rename_i same
      rw [Option.some.injEq] at found
      rw [← beq_iff_eq.mp same, found]
      exact List.mem_cons_self
    · exact List.mem_cons_of_mem _ (inductionHypothesis found)

/-- A code point is shifted to one that folding produces, or left alone. -/
theorem foldCode_cases (code : Nat) : foldCode code = code ∨ foldCode code ∈ foldedCodes := by
  unfold foldCode
  split
  · rename_i first last step shift found
    have covers := List.find?_some found
    simp only [Bool.and_eq_true, decide_eq_true_eq, beq_iff_eq] at covers
    refine .inr (List.mem_append_right _ (List.mem_flatMap.mpr
      ⟨_, List.mem_of_find?_eq_some found, List.mem_map.mpr ⟨code, ?_, rfl⟩⟩))
    exact mem_codesOf covers.1.1 covers.1.2 covers.2
  · exact .inl rfl

theorem foldCode_of_unmoved {code : Nat} (unmoved : code ∉ movedCodes) : foldCode code = code := by
  unfold foldCode
  split
  · rename_i first last step shift found
    have covers := List.find?_some found
    simp only [Bool.and_eq_true, decide_eq_true_eq, beq_iff_eq] at covers
    refine absurd (List.mem_append_right _ (List.mem_flatMap.mpr
      ⟨_, List.mem_of_find?_eq_some found, ?_⟩)) unmoved
    exact mem_codesOf covers.1.1 covers.1.2 covers.2
  · rfl

theorem toLower_cases {character : Char} (ascii : character.toNat < 128) :
    (character.toLower = character ∨ character.toLower.toNat ∈ foldedCodes) ∧
      (character.toNat ∉ movedCodes → character.toLower = character) := by
  have each : ∀ code < 128, ((Char.ofNat code).toLower = Char.ofNat code ∨
      (bitsOf foldedCodes).testBit (Char.ofNat code).toLower.toNat = true) ∧
      ((bitsOf movedCodes).testBit code = false →
        (Char.ofNat code).toLower = Char.ofNat code) := by decide +kernel
  have here := each character.toNat ascii
  rwa [Char.ofNat_toNat, testBit_bitsOf, ← Bool.not_eq_true, testBit_bitsOf] at here

/-- A character that is not moved folds to itself. -/
theorem foldCharacter_of_unmoved {character : Char} (unmoved : character.toNat ∉ movedCodes) :
    foldCharacter character = [character] := by
  unfold foldCharacter
  split
  · rename_i ascii
    rw [(toLower_cases ascii).2 unmoved]
  · split
    · rename_i codes found
      refine absurd (List.mem_append_left _ (List.mem_append_right _ ?_)) unmoved
      exact List.mem_map.mpr ⟨_, mem_of_lookup found, rfl⟩
    · rw [foldCode_of_unmoved unmoved, Char.ofNat_toNat]

/-- A character folds to itself alone, or to characters that folding produces. -/
theorem foldCharacter_cases (character : Char) :
    foldCharacter character = [character] ∨
      ∀ folded ∈ foldCharacter character, folded.toNat ∈ foldedCodes := by
  unfold foldCharacter
  split
  · rename_i ascii
    rcases (toLower_cases ascii).1 with same | listed
    · exact .inl (by rw [same])
    · exact .inr fun folded member => List.mem_singleton.mp member ▸ listed
  · split
    · rename_i codes found
      refine .inr fun folded member => ?_
      obtain ⟨code, listed, rfl⟩ := List.mem_map.mp member
      have produced : code ∈ foldedCodes := List.mem_append_left _ (List.mem_append_right _
        (List.mem_flatMap.mpr ⟨_, mem_of_lookup found, listed⟩))
      exact (foldedCodes_valid code produced).symm ▸ produced
    · rcases foldCode_cases character.toNat with same | produced
      · exact .inl (by rw [same, Char.ofNat_toNat])
      · refine .inr fun folded member => ?_
        rw [List.mem_singleton.mp member, foldedCodes_valid _ produced]
        exact produced

theorem foldCharacter_ne_nil (character : Char) : foldCharacter character ≠ [] := by
  unfold foldCharacter
  split
  · exact List.cons_ne_nil _ _
  · split
    · rename_i codes found
      exact fun none =>
        foldExpansions_nonempty _ (mem_of_lookup found) (List.map_eq_nil_iff.mp none)
    · exact List.cons_ne_nil _ _

/-- Folding leaves alone what it produces. -/
theorem foldCharacter_settles {character folded : Char}
    (member : folded ∈ foldCharacter character) : foldCharacter folded = [folded] := by
  rcases foldCharacter_cases character with same | produced
  · rw [same, List.mem_singleton] at member
    rw [member, same]
  · exact foldCharacter_of_unmoved (foldedCodes_unmoved (produced folded member)).1

/-- Folding makes no white space. -/
theorem isSpace_of_folded {character folded : Char} (letter : isSpace character = false)
    (member : folded ∈ foldCharacter character) : isSpace folded = false := by
  rcases foldCharacter_cases character with same | produced
  · rw [same, List.mem_singleton] at member
    rw [member, letter]
  · have unlisted := (foldedCodes_unmoved (produced folded member)).2
    rwa [isSpace, ← Bool.not_eq_true, List.contains_iff_mem]

/-! ### Texts -/

/-- Folding is idempotent. -/
theorem casefold_casefold (text : String) : casefold (casefold text) = casefold text := by
  have settled : ∀ characters : List Char,
      (∀ character ∈ characters, foldCharacter character = [character]) →
        characters.flatMap foldCharacter = characters := by
    intro characters
    induction characters with
    | nil => exact fun _ => rfl
    | cons first rest inductionHypothesis =>
      intro each
      rw [List.flatMap_cons, each first List.mem_cons_self, inductionHypothesis
        fun other member => each other (List.mem_cons_of_mem _ member)]
      rfl
  refine String.toList_injective ?_
  rw [casefold, String.toList_ofList, settled]
  intro folded member
  rw [casefold, String.toList_ofList] at member
  obtain ⟨character, _, produced⟩ := List.mem_flatMap.mp member
  exact foldCharacter_settles produced

/-- Folding a trimmed text gives a trimmed text. -/
theorem Trimmed.casefold {text : String} (trimmed : Trimmed text) :
    Trimmed (casefold text) := by
  constructor
  · intro first rest split
    rw [Trutina.casefold, String.toList_ofList] at split
    cases whole : text.toList with
    | nil =>
      rw [whole] at split
      cases split
    | cons character others =>
      rw [whole, List.flatMap_cons] at split
      obtain ⟨head, tail, folded⟩ := List.exists_cons_of_ne_nil (foldCharacter_ne_nil character)
      rw [folded, List.cons_append, List.cons.injEq] at split
      refine isSpace_of_folded (trimmed.front character others whole) ?_
      rw [folded, ← split.1]
      exact List.mem_cons_self
  · intro rest last split
    rw [Trutina.casefold, String.toList_ofList] at split
    rcases List.eq_nil_or_concat text.toList with whole | ⟨others, character, whole⟩
    · rw [whole] at split
      exact absurd split.symm (List.append_ne_nil_of_right_ne_nil _ (List.cons_ne_nil _ _))
    · rw [List.concat_eq_append] at whole
      rw [whole, List.flatMap_append, List.flatMap_singleton] at split
      refine isSpace_of_folded (trimmed.back others character whole) ?_
      have ends := congrArg List.getLast? split
      rw [List.getLast?_append_of_ne_nil _ (foldCharacter_ne_nil character),
        List.getLast?_concat] at ends
      exact List.mem_of_getLast? ends

end Trutina
