/-
This file models the accounting rules shared by accounts, journal lines and
postings: the format of an account name, the key under which names are looked
up, the one-sidedness of a line, and the presence of an actor. A cleaned name is
a fixed point of cleaning, and a reference that shares its key with a cleaned
name carries no white space at its ends, so cleaning such a reference changes
nothing. The pattern of a name accepts just the texts of a grammar that looks at
one character and the next.
-/

import Trutina.Decimal
import Trutina.Regex
import Trutina.Text

namespace Trutina

/-- Letters, digits and spaces may appear freely in a name. -/
def isNameCharacter (character : Char) : Bool := character.isAlphanum || character == ' '

/-- `&`, `-`, the apostrophe, `.` and `/`. -/
def isSeparator (character : Char) : Bool :=
  ['&', '-', Char.ofNat 39, '.', '/'].contains character

/-- A letter, then letters, digits and spaces, then any number of separators each followed by
at least one of these. -/
def accountNamePattern : Regex Char :=
  .append (.oneOf Char.isAlpha)
    (.append (.star (.oneOf isNameCharacter))
      (.star (.append (.oneOf isSeparator) (.plus (.oneOf isNameCharacter)))))

/-- The trimmed name when it has the format of an account name. -/
def cleanAccountName (value : String) : Option String :=
  let cleaned := strip value
  if accountNamePattern.fullmatch cleaned.toList then some cleaned else none

/-- Whether a line has value on exactly one side. -/
def isValidLineAmounts (debit credit : Decimal) : Bool :=
  decide (0 < debit.coefficient) ^^ decide (0 < credit.coefficient)

/-- The key under which an account name is looked up. -/
def accountLookupKey (name : String) : String := casefold name

/-- Whether an actor names someone. -/
def isNonBlankActor (actor : String) : Bool := strip actor != ""

/-! ### Cleaned names -/

theorem isAlpha_ascii {character : Char} (letter : character.isAlpha = true) :
    character.toNat < 128 := by
  simp only [Char.isAlpha, Char.isUpper, Char.isLower, Bool.or_eq_true, Bool.and_eq_true,
    decide_eq_true_eq, ge_iff_le, UInt32.le_iff_toNat_le] at letter
  have code : character.toNat = character.val.toNat := rfl
  have upper : 'Z'.val.toNat = 90 := rfl
  have lower : 'z'.val.toNat = 122 := rfl
  omega

theorem isDigit_ascii {character : Char} (digit : character.isDigit = true) :
    character.toNat < 128 := by
  simp only [Char.isDigit, Bool.and_eq_true, decide_eq_true_eq, ge_iff_le,
    UInt32.le_iff_toNat_le] at digit
  have code : character.toNat = character.val.toNat := rfl
  have last : '9'.val.toNat = 57 := rfl
  omega

theorem isNameCharacter_ascii {character : Char} (member : isNameCharacter character = true) :
    character.toNat < 128 := by
  simp only [isNameCharacter, Char.isAlphanum, Bool.or_eq_true, beq_iff_eq] at member
  rcases member with (letter | digit) | rfl
  · exact isAlpha_ascii letter
  · exact isDigit_ascii digit
  · decide

theorem accountNamePattern_within :
    accountNamePattern.Within fun character => character.toNat < 128 := by
  have separators : ∀ character, isSeparator character = true → character.toNat < 128 := by
    intro character member
    simp only [isSeparator, List.contains_iff_mem, List.mem_cons, List.not_mem_nil,
      or_false] at member
    rcases member with rfl | rfl | rfl | rfl | rfl <;> decide
  refine ⟨fun _ => isAlpha_ascii, fun _ => isNameCharacter_ascii, separators, ?_⟩
  exact ⟨fun _ => isNameCharacter_ascii, fun _ => isNameCharacter_ascii⟩

theorem cleanAccountName_eq_some_iff {value name : String} :
    cleanAccountName value = some name ↔
      name = strip value ∧ Regex.Matches accountNamePattern name.toList := by
  rw [cleanAccountName]
  split
  · rename_i matched
    rw [Option.some.injEq]
    constructor
    · rintro rfl
      exact ⟨rfl, Regex.fullmatch_iff.mp matched⟩
    · rintro ⟨rfl, _⟩
      rfl
  · rename_i unmatched
    constructor
    · rintro ⟨⟩
    · rintro ⟨rfl, matched⟩
      exact absurd (Regex.fullmatch_iff.mpr matched) unmatched

/-- Cleaning a cleaned name changes nothing. -/
theorem cleanAccountName_idempotent {value name : String}
    (clean : cleanAccountName value = some name) : cleanAccountName name = some name := by
  obtain ⟨rfl, matched⟩ := cleanAccountName_eq_some_iff.mp clean
  exact cleanAccountName_eq_some_iff.mpr ⟨(strip_strip value).symm, matched⟩

theorem cleanAccountName_trimmed {value name : String}
    (clean : cleanAccountName value = some name) : Trimmed name := by
  obtain ⟨rfl, _⟩ := cleanAccountName_eq_some_iff.mp clean
  exact strip_trimmed value

theorem cleanAccountName_ascii {value name : String}
    (clean : cleanAccountName value = some name) : Ascii name :=
  (cleanAccountName_eq_some_iff.mp clean).2.within accountNamePattern_within

theorem cleanAccountName_length_le {value name : String}
    (clean : cleanAccountName value = some name) : name.length ≤ value.length := by
  obtain ⟨rfl, _⟩ := cleanAccountName_eq_some_iff.mp clean
  obtain ⟨before, after, split, _, _⟩ := strip_split value
  have lengths := congrArg List.length split
  simp only [List.length_append, String.length_toList] at lengths
  omega

theorem cleanAccountName_length_pos {value name : String}
    (clean : cleanAccountName value = some name) : 0 < name.length := by
  obtain ⟨rfl, matched⟩ := cleanAccountName_eq_some_iff.mp clean
  obtain ⟨left, right, split, letter, _⟩ := Regex.matches_append_iff.mp matched
  obtain ⟨first, rfl, _⟩ := Regex.matches_oneOf_iff.mp letter
  rw [← String.length_toList, split]
  simp

/-- A reference with the key of a cleaned name is its own cleaned form. -/
theorem cleanAccountName_of_same_key {reference cleaned name : String}
    (clean : cleanAccountName reference = some cleaned) (fixed : cleanAccountName name = some name)
    (sameKey : accountLookupKey reference = accountLookupKey name) : cleaned = reference := by
  obtain ⟨rfl, _⟩ := cleanAccountName_eq_some_iff.mp clean
  have trimmed : Trimmed (casefold name) :=
    casefold_trimmed (cleanAccountName_ascii fixed) (cleanAccountName_trimmed fixed)
  have folds : casefold reference = casefold name := sameKey
  rw [← folds] at trimmed
  exact strip_of_trimmed_casefold trimmed

/-! ### The grammar of account names -/

/-- A letter, a digit or a space comes first. -/
def StartsWithNameCharacter (text : List Char) : Prop :=
  ∃ next rest, text = next :: rest ∧ isNameCharacter next = true

/-- A letter, a digit or a space comes after every separator. -/
def Separated (text : List Char) : Prop :=
  ∀ before separator after, text = before ++ separator :: after →
    isSeparator separator = true → StartsWithNameCharacter after

/-- What a text that an account name consists of looks like: a letter first, only allowed
characters, and a letter, a digit or a space after every separator. -/
structure IsAccountName (text : List Char) : Prop where
  starts : ∃ first rest, text = first :: rest ∧ first.isAlpha = true
  characters : ∀ character ∈ text, isNameCharacter character = true ∨ isSeparator character = true
  separated : Separated text

/-- The pattern after the first letter. -/
def nameTail : Regex Char :=
  .append (.star (.oneOf isNameCharacter))
    (.star (.append (.oneOf isSeparator) (.plus (.oneOf isNameCharacter))))

theorem isNameCharacter_of_isSeparator {character : Char}
    (separator : isSeparator character = true) :
    isNameCharacter character = false := by
  simp only [isSeparator, List.contains_iff_mem, List.mem_cons, List.not_mem_nil,
    or_false] at separator
  rcases separator with rfl | rfl | rfl | rfl | rfl <;> decide

theorem nameTail_cons_iff {character : Char} {rest : List Char} :
    Regex.Matches nameTail (character :: rest) ↔ Regex.Matches nameTail rest ∧
      (isNameCharacter character = true ∨
        isSeparator character = true ∧ StartsWithNameCharacter rest) := by
  constructor
  · intro matched
    obtain ⟨names, groups, split, front, back⟩ := Regex.matches_append_iff.mp matched
    cases names with
    | cons first names =>
      obtain ⟨rfl, rfl⟩ := List.cons.inj split
      obtain ⟨own, later⟩ := List.forall_mem_cons.mp (Regex.matches_star_oneOf_iff.mp front)
      exact ⟨.append (Regex.matches_star_oneOf_iff.mpr later) back, .inl own⟩
    | nil =>
      obtain rfl : groups = character :: rest := split.symm
      obtain ⟨left, right, rfl, group, others⟩ := Regex.matches_star_cons_iff.mp back
      obtain ⟨separator, names, whole, own, some⟩ := Regex.matches_append_iff.mp group
      obtain ⟨letter, rfl, isSeparator⟩ := Regex.matches_oneOf_iff.mp own
      obtain ⟨rfl, rfl⟩ := List.cons.inj whole
      obtain ⟨one, more, rfl, single, repeated⟩ := Regex.matches_append_iff.mp some
      obtain ⟨next, rfl, isName⟩ := Regex.matches_oneOf_iff.mp single
      refine ⟨.append (Regex.matches_star_oneOf_iff.mpr ?_) others,
        .inr ⟨isSeparator, next, more ++ right, rfl, isName⟩⟩
      exact List.forall_mem_cons.mpr ⟨isName, Regex.matches_star_oneOf_iff.mp repeated⟩
  · rintro ⟨matched, own⟩
    obtain ⟨names, groups, rfl, front, back⟩ := Regex.matches_append_iff.mp matched
    have letters := Regex.matches_star_oneOf_iff.mp front
    rcases own with own | ⟨separator, next, more, starts, isName⟩
    · exact .append (Regex.matches_star_oneOf_iff.mpr (List.forall_mem_cons.mpr ⟨own, letters⟩))
        back
    · cases names with
      | cons first names =>
        obtain ⟨isFirst, later⟩ := List.forall_mem_cons.mp letters
        have group : Regex.Matches (.append (.oneOf isSeparator) (.plus (.oneOf isNameCharacter)))
            (character :: first :: names) :=
          .append (.oneOf separator) (.append (.oneOf isFirst)
            (Regex.matches_star_oneOf_iff.mpr later))
        exact .append .starNil (.starCons group back)
      | nil =>
        -- Without a name character in front a group would begin, so with a separator.
        obtain rfl : groups = next :: more := starts
        obtain ⟨left, right, rfl, group, _⟩ := Regex.matches_star_cons_iff.mp back
        obtain ⟨one, names, whole, own, _⟩ := Regex.matches_append_iff.mp group
        obtain ⟨letter, rfl, isSeparator⟩ := Regex.matches_oneOf_iff.mp own
        obtain ⟨rfl, rfl⟩ := List.cons.inj whole
        rw [isNameCharacter_of_isSeparator isSeparator] at isName
        cases isName

/-- The condition on what follows a separator, one character at a time. -/
theorem separated_cons_iff {character : Char} {rest : List Char} :
    Separated (character :: rest) ↔
      (isSeparator character = true → StartsWithNameCharacter rest) ∧ Separated rest := by
  constructor
  · intro separated
    refine ⟨fun own => separated [] character rest rfl own, fun before separator after split => ?_⟩
    exact separated (character :: before) separator after (congrArg (character :: ·) split)
  · rintro ⟨own, later⟩ before separator after split isSeparator
    cases before with
    | nil =>
      obtain ⟨rfl, rfl⟩ := List.cons.inj split
      exact own isSeparator
    | cons first before => exact later before separator after (List.cons.inj split).2 isSeparator

theorem nameTail_iff {text : List Char} :
    Regex.Matches nameTail text ↔
      (∀ character ∈ text, isNameCharacter character = true ∨ isSeparator character = true) ∧
        Separated text := by
  induction text with
  | nil =>
    refine iff_of_true (.append .starNil .starNil) ⟨List.forall_mem_nil _, ?_⟩
    intro before separator after split
    simp at split
  | cons character rest inductionHypothesis =>
    rw [nameTail_cons_iff, inductionHypothesis, List.forall_mem_cons, separated_cons_iff]
    constructor
    · rintro ⟨⟨characters, separated⟩, own | ⟨separator, next⟩⟩
      · refine ⟨⟨.inl own, characters⟩, fun separator => ?_, separated⟩
        rw [isNameCharacter_of_isSeparator separator] at own
        cases own
      · exact ⟨⟨.inr separator, characters⟩, fun _ => next, separated⟩
    · rintro ⟨⟨own, characters⟩, next, separated⟩
      exact ⟨⟨characters, separated⟩, own.imp_right fun separator => ⟨separator, next separator⟩⟩

theorem accountNamePattern_cons_iff {first : Char} {rest : List Char} :
    Regex.Matches accountNamePattern (first :: rest) ↔
      first.isAlpha = true ∧ Regex.Matches nameTail rest := by
  constructor
  · intro matched
    obtain ⟨left, right, split, letter, tail⟩ := Regex.matches_append_iff.mp matched
    obtain ⟨own, rfl, isLetter⟩ := Regex.matches_oneOf_iff.mp letter
    obtain ⟨rfl, rfl⟩ := List.cons.inj split
    exact ⟨isLetter, tail⟩
  · rintro ⟨letter, tail⟩
    exact .append (.oneOf letter) tail

/-- The pattern matches just the texts of the grammar. -/
theorem accountNamePattern_iff {text : List Char} :
    Regex.Matches accountNamePattern text ↔ IsAccountName text := by
  cases text with
  | nil =>
    refine iff_of_false (fun matched => ?_) fun name => ?_
    · obtain ⟨left, right, split, letter, _⟩ := Regex.matches_append_iff.mp matched
      obtain ⟨own, rfl, _⟩ := Regex.matches_oneOf_iff.mp letter
      cases split
    · obtain ⟨first, rest, whole, _⟩ := name.starts
      cases whole
  | cons first rest =>
    rw [accountNamePattern_cons_iff, nameTail_iff]
    constructor
    · rintro ⟨letter, characters, separated⟩
      have own : isNameCharacter first = true := by
        rw [isNameCharacter, Char.isAlphanum, letter]
        rfl
      refine ⟨⟨first, rest, rfl, letter⟩, List.forall_mem_cons.mpr ⟨.inl own, characters⟩,
        separated_cons_iff.mpr ⟨fun separator => ?_, separated⟩⟩
      rw [isNameCharacter_of_isSeparator separator] at own
      cases own
    · rintro ⟨⟨own, others, whole, letter⟩, characters, separated⟩
      obtain ⟨rfl, rfl⟩ := List.cons.inj whole
      exact ⟨letter, (List.forall_mem_cons.mp characters).2, (separated_cons_iff.mp separated).2⟩

/-- Two cleaned names have one lookup key just when they differ at most in the case of letters. -/
theorem accountLookupKey_eq_iff {first second value other : String}
    (clean : cleanAccountName value = some first) (clean' : cleanAccountName other = some second) :
    accountLookupKey first = accountLookupKey second ↔
      first.toList.map Char.toLower = second.toList.map Char.toLower := by
  rw [accountLookupKey, accountLookupKey, ← String.toList_inj,
    casefold_ascii (cleanAccountName_ascii clean), casefold_ascii (cleanAccountName_ascii clean')]

/-- A name is accepted just when its stripped form is in the grammar, and that is what is returned.
It is cleaned to itself. Two accepted names have one lookup key just when they differ at most in the
case of letters. -/
theorem cleanAccountName_grammar (value : String) :
    ((cleanAccountName value).isSome = true ↔ IsAccountName (strip value).toList) ∧
    ∀ name, cleanAccountName value = some name →
      name = strip value ∧ cleanAccountName name = some name ∧
      ∀ other otherName, cleanAccountName other = some otherName →
        (accountLookupKey name = accountLookupKey otherName ↔
          name.toList.map Char.toLower = otherName.toList.map Char.toLower) := by
  constructor
  · rw [← accountNamePattern_iff, Option.isSome_iff_exists]
    constructor
    · rintro ⟨name, clean⟩
      obtain ⟨rfl, matched⟩ := cleanAccountName_eq_some_iff.mp clean
      exact matched
    · intro matched
      exact ⟨_, cleanAccountName_eq_some_iff.mpr ⟨rfl, matched⟩⟩
  · intro name clean
    exact ⟨(cleanAccountName_eq_some_iff.mp clean).1, cleanAccountName_idempotent clean,
      fun other otherName clean' => accountLookupKey_eq_iff clean clean'⟩

/-! ### Amounts -/

/-- On non-negative amounts, one side has value and the other is zero. -/
theorem isValidLineAmounts_iff {debit credit : Decimal} (debitNonneg : 0 ≤ debit.coefficient)
    (creditNonneg : 0 ≤ credit.coefficient) :
    isValidLineAmounts debit credit = true ↔
      (0 < debit.coefficient ∧ credit.coefficient = 0) ∨
        (debit.coefficient = 0 ∧ 0 < credit.coefficient) := by
  by_cases first : 0 < debit.coefficient <;> by_cases second : 0 < credit.coefficient <;>
    simp [isValidLineAmounts, first, second] <;> omega

end Trutina
