/-
This file models correlation ids. A fresh id is the text of a UUID. A given one
is used if it is in the grammar of ids, or is an id of the grammar and a newline,
since the `$` of the pattern matches before a final newline too. Headers are
bytes, of which each stands for one character, so an id survives the way into a
header and back.
-/

import Trutina.Rule

namespace Trutina

/-! ### Bytes and characters -/

abbrev Bytes := List UInt8

/-- Latin-1: every byte is the code point of a character. -/
def decodeLatin1 (bytes : Bytes) : String :=
  String.ofList (bytes.map fun byte => Char.ofNat byte.toNat)

/-- A text whose characters all have a byte. -/
structure Latin1Text where
  text : String
  narrow : ∀ character ∈ text.toList, character.toNat < 256

def Latin1Text.encode (latin1 : Latin1Text) : Bytes :=
  latin1.text.toList.map fun character => UInt8.ofNat character.toNat

theorem Latin1Text.decode_encode (latin1 : Latin1Text) :
    decodeLatin1 latin1.encode = latin1.text := by
  rw [decodeLatin1, Latin1Text.encode, List.map_map, ← String.toList_inj, String.toList_ofList]
  refine (List.map_congr_left fun character member => ?_).trans (List.map_id _)
  rw [Function.comp_apply, UInt8.toNat_ofNat', Nat.mod_eq_of_lt (latin1.narrow character member),
    Char.ofNat_toNat, id_eq]

/-! ### Ids -/

def isIdCharacter (character : Char) : Bool :=
  character.isAlphanum || ['.', '_', '-'].contains character

/-- 1 to 64 letters, digits, dots, underscores and hyphens. -/
def validId : Regex Char := Regex.between (.oneOf isIdCharacter) 1 63

/-- Whether a pattern matches up to the end of a text, or up to a newline at the end. -/
def matchDollar (pattern : Regex Char) (text : List Char) : Bool :=
  pattern.fullmatch text || (text.getLast? == some '\n' && pattern.fullmatch text.dropLast)

def isValidCorrelationId (value : String) : Bool := matchDollar validId value.toList

/-- The grammar of ids. -/
structure InGrammar (value : String) : Prop where
  length : 1 ≤ value.length ∧ value.length ≤ 64
  characters : ∀ character ∈ value.toList, isIdCharacter character = true

def hexDigit (value : Nat) : Char :=
  if value < 10 then Char.ofNat (48 + value) else Char.ofNat (87 + value)

/-- The last hexadecimal digits of a number. -/
def hexDigits : (width : Nat) → (number : Nat) → List Char
  | 0, _ => []
  | width + 1, number => hexDigits width (number / 16) ++ [hexDigit (number % 16)]

/-- The text of a UUID. -/
def uuidText (number : BitVec 128) : List Char :=
  let hex := hexDigits 32 number.toNat
  hex.take 8 ++ '-' :: ((hex.drop 8).take 4 ++ '-' :: ((hex.drop 12).take 4 ++
    '-' :: ((hex.drop 16).take 4 ++ '-' :: hex.drop 20)))

/-- A fresh id, from the number of a new UUID. -/
def newCorrelationId (number : BitVec 128) : String := String.ofList (uuidText number)

theorem fullmatch_validId_iff {value : String} :
    validId.fullmatch value.toList = true ↔ InGrammar value := by
  rw [Regex.fullmatch_iff, validId, Regex.matches_between_iff, String.length_toList]
  exact ⟨fun both => ⟨both.1, both.2⟩, fun grammar => ⟨grammar.length, grammar.characters⟩⟩

theorem matchDollar_iff {pattern : Regex Char} {text : List Char} :
    matchDollar pattern text = true ↔ pattern.fullmatch text = true ∨
      ∃ front, text = front ++ ['\n'] ∧ pattern.fullmatch front = true := by
  rw [matchDollar, Bool.or_eq_true, Bool.and_eq_true, beq_iff_eq]
  refine or_congr_right ⟨?_, ?_⟩
  · rintro ⟨last, front⟩
    obtain ⟨others, rfl⟩ := List.getLast?_eq_some_iff.mp last
    rw [List.dropLast_concat] at front
    exact ⟨others, rfl, front⟩
  · rintro ⟨front, rfl, matched⟩
    rw [List.getLast?_concat, List.dropLast_concat]
    exact ⟨rfl, matched⟩

/-- What is accepted is in the grammar, or it is of the grammar and a newline. -/
theorem isValidCorrelationId_iff {value : String} :
    isValidCorrelationId value = true ↔
      InGrammar value ∨ ∃ id, InGrammar id ∧ value = id ++ "\n" := by
  rw [isValidCorrelationId, matchDollar_iff, fullmatch_validId_iff]
  refine or_congr_right ⟨?_, ?_⟩
  · rintro ⟨front, split, matched⟩
    refine ⟨String.ofList front, fullmatch_validId_iff.mp ?_, ?_⟩
    · rwa [String.toList_ofList]
    · rw [← String.toList_inj, split, String.toList_append, String.toList_ofList]
      rfl
  · rintro ⟨id, grammar, rfl⟩
    exact ⟨id.toList, String.toList_append, fullmatch_validId_iff.mpr grammar⟩

/-- No newline is in the grammar. -/
theorem not_inGrammar_newline (id : String) : ¬InGrammar (id ++ "\n") := by
  intro grammar
  refine absurd (grammar.characters '\n' ?_) (by decide)
  rw [String.toList_append]
  exact List.mem_append_right _ List.mem_cons_self

/-! ### Fresh ids -/

theorem isIdCharacter_hexDigit : ∀ value < 16, isIdCharacter (hexDigit value) = true := by
  decide

theorem hexDigits_length (width number : Nat) : (hexDigits width number).length = width := by
  induction width generalizing number with
  | zero => rfl
  | succ width inductionHypothesis =>
    rw [hexDigits, List.length_append, inductionHypothesis, List.length_singleton]

theorem isIdCharacter_hexDigits {width number : Nat} :
    ∀ character ∈ hexDigits width number, isIdCharacter character = true := by
  induction width generalizing number with
  | zero => exact List.forall_mem_nil _
  | succ width inductionHypothesis =>
    rw [hexDigits]
    refine List.forall_mem_append.mpr ⟨inductionHypothesis, List.forall_mem_singleton.mpr ?_⟩
    exact isIdCharacter_hexDigit _ (Nat.mod_lt _ (by decide))

/-- The text of a UUID has 32 digits and 4 hyphens. -/
theorem newCorrelationId_inGrammar (number : BitVec 128) :
    InGrammar (newCorrelationId number) where
  length := by
    have length : (newCorrelationId number).length = 36 := by
      rw [← String.length_toList, newCorrelationId, String.toList_ofList, uuidText]
      simp only [List.length_append, List.length_cons, List.length_take, List.length_drop,
        hexDigits_length]
      rfl
    omega
  characters := by
    have digits : ∀ part, List.Sublist part (hexDigits 32 number.toNat) →
        ∀ character ∈ part, isIdCharacter character = true :=
      fun part inside character member => isIdCharacter_hexDigits character (inside.subset member)
    have hyphen : isIdCharacter '-' = true := by decide
    rw [newCorrelationId, String.toList_ofList, uuidText]
    simp only [List.forall_mem_append, List.forall_mem_cons]
    refine ⟨digits _ (List.take_sublist _ _), hyphen, digits _ ?_, hyphen, digits _ ?_, hyphen,
      digits _ ?_, hyphen, digits _ (List.drop_sublist _ _)⟩
    all_goals exact (List.take_sublist _ _).trans (List.drop_sublist _ _)

/-! ### The id of a scope -/

theorem isIdCharacter_narrow {character : Char} (member : isIdCharacter character = true) :
    character.toNat < 256 := by
  simp only [isIdCharacter, Char.isAlphanum, Bool.or_eq_true, List.contains_iff_mem,
    List.mem_cons, List.not_mem_nil, or_false] at member
  rcases member with (letter | digit) | rfl | rfl | rfl
  · exact (isAlpha_ascii letter).trans (by decide)
  · exact (isDigit_ascii digit).trans (by decide)
  all_goals decide

theorem InGrammar.narrow {value : String} (grammar : InGrammar value) :
    ∀ character ∈ value.toList, character.toNat < 256 :=
  fun character member => isIdCharacter_narrow (grammar.characters character member)

/-- The characters of an id, and a newline, have a byte. -/
theorem isValidCorrelationId_narrow {value : String} (valid : isValidCorrelationId value = true) :
    ∀ character ∈ value.toList, character.toNat < 256 := by
  rcases isValidCorrelationId_iff.mp valid with grammar | ⟨id, grammar, rfl⟩
  · exact grammar.narrow
  · rw [String.toList_append]
    exact List.forall_mem_append.mpr ⟨grammar.narrow, List.forall_mem_singleton.mpr (by decide)⟩

/-- The id that a scope binds: the given one, if it is valid, or else a fresh one. -/
def scopeId (fresh : BitVec 128) (given : Option String) : Latin1Text :=
  match given with
  | some id =>
    if valid : id ≠ "" ∧ isValidCorrelationId id = true then
      ⟨id, isValidCorrelationId_narrow valid.2⟩
    else ⟨newCorrelationId fresh, (newCorrelationId_inGrammar fresh).narrow⟩
  | none => ⟨newCorrelationId fresh, (newCorrelationId_inGrammar fresh).narrow⟩

/-- A valid id is not empty, so it is bound. -/
theorem scopeId_of_valid {id : String} (valid : isValidCorrelationId id = true)
    (fresh : BitVec 128) : (scopeId fresh (some id)).text = id := by
  have nonempty : id ≠ "" := by
    rintro rfl
    exact absurd valid (by decide)
  rw [scopeId, dif_pos ⟨nonempty, valid⟩]

/-! ### The id of a request -/

def headerName : Bytes := "x-request-id".toList.map fun character => UInt8.ofNat character.toNat

/-- The first header with the name is looked at, and no other. -/
def incomingId : List (Bytes × Bytes) → Option String
  | [] => none
  | (name, value) :: rest =>
    if name = headerName then
      let candidate := decodeLatin1 value
      if isValidCorrelationId candidate then some candidate else none
    else incomingId rest

/-- The value of the first header with the name. -/
def firstRequestId (headers : List (Bytes × Bytes)) : Option String :=
  (headers.find? fun header => header.1 == headerName).map fun header => decodeLatin1 header.2

theorem incomingId_eq (headers : List (Bytes × Bytes)) :
    incomingId headers = (firstRequestId headers).filter isValidCorrelationId := by
  induction headers with
  | nil => rfl
  | cons header rest inductionHypothesis =>
    obtain ⟨name, value⟩ := header
    rw [incomingId, firstRequestId, List.find?_cons]
    by_cases own : name = headerName
    · rw [if_pos own, beq_iff_eq.mpr own, Option.map_some, Option.filter_some]
    · rw [if_neg own, beq_false_of_ne own, inductionHypothesis, firstRequestId]

/-- The id of a request is in the grammar, and it is the first value just when that is in the
grammar. -/
structure SafeId (headers : List (Bytes × Bytes)) (id : String) : Prop where
  grammar : InGrammar id
  given : ∀ value, firstRequestId headers = some value → (id = value ↔ InGrammar value)

/-- A value that is not accepted is replaced. -/
theorem safeId_of_invalid {headers : List (Bytes × Bytes)} {value : String}
    (first : firstRequestId headers = some value) (invalid : isValidCorrelationId value = false)
    (fresh : BitVec 128) : SafeId headers (newCorrelationId fresh) where
  grammar := newCorrelationId_inGrammar fresh
  given := by
    have apart : ¬InGrammar value := by
      intro grammar
      rw [isValidCorrelationId_iff.mpr (.inl grammar)] at invalid
      cases invalid
    intro other same
    rw [first, Option.some.injEq] at same
    subst same
    refine iff_of_false (fun equal => ?_) apart
    exact apart (equal ▸ newCorrelationId_inGrammar fresh)

/-- The id is safe unless the first value is of the grammar and a newline. -/
theorem scopeId_safe_iff (fresh : BitVec 128) (headers : List (Bytes × Bytes)) :
    SafeId headers (scopeId fresh (incomingId headers)).text ↔
      ¬∃ id, InGrammar id ∧ firstRequestId headers = some (id ++ "\n") := by
  rw [incomingId_eq]
  cases first : firstRequestId headers with
  | none =>
    refine iff_of_true ⟨newCorrelationId_inGrammar fresh, ?_⟩ ?_
    · intro value same
      rw [first] at same
      cases same
    · rintro ⟨id, _, same⟩
      cases same
  | some value =>
    rw [Option.filter_some]
    cases valid : isValidCorrelationId value with
    | false =>
      refine iff_of_true (safeId_of_invalid first valid fresh) ?_
      rintro ⟨id, grammar, same⟩
      rw [Option.some.inj same, isValidCorrelationId_iff.mpr (.inr ⟨id, grammar, rfl⟩)] at valid
      cases valid
    | true =>
      rw [if_pos rfl, scopeId_of_valid valid]
      rcases isValidCorrelationId_iff.mp valid with grammar | ⟨id, grammar, rfl⟩
      · refine iff_of_true ⟨grammar, ?_⟩ ?_
        · intro other same
          rw [first, Option.some.injEq] at same
          subst same
          exact iff_of_true rfl grammar
        · rintro ⟨id, _, same⟩
          exact not_inGrammar_newline id (Option.some.inj same ▸ grammar)
      · exact iff_of_false (fun safe => not_inGrammar_newline id safe.grammar)
          (not_not_intro ⟨id, grammar, rfl⟩)

end Trutina
