/-
This file is a small library about templates: texts with named fields in braces.
A template is read into pieces, whatever the values are. It is filled by taking
the value of one piece after another, up to the first piece that has none. So a
template whose pieces are characters and named fields is filled just when all of
its fields have values, and the only error is a field without one.
-/

import Mathlib.Data.List.Forall2

namespace Template

/-! ### Pieces -/

inductive Piece where
  | character (value : Char)
  | field (name : String)
  | malformed
  deriving DecidableEq, Repr

/-- Where the reading of a template is: after a brace that may be doubled, or in a field whose name
begins with these characters, the last one first. -/
inductive Place where
  | outside
  | opened
  | closed
  | inside (name : List Char)

/-- Read a template. A doubled brace stands for itself. Attributes, conversions and formats of
fields are not told apart from names. -/
def read : Place → List Char → List Piece
  | .outside, [] => []
  | .outside, '\x7b' :: rest => read .opened rest
  | .outside, '\x7d' :: rest => read .closed rest
  | .outside, first :: rest => .character first :: read .outside rest
  | .opened, [] => [.malformed]
  | .opened, '\x7b' :: rest => .character '\x7b' :: read .outside rest
  | .opened, '\x7d' :: rest => .field "" :: read .outside rest
  | .opened, first :: rest => read (.inside [first]) rest
  | .closed, '\x7d' :: rest => .character '\x7d' :: read .outside rest
  | .closed, _ => [.malformed]
  | .inside _, [] => [.malformed]
  | .inside name, '\x7d' :: rest => .field (String.ofList name.reverse) :: read .outside rest
  | .inside name, first :: rest => read (.inside (first :: name)) rest

def pieces (template : String) : List Piece := read .outside template.toList

inductive FormatError where
  | keyError (name : String)
  | indexError
  | valueError
  deriving DecidableEq, Repr

/-! ### Filling -/

section Filling

variable (values : String → Option String)

/-- The characters in place of a piece. A field without a name, or with a number, stands for a
value without a name, and there is none. -/
def Piece.value : Piece → Except FormatError (List Char)
  | .character value => .ok [value]
  | .field name =>
    if name.toList.all Char.isDigit then .error .indexError
    else
      match values name with
      | some value => .ok value.toList
      | none => .error (.keyError name)
  | .malformed => .error .valueError

def fill : List Piece → Except FormatError (List Char)
  | [] => .ok []
  | piece :: rest =>
    match piece.value values with
    | .error error => .error error
    | .ok part => (fill rest).map (part ++ ·)

/-- The template with every field replaced by its value. -/
def format (template : String) : Except FormatError String :=
  (fill values (pieces template)).map String.ofList

variable {values}

theorem fill_cons_eq_ok_iff {piece : Piece} {rest : List Piece} {text : List Char} :
    fill values (piece :: rest) = .ok text ↔
      ∃ part more, piece.value values = .ok part ∧ fill values rest = .ok more ∧
        text = part ++ more := by
  rw [fill]
  cases piece.value values with
  | error error => simp
  | ok part => cases fill values rest <;> simp [Except.map, eq_comm]

theorem fill_cons_eq_error_iff {piece : Piece} {rest : List Piece} {error : FormatError} :
    fill values (piece :: rest) = .error error ↔
      piece.value values = .error error ∨
        ∃ part, piece.value values = .ok part ∧ fill values rest = .error error := by
  rw [fill]
  cases piece.value values with
  | error other => simp
  | ok part => cases fill values rest <;> simp [Except.map]

/-- A filled template has the value of every piece at its place. -/
theorem fill_eq_ok {all : List Piece} {text : List Char} (filled : fill values all = .ok text) :
    ∃ parts, List.Forall₂ (fun piece part => piece.value values = .ok part) all parts ∧
      text = parts.flatten := by
  induction all generalizing text with
  | nil =>
    cases filled
    exact ⟨[], .nil, rfl⟩
  | cons piece rest inductionHypothesis =>
    obtain ⟨part, more, value, later, rfl⟩ := fill_cons_eq_ok_iff.mp filled
    obtain ⟨parts, all, rfl⟩ := inductionHypothesis later
    exact ⟨part :: parts, .cons value all, rfl⟩

/-- What stops a template from being filled is one of its pieces. -/
theorem fill_eq_error {all : List Piece} {error : FormatError}
    (stopped : fill values all = .error error) :
    ∃ piece ∈ all, piece.value values = .error error := by
  induction all with
  | nil => cases stopped
  | cons piece rest inductionHypothesis =>
    rcases fill_cons_eq_error_iff.mp stopped with value | ⟨part, _, later⟩
    · exact ⟨piece, List.mem_cons_self, value⟩
    · obtain ⟨piece, member, value⟩ := inductionHypothesis later
      exact ⟨piece, List.mem_cons_of_mem _ member, value⟩

/-- A character, or a field with one of these names. -/
def Piece.isPlain (names : List String) : Piece → Bool
  | .character _ => true
  | .field name => names.contains name && !name.toList.all Char.isDigit
  | .malformed => false

/-- The only error of a plain piece is a field without a value. -/
theorem Piece.value_eq_error {piece : Piece} {names : List String} {error : FormatError}
    (plain : piece.isPlain names = true) (stopped : piece.value values = .error error) :
    ∃ name, piece = .field name ∧ values name = none ∧ error = .keyError name := by
  cases piece with
  | character value => cases stopped
  | malformed => cases plain
  | field name =>
    rw [Piece.isPlain, Bool.and_eq_true, Bool.not_eq_true'] at plain
    rw [Piece.value, plain.2, if_neg Bool.false_ne_true] at stopped
    cases missing : values name with
    | some value =>
      rw [missing] at stopped
      cases stopped
    | none =>
      rw [missing] at stopped
      cases stopped
      exact ⟨name, rfl, missing, rfl⟩

end Filling

end Template
