/-
This file is a small library about splitting a line into arguments as a shell
does. A line is read one character after another, in a state that tells whether
a word, a quotation or an escape is open. What stands between single quotes is
taken as it is, so every list of arguments has a line that splits into it, and
words without special characters can be written without quotes.
-/

import Mathlib.Data.List.Basic

namespace Shlex

/-! ### The lexer -/

def isWhitespace (character : Char) : Bool :=
  character == ' ' || character == '\t' || character == '\r' || character == '\n'

def isQuote (character : Char) : Bool := character == '\'' || character == '"'

def isEscape (character : Char) : Bool := character == '\\'

/-- Between words, in a word, in a quotation, or after an escape in one of these. -/
inductive State where
  | blank
  | word
  | quotes (quote : Char)
  | escape (back : Option Char)
  deriving DecidableEq, Repr

/-- A token ends. It counts unless it is empty and nothing of it was quoted. -/
def emit (token : List Char) (quoted : Bool) (rest : List (List Char)) : List (List Char) :=
  if token.isEmpty && !quoted then rest else token :: rest

/-- What an escape adds to a token: in a quotation only the quote and the escape can be escaped. -/
def escaped (back : Option Char) (character : Char) : List Char :=
  match back with
  | none => [character]
  | some quote =>
    if character != '\\' && character != quote then ['\\', character] else [character]

/-- Read the characters that are left, with a token and whether something of it was quoted. -/
def lex : List Char → State → List Char → Bool → Except String (List (List Char))
  | [], .blank, token, quoted => .ok (emit token quoted [])
  | [], .word, token, quoted => .ok (emit token quoted [])
  | [], .quotes _, _, _ => .error "No closing quotation"
  | [], .escape _, _, _ => .error "No escaped character"
  | character :: rest, .blank, token, quoted =>
    if isWhitespace character then (emit token quoted ·) <$> lex rest .blank [] false
    else if isEscape character then lex rest (.escape none) token quoted
    else if isQuote character then lex rest (.quotes character) token quoted
    else lex rest .word [character] quoted
  | character :: rest, .quotes quote, token, _ =>
    if character == quote then lex rest .word token true
    else if isEscape character && quote == '"' then lex rest (.escape (some quote)) token true
    else lex rest (.quotes quote) (token ++ [character]) true
  | character :: rest, .escape back, token, quoted =>
    lex rest (back.elim .word .quotes) (token ++ escaped back character) quoted
  | character :: rest, .word, token, quoted =>
    if isWhitespace character then (emit token quoted ·) <$> lex rest .blank [] false
    else if isQuote character then lex rest (.quotes character) token quoted
    else if isEscape character then lex rest (.escape none) token quoted
    else lex rest .word (token ++ [character]) quoted

/-- The arguments of a line. -/
def split (line : List Char) : Except String (List (List Char)) := lex line .blank [] false

example : split "create --name \"Petty \\\"cash\\\"\" ''".toList =
    .ok ["create".toList, "--name".toList, "Petty \"cash\"".toList, []] := by decide +kernel

/-! ### Quotations -/

/-- A character as it stands between single quotes. A single quote ends the quotation, stands
between double quotes, and opens it again. -/
def quoteCharacter (character : Char) : List Char :=
  if character = '\'' then "'\"'\"'".toList else [character]

/-- An argument between single quotes. -/
def quote (argument : List Char) : List Char :=
  '\'' :: (argument.flatMap quoteCharacter ++ ['\''])

/-- Words with a space between each two. -/
def join (words : List (List Char)) : List Char := [' '].intercalate words

theorem join_singleton (word : List Char) : join [word] = word := List.append_nil word

theorem join_cons (word : List Char) {rest : List (List Char)} (more : rest ≠ []) :
    join (word :: rest) = word ++ ' ' :: join rest := by
  cases rest with
  | nil => exact absurd rfl more
  | cons next rest => rfl

/-- The last word stands at the end of the line. -/
theorem join_concat (words : List (List Char)) (last : List Char) :
    join (words ++ [last]) = words.flatMap (· ++ [' ']) ++ last := by
  induction words with
  | nil => exact List.append_nil last
  | cons word rest inductionHypothesis =>
    rw [List.cons_append, join_cons _ (List.append_ne_nil_of_right_ne_nil _ (List.cons_ne_nil _ _)),
      inductionHypothesis, List.flatMap_cons, List.append_assoc, List.append_assoc]
    rfl

/-- A character that means itself in a word. -/
def PlainCharacter (character : Char) : Prop :=
  isWhitespace character = false ∧ isQuote character = false ∧ isEscape character = false

instance (character : Char) : Decidable (PlainCharacter character) :=
  inferInstanceAs (Decidable (_ ∧ _ ∧ _))

/-- A word that needs no quotes. -/
structure Plain (word : List Char) : Prop where
  nonempty : word ≠ []
  characters : ∀ character ∈ word, PlainCharacter character

theorem lex_plain_characters {word : List Char}
    (plain : ∀ character ∈ word, PlainCharacter character) (rest token : List Char)
    (quoted : Bool) :
    lex (word ++ rest) .word token quoted = lex rest .word (token ++ word) quoted := by
  induction word generalizing token with
  | nil => rw [List.append_nil]; rfl
  | cons character word inductionHypothesis =>
    obtain ⟨space, quote, escape⟩ := plain character List.mem_cons_self
    have later := inductionHypothesis
      (fun other member => plain other (List.mem_cons_of_mem _ member)) (token ++ [character])
    rw [List.append_assoc] at later
    rw [List.cons_append, lex]
    simp only [space, quote, escape, Bool.false_eq_true, if_false]
    exact later

/-- Reading a plain word makes it the token. -/
theorem lex_plain {word : List Char} (plain : Plain word) (rest : List Char) :
    lex (word ++ rest) .blank [] false = lex rest .word word false := by
  obtain ⟨nonempty, characters⟩ := plain
  cases word with
  | nil => exact absurd rfl nonempty
  | cons first word =>
    obtain ⟨space, quote, escape⟩ := characters first List.mem_cons_self
    have later := lex_plain_characters
      (fun other member => characters other (List.mem_cons_of_mem _ member)) rest [first] false
    rw [List.cons_append, lex]
    simp only [space, quote, escape, Bool.false_eq_true, if_false]
    exact later

/-! ### Lines -/

/-- A way of writing arguments that can be read again. -/
structure Writes (write : List Char → List Char) (argument : List Char) : Prop where
  reads : ∃ quoted, (quoted = true ∨ argument ≠ []) ∧
    ∀ rest, lex (write argument ++ rest) .blank [] false = lex rest .word argument quoted

theorem writes_plain {word : List Char} (plain : Plain word) : Writes id word :=
  ⟨false, .inr plain.nonempty, lex_plain plain⟩

theorem emit_of_counts {token : List Char} {quoted : Bool} (counts : quoted = true ∨ token ≠ [])
    (rest : List (List Char)) : emit token quoted rest = token :: rest := by
  rw [emit, if_neg]
  rcases counts with rfl | nonempty
  · simp
  · simp [nonempty]

/-- A line of arguments that are written in this way splits into them. -/
theorem split_join {write : List Char → List Char} {arguments : List (List Char)}
    (writes : ∀ argument ∈ arguments, Writes write argument) :
    split (join (arguments.map write)) = .ok arguments := by
  induction arguments with
  | nil => rfl
  | cons argument rest inductionHypothesis =>
    obtain ⟨quoted, counts, reads⟩ := (writes argument List.mem_cons_self).reads
    have later := inductionHypothesis fun other member =>
      writes other (List.mem_cons_of_mem _ member)
    cases rest with
    | nil =>
      have alone := reads []
      rw [List.append_nil] at alone
      rw [List.map_singleton, join_singleton, split, alone, lex, emit_of_counts counts]
    | cons next rest =>
      have space : isWhitespace ' ' = true := rfl
      have more : (next :: rest).map write ≠ [] := List.cons_ne_nil _ _
      rw [List.map_cons, join_cons _ more, split, reads, lex, if_pos space]
      rw [split] at later
      rw [later]
      exact congrArg Except.ok (emit_of_counts counts _)

/-- A line of plain words splits into them. -/
theorem split_plain {words : List (List Char)} (plain : ∀ word ∈ words, Plain word) :
    split (join words) = .ok words := by
  have written := split_join fun word member => writes_plain (plain word member)
  rwa [List.map_id] at written

end Shlex
