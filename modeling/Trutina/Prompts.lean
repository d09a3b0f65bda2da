/-
This file models how commands get their input, from their options or from what
is typed at prompts. A prompt takes one answer after another until it admits
one. Both ways use the same parsers, so they come to the same input, except that
a line that is given as an option cannot have a colon in its texts, and that a
blank description is none at all when it is typed.
-/

import Trutina.AsOf
import Trutina.Journal

namespace Trutina

open Gregorian

/-! ### Prompts -/

/-- How a command is stopped before it has something to show: by an option it cannot use, by an
exception, by one that has been rendered, by who declines, or by the end of the input. -/
inductive CommandStop where
  | badParameter (usage : BadParameter)
  | raised (error : Raised)
  | rendered (error : Raised)
  | declined
  | interrupted
  deriving DecidableEq, Repr

/-- What takes its answers from a list, in which the input ends. -/
abbrev Prompting := StateT (List String) (Except CommandStop)

/-- Take answers until one is admitted. -/
def promptUntil {Value : Type} (accept : String → Option Value) : Prompting Value
  | [] => .error .interrupted
  | answer :: rest =>
    match accept answer with
    | some value => .ok (value, rest)
    | none => promptUntil accept rest

/-- An answer, which is trimmed unless it is empty and has a default. -/
def ask (default : Option String) : Prompting String :=
  promptUntil fun answer =>
    match default with
    | some value => some (if answer = "" then value else strip answer)
    | none => some (strip answer)

def confirm (default : Bool) : Prompting Bool :=
  promptUntil fun answer =>
    if answer = "" then some default
    else if (strip answer).toLower = "y" then some true
    else if (strip answer).toLower = "n" then some false
    else none

/-- One of some options, which are numbered from one. -/
def select (options : List String) (default : Option String) : Prompting String :=
  promptUntil fun answer =>
    match default with
    | some value => if answer = "" then some value else numbered (strip answer)
    | none => numbered (strip answer)
where
  numbered (choice : String) : Option String :=
    ((List.range options.length).find? fun index => toString (index + 1) = choice).bind
      fun index => options[index]?

/-! ### Numbers as they are typed -/

def digitsValue? (digits : List Char) : Option Nat :=
  digits.foldlM (fun value digit => (digitValue? digit).map (10 * value + ·)) 0

/-- A sign at the start of a text, and what follows it. -/
def signed : List Char → Int × List Char
  | '-' :: rest => (-1, rest)
  | '+' :: rest => (1, rest)
  | text => (1, text)

/-- What `int` reads: digits with single underscores between them, and not too many. -/
def parseInt (text : String) : Option Int :=
  let (sign, body) := signed (strip text).toList
  let groups := body.splitOn '_'
  if groups.any List.isEmpty || 4300 < groups.flatten.length then none
  else (digitsValue? groups.flatten).map fun value : Nat => sign * value

/-- What `Decimal` reads: a number, or an infinity or something that is not a number. -/
inductive ParsedDecimal where
  | finite (number : Decimal)
  | special (text : String)
  deriving DecidableEq, Repr

/-- The digits of a number without sign and exponent, and how many of them follow the point. -/
def mantissa? (text : List Char) : Option (Nat × Nat) :=
  match text.splitOn '.' with
  | [whole] => if whole.isEmpty then none else (digitsValue? whole).map (·, 0)
  | [whole, fraction] =>
    if (whole ++ fraction).isEmpty then none
    else (digitsValue? (whole ++ fraction)).map (·, fraction.length)
  | _ => none

def exponent? : List Char → Option Int
  | [] => some 0
  | _ :: text =>
    let (sign, digits) := signed text
    if digits.isEmpty then none else (digitsValue? digits).map fun value : Nat => sign * value

/-- The payload of what is not a number, which is left out when it is zero. -/
def payloadText (payload : Nat) : String := if payload = 0 then "" else toString payload

def special? (text : List Char) : Option String :=
  let lowered := String.ofList (text.map Char.toLower)
  if lowered ∈ ["inf", "infinity"] then some "Infinity"
  else
    match text.map Char.toLower with
    | 'n' :: 'a' :: 'n' :: payload =>
      (digitsValue? payload).map fun value => "NaN" ++ payloadText value
    | 's' :: 'n' :: 'a' :: 'n' :: payload =>
      (digitsValue? payload).map fun value => "sNaN" ++ payloadText value
    | _ => none

def parseDecimal (text : String) : Option ParsedDecimal :=
  let (sign, body) := signed ((strip text).toList.filter (· ≠ '_'))
  match special? body with
  | some name => some (.special (if sign < 0 then "-" ++ name else name))
  | none => do
    let isMark := fun (character : Char) => character == 'e' || character == 'E'
    let (digits, places) ← mantissa? (body.takeWhile (!isMark ·))
    let exponent ← exponent? (body.dropWhile (!isMark ·))
    let number : Decimal := ⟨sign * digits, exponent - places⟩
    -- No number can be made that is beyond the widest context.
    if number.exponent + Nat.log 10 digits ≤ 999999999999999999 ∧
        -1999999999999999997 ≤ number.exponent then
      return .finite number
    else none

example : parseDecimal " 1_000.50" = some (.finite ⟨100050, -2⟩) := by decide +kernel

example : parseDecimal "-nan012" = some (.special "-NaN12") := by decide +kernel

/-! ### Accounts -/

/-- The upper case of a character. Characters that are left out never become ASCII letters. -/
def upperCharacter (character : Char) : List Char :=
  match character.toNat with
  | 223 => ['S', 'S']
  | 305 => ['I']
  | 383 => ['S']
  | 64256 => ['F', 'F']
  | 64257 => ['F', 'I']
  | 64258 => ['F', 'L']
  | 64259 => ['F', 'F', 'I']
  | 64260 => ['F', 'F', 'L']
  | 64261 => ['S', 'T']
  | 64262 => ['S', 'T']
  | _ => [character.toUpper]

def accountCategories : List AccountCategory :=
  [.asset, .liability, .equity, .dividend, .revenue, .expense, .drawing]

def getCategory (category : String) : Except CommandStop AccountCategory :=
  let normalized := String.ofList ((strip category).toList.flatMap upperCharacter)
  match accountCategories.find? fun other => other.value = normalized with
  | some resolved => .ok resolved
  | none => .error (.badParameter ⟨"'" ++ category ++ "' is not a valid category. " ++
      "Choose from: Asset, Liability, Equity, Dividend, Revenue, Expense, Drawing."⟩)

/-- What the parsers raise when a model refuses its fields. -/
def refusing {Value : Type} (construction : Except Raised Value) : Except CommandStop Value :=
  construction.mapError .raised

def CreateAccountInput.validate (code name : String) (category : AccountCategory) :
    Except Raised CreateAccountInput :=
  match checked : (checkLength "code" 1 20 code).also (checkLength "name" 2 150 name) with
  | .ok _ =>
    have parts := Checked.also_eq_ok_iff.mp checked
    .ok ⟨code, name, category, (checkLength_eq_ok_iff.mp parts.1).2,
      (checkLength_eq_ok_iff.mp parts.2).2⟩
  | .error details => .error (.validationError details)

/-- A name that may be left out. -/
def checkGivenName (name : Option String) :
    Checked {name : Option String // ∀ given ∈ name, 2 ≤ given.length ∧ given.length ≤ 150} :=
  match name with
  | none => .ok ⟨none, fun _ member => by cases member⟩
  | some given =>
    match checked : checkLength "name" 2 150 given with
    | .ok _ => .ok ⟨some given, fun _ member =>
        Option.some.inj member ▸ (checkLength_eq_ok_iff.mp checked).2⟩
    | .error details => .error details

def UpdateAccountInput.validate (code : String) (name : Option String)
    (category : Option AccountCategory) : Except Raised UpdateAccountInput :=
  match checked : (checkLength "code" 1 20 code).also (checkGivenName name) with
  | .ok (_, ⟨name, bounds⟩) =>
    .ok ⟨code, name, category,
      (checkLength_eq_ok_iff.mp (Checked.also_eq_ok_iff.mp checked).1).2, bounds⟩
  | .error details => .error (.validationError details)

def parseCreateAccount (code name category : String) : Except CommandStop CreateAccountInput := do
  let category ← getCategory category
  refusing (CreateAccountInput.validate (strip code) (strip name) category)

def parseUpdateAccount (code : String) (name category : Option String) :
    Except CommandStop UpdateAccountInput := do
  let category ← category.mapM getCategory
  refusing (UpdateAccountInput.validate (strip code) (name.map strip) category)

def promptCategory (default : Option AccountCategory) : Prompting String :=
  select (accountCategories.map AccountCategory.value) (default.map AccountCategory.value)

def promptCreateAccount : Prompting CreateAccountInput := do
  let code ← ask none
  let name ← ask none
  let category ← promptCategory none
  parseCreateAccount code name category

def promptUpdateAccount (currentCode currentName : String) (currentCategory : AccountCategory) :
    Prompting UpdateAccountInput := do
  let name ← ask (some currentName)
  let category ← promptCategory (some currentCategory)
  parseUpdateAccount currentCode (some name) (some category)

def promptAccountIdentifier : Prompting String := ask none

def confirmAccountDeletion : Prompting Bool := confirm false

/-! ### Journal entries -/

/-- An amount, which is zero if it is left blank. -/
def parseAmount (raw : String) : Except CommandStop ParsedDecimal :=
  let cleaned := strip raw
  if cleaned = "" then .ok (.finite ⟨0, 0⟩)
  else
    match parseDecimal cleaned with
    | some amount => .ok amount
    | none => .error (.badParameter ⟨"'" ++ raw ++ "' is not a valid decimal amount."⟩)

/-- A posting date. Today is the midnight that the clock's date starts with. -/
def parsePostingDate (today : Timestamp) (raw : Option String) : Except CommandStop DateTime :=
  match raw with
  | none => .ok ⟨today, none⟩
  | some raw =>
    if strip raw = "" then .ok ⟨today, none⟩
    else
      match strptime (strip raw) with
      | some date => .ok ⟨date.midnight, none⟩
      | none => .error (.badParameter
          ⟨"'" ++ raw ++ "' is not a valid date. Use YYYY-MM-DD."⟩)

/-- An amount of a line input: neither infinite nor below zero. -/
def checkInputAmount (field : String) :
    ParsedDecimal → Checked {amount : Decimal // 0 ≤ amount.coefficient}
  | .finite amount => checkAmount field amount
  | .special text => reject "finite_number" field (.text text)

def JournalLineInput.validate (account : String) (debitAmount creditAmount : ParsedDecimal) :
    Except Raised JournalLineInput :=
  match checked : (checkLength "account" 2 100 account).also
      ((checkInputAmount "debit_amount" debitAmount).also
        (checkInputAmount "credit_amount" creditAmount)) with
  | .ok (_, ⟨debit, debitNonneg⟩, ⟨credit, creditNonneg⟩) =>
    .ok ⟨account, debit, credit, (checkLength_eq_ok_iff.mp (Checked.also_eq_ok_iff.mp checked).1).2,
      debitNonneg, creditNonneg⟩
  | .error details => .error (.validationError details)

def checkInputLines (lines : List JournalLineInput) :
    Checked {lines : List JournalLineInput // 2 ≤ lines.length} :=
  if enough : 2 ≤ lines.length then .ok ⟨lines, enough⟩
  else reject ErrorCode.tooShort.value "lines"
    (.lines (lines.map fun line => (line.account, line.debitAmount, line.creditAmount)))

def CreateJournalInput.validate (postingDate : DateTime) (lines : List JournalLineInput)
    (description : Option String) : Except Raised CreateJournalInput :=
  match (checkInputLines lines).also (checkDescription description) with
  | .ok (⟨lines, enough⟩, ⟨description, fits⟩) =>
    .ok ⟨postingDate, lines, description, enough, fits⟩
  | .error details => .error (.validationError details)

def parseJournalLine (account debitAmount creditAmount : String) :
    Except CommandStop JournalLineInput := do
  let account := strip account
  let debitAmount ← parseAmount debitAmount
  let creditAmount ← parseAmount creditAmount
  refusing (JournalLineInput.validate account debitAmount creditAmount)

/-- A line as it is given to an option. -/
def parseLineSpec (raw : String) : Except CommandStop JournalLineInput :=
  match raw.toList.splitOn ':' with
  | [account, debitAmount, creditAmount] =>
    parseJournalLine (String.ofList account) (String.ofList debitAmount)
      (String.ofList creditAmount)
  | _ => .error (.badParameter ⟨"'" ++ raw ++ "' is not a valid line. " ++
      "Expected format: 'Account:Debit:Credit', e.g. 'Cash:100:0'."⟩)

def parseCreateJournal (today : Timestamp) (postingDate : Option String)
    (lines : List JournalLineInput) (description : Option String) :
    Except CommandStop CreateJournalInput := do
  let postingDate ← parsePostingDate today postingDate
  refusing (CreateJournalInput.validate postingDate lines (description.map strip))

/-- What is left blank at a prompt is none. -/
def promptOptional : Prompting (Option String) := do
  let value ← ask (some "")
  return if value = "" then none else some value

def promptLine : Prompting JournalLineInput := do
  let account ← ask none
  let debitAmount ← ask (some "0")
  let creditAmount ← ask (some "0")
  parseJournalLine account debitAmount creditAmount

/-- More lines, as long as another is wanted. Every answer is used up, so the answers bound them. -/
def promptMoreLines : Nat → List JournalLineInput → Prompting (List JournalLineInput)
  | 0, _ => fun _ => .error .interrupted
  | fuel + 1, lines => do
    if ← confirm false then
      let line ← promptLine
      promptMoreLines fuel (lines ++ [line])
    else return lines

def promptLines : Prompting (List JournalLineInput) := do
  let first ← promptLine
  let second ← promptLine
  let answers ← get
  promptMoreLines (answers.length + 1) [first, second]

def promptCreateJournal (today : Timestamp) : Prompting CreateJournalInput := do
  let postingDate ← promptOptional
  let lines ← promptLines
  let description ← promptOptional
  parseCreateJournal today postingDate lines description

def promptJournalNumber : Prompting Int :=
  promptUntil fun answer => parseInt (strip answer)

end Trutina
