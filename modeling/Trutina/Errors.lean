/-
This file models the error contract: the codes, the two errors that services
raise, and what else can leave a service because nothing translates it. A
validator reports its findings as error details, one for each field that fails,
in the order of the fields. A service that catches them turns each detail into
a field violation; a reader that does not lets them through as they are.
-/

import Trutina.Decimal

namespace Trutina

/-! ### Codes -/

/-- The stable identifiers of all failures. -/
inductive ErrorCode where
  | unknownError
  | validationError
  | requestValidationError
  | requiredField
  | invalidNumber
  | invalidDecimal
  | stringType
  | stringTooShort
  | stringTooLong
  | tooShort
  | tooLong
  | greaterThan
  | greaterThanEqual
  | lessThanEqual
  | futureDate
  | pastDate
  | invalidAccountName
  | invalidAccountCode
  | unknownAccount
  | duplicateAccountCode
  | duplicateAccountName
  | accountHasPostings
  | invalidLineAmounts
  | unbalancedEntry
  | unknownJournalEntry
  | duplicateJournalNumber
  | journalAlreadyPosted
  | storageUnavailable
  | storageTimeout
  | duplicateUserEmail
  | unknownUser
  | invalidEmail
  | authInvalidCredentials
  | authThrottled
  deriving DecidableEq, Repr

/-- The text of a code. -/
def ErrorCode.value : ErrorCode → String
  | .unknownError => "error.unknown"
  | .validationError => "error.validation"
  | .requestValidationError => "request.invalid"
  | .requiredField => "missing"
  | .invalidNumber => "int_parsing"
  | .invalidDecimal => "decimal_parsing"
  | .stringType => "string_type"
  | .stringTooShort => "string_too_short"
  | .stringTooLong => "string_too_long"
  | .tooShort => "too_short"
  | .tooLong => "too_long"
  | .greaterThan => "greater_than"
  | .greaterThanEqual => "greater_than_equal"
  | .lessThanEqual => "less_than_equal"
  | .futureDate => "date.future"
  | .pastDate => "date.past"
  | .invalidAccountName => "account.invalid_name"
  | .invalidAccountCode => "account.invalid_code"
  | .unknownAccount => "account.unknown"
  | .duplicateAccountCode => "account.duplicate_code"
  | .duplicateAccountName => "account.duplicate_name"
  | .accountHasPostings => "account.has_postings"
  | .invalidLineAmounts => "journal.invalid_line_amounts"
  | .unbalancedEntry => "journal.unbalanced"
  | .unknownJournalEntry => "journal.unknown_entry"
  | .duplicateJournalNumber => "journal.duplicate_number"
  | .journalAlreadyPosted => "posting.already_posted"
  | .storageUnavailable => "storage.unavailable"
  | .storageTimeout => "storage.timeout"
  | .duplicateUserEmail => "user.duplicate_email"
  | .unknownUser => "user.unknown"
  | .invalidEmail => "user.invalid_email"
  | .authInvalidCredentials => "auth.invalid_credentials"
  | .authThrottled => "auth.throttled"

/-- The validation types that keep their own code when a service translates them. -/
def pydanticCodes : List ErrorCode :=
  [.requiredField, .invalidNumber, .invalidDecimal, .stringType, .stringTooShort, .stringTooLong,
    .tooShort, .tooLong, .greaterThan, .greaterThanEqual, .lessThanEqual]

/-! ### Validation findings -/

/-- A wall-clock time in microseconds since 1970, without a time zone. -/
abbrev Timestamp := Int

/-- A date and time as callers pass it: its wall-clock reading, and its distance from UTC in
seconds when it has a time zone. -/
structure DateTime where
  wallClock : Timestamp
  offset : Option Int
  deriving DecidableEq, Repr

/-- The values validators reject. The input of a rule about a whole model is never rendered,
so it is not kept. -/
inductive Input where
  | text (value : String)
  | number (value : Int)
  | amount (value : Decimal)
  | date (value : DateTime)
  | lines (values : List (String × Decimal × Decimal))
  | model
  deriving DecidableEq, Repr

/-- One finding of a validator: the type of the error, the field and the rejected input. -/
structure ErrorDetail where
  type : String
  location : List String
  input : Input
  deriving DecidableEq, Repr

/-- The text of a violation: the rejected input as text, the raw type of an error whose code is
not kept, or a text given by the service itself. -/
inductive ViolationValue where
  | input (value : Input)
  | errorType (value : String)
  | given (value : String)
  deriving DecidableEq, Repr

/-- A field-level failure as callers see it. -/
structure FieldViolation where
  code : ErrorCode
  field : String
  value : ViolationValue
  deriving DecidableEq, Repr

/-- Translate findings into violations. Types outside the list become an unknown error that
keeps the raw type as its value. -/
def getFieldViolations (details : List ErrorDetail) : List FieldViolation :=
  details.map fun detail =>
    match pydanticCodes.find? fun code => code.value == detail.type with
    | some code => ⟨code, ".".intercalate detail.location, .input detail.input⟩
    | none => ⟨.unknownError, ".".intercalate detail.location, .errorType detail.type⟩

/-! ### What can be raised -/

/-- What a service or a repository can raise. The first two are the errors of the contract. The
others are a validator's findings before their translation, a constraint violation a repository
has still to translate, the comparison of a naive with an aware date, and decimal overflow. -/
inductive Raised where
  | appError (code : ErrorCode) (context : List (String × String))
  | validationAppError (code : ErrorCode) (errors : List FieldViolation)
  | validationError (details : List ErrorDetail)
  | integrityError (constraint : Option String)
  | typeError
  | overflow
  deriving DecidableEq, Repr

namespace AppError

def notFound (code : ErrorCode) (resource identifier : String) : Raised :=
  .appError code [("resource", resource), ("identifier", identifier)]

def conflict (code : ErrorCode) (resource fieldName value : String) : Raised :=
  .appError code [("resource", resource), ("field", fieldName), ("value", value)]

def unknown : Raised := .appError .unknownError []

def storageUnavailable : Raised := .appError .storageUnavailable []

def storageTimeout : Raised := .appError .storageTimeout []

end AppError

namespace ValidationAppError

def validation (details : List ErrorDetail) : Raised :=
  .validationAppError .validationError (getFieldViolations details)

def requiredField (fieldName value : String) : Raised :=
  .validationAppError .validationError [⟨.requiredField, fieldName, .given value⟩]

end ValidationAppError

/-- Run a construction whose findings the service translates. -/
def translating {Result : Type} (construction : Except Raised Result) : Except Raised Result :=
  match construction with
  | .error (.validationError details) => .error (ValidationAppError.validation details)
  | outcome => outcome

theorem translating_eq_ok_iff {Result : Type} {construction : Except Raised Result}
    {result : Result} : translating construction = .ok result ↔ construction = .ok result := by
  unfold translating
  split
  · simp
  · rfl

/-! ### Checking fields -/

theorem map_eq_ok_iff {Error First Second : Type} {outcome : Except Error First}
    {function : First → Second} {result : Second} :
    outcome.map function = .ok result ↔ ∃ first, outcome = .ok first ∧ function first = result := by
  cases outcome <;> simp [Except.map]

/-- A field as checked: its value, or what its validators found. -/
abbrev Checked := Except (List ErrorDetail)

/-- Check two fields. Findings of both are reported. -/
def Checked.also {First Second : Type} :
    Checked First → Checked Second → Checked (First × Second)
  | .ok first, .ok second => .ok (first, second)
  | .ok _, .error details => .error details
  | .error details, .ok _ => .error details
  | .error details, .error others => .error (details ++ others)

theorem Checked.also_eq_ok_iff {First Second : Type} {first : Checked First}
    {second : Checked Second} {value : First × Second} :
    first.also second = .ok value ↔ first = .ok value.1 ∧ second = .ok value.2 := by
  obtain ⟨left, right⟩ := value
  cases first <;> cases second <;> simp [Checked.also]

/-- The finding of one field. -/
def reject {Result : Type} (type : String) (field : String) (input : Input) : Checked Result :=
  .error [⟨type, [field], input⟩]

/-- A construction of a model from its checked fields. Findings are raised together. -/
def Checked.raise {Value : Type} : Checked Value → Except Raised Value
  | .ok value => .ok value
  | .error details => .error (.validationError details)

theorem Checked.raise_eq_ok_iff {Value : Type} {checked : Checked Value} {value : Value} :
    checked.raise = .ok value ↔ checked = .ok value := by
  cases checked <;> simp [Checked.raise]

/-- The length bounds of a text field. -/
def checkLength (field : String) (least most : Nat) (text : String) : Checked String :=
  if text.length < least then reject ErrorCode.stringTooShort.value field (.text text)
  else if most < text.length then reject ErrorCode.stringTooLong.value field (.text text)
  else .ok text

theorem checkLength_eq_ok_iff {field : String} {least most : Nat} {text result : String} :
    checkLength field least most text = .ok result ↔
      result = text ∧ least ≤ text.length ∧ text.length ≤ most := by
  unfold checkLength reject
  split
  · simp
    omega
  · split
    · simp
      omega
    · simp only [Except.ok.injEq, eq_comm (a := text)]
      constructor
      · rintro rfl
        exact ⟨rfl, by omega, by omega⟩
      · rintro ⟨rfl, _⟩
        rfl

end Trutina
