/-
This file models how an error of a service becomes a response. A catalog has a
status and two templates for each code, which are filled from the context of the
error or left as they are. A throttled login is answered with the delay from the
context in a header, if that is a number. Reading the number is the one step that
can fail: the interpreter refuses one of more than 4300 digits.
-/

import Trutina.Errors
import Trutina.Template

namespace Trutina

/-! ### The catalog -/

structure ErrorCatalogEntry where
  statusCode : Nat
  message : String
  hint : Option String := none
  deriving DecidableEq, Repr

def defaultErrorEntry : ErrorCatalogEntry where
  statusCode := 500
  message := "An unexpected error occurred."

/-- Transport failures have a code but no entry. -/
def errorCatalog : ErrorCode → Option ErrorCatalogEntry
  | .unknownError => some defaultErrorEntry
  | .validationError => some ⟨422, "The request failed validation.",
      some "Review the `details` array for the specific fields that failed."⟩
  | .requestValidationError => none
  | .requiredField => some ⟨422, "This field is required.", none⟩
  | .invalidNumber => some ⟨422, "This field must be a valid integer.", none⟩
  | .invalidDecimal => some ⟨422, "This field must be a valid decimal number.", none⟩
  | .stringType => some ⟨422, "This field must be a string.", none⟩
  | .stringTooShort => some ⟨422, "This field is too short.", none⟩
  | .stringTooLong => some ⟨422, "This field is too long.", none⟩
  | .tooShort => some ⟨422, "Too few items were provided.", none⟩
  | .tooLong => some ⟨422, "Too many items were provided.", none⟩
  | .greaterThan => some ⟨422, "This value is too small.", none⟩
  | .greaterThanEqual => some ⟨422, "This value is too small.", none⟩
  | .lessThanEqual => some ⟨422, "This value is too large.", none⟩
  | .futureDate => some ⟨422, "The date cannot be in the future.",
      some "Use a date on or before today."⟩
  | .pastDate => some ⟨422, "The date is too far in the past.",
      some "Use a date after the supported accounting period start (2020-01-01)."⟩
  | .invalidAccountName => some ⟨422, "The account name is not valid.",
      some ("Account names must start with a letter and use only letters, " ++
        "digits, spaces, and single & - ' . / separators.")⟩
  | .invalidAccountCode => some ⟨422, "The account code is not valid.",
      some "Account codes must be 4 to 6 digits (0-9), for example '1001'."⟩
  | .unknownAccount => some ⟨404, "No account was found for '\x7bidentifier\x7d'.",
      some "Verify the account code or name, or create it first via POST /accounts."⟩
  | .duplicateAccountCode => some ⟨409, "An account with code '\x7bvalue\x7d' already exists.",
      some ("Choose a code other than '\x7bvalue\x7d', or update the existing account " ++
        "instead.")⟩
  | .duplicateAccountName => some ⟨409, "An account named '\x7bvalue\x7d' already exists.",
      some ("Choose a name other than '\x7bvalue\x7d', or update the existing account " ++
        "instead.")⟩
  | .accountHasPostings => some ⟨409,
      "This account has existing postings and cannot be removed.",
      some "Accounts with posting history cannot be deleted."⟩
  | .invalidLineAmounts => some ⟨422,
      "A journal line must carry either a debit or a credit amount, not both.",
      some "Set exactly one of debit_amount/credit_amount to a positive value."⟩
  | .unbalancedEntry => some ⟨422, "Total debits must equal total credits.",
      some "Adjust the journal lines so total debits and total credits match exactly."⟩
  | .unknownJournalEntry => some ⟨404, "No journal entry was found for '\x7bidentifier\x7d'.",
      some "Verify the journal number, or create the entry first via POST /journal-entries."⟩
  | .duplicateJournalNumber => some ⟨409, "Journal number '\x7bvalue\x7d' already exists.",
      some "Please retry the request."⟩
  | .journalAlreadyPosted => some ⟨409,
      "Journal entry '\x7bvalue\x7d' has already been posted.",
      some ("Each journal entry can only be posted once; fetch its existing postings " ++
        "instead.")⟩
  | .duplicateUserEmail => some ⟨409, "A user with this email already exists.",
      some "Use a different email address."⟩
  | .unknownUser => some ⟨404, "No user was found.", some "Verify the user identifier."⟩
  | .invalidEmail => some ⟨422, "The email address is not valid.",
      some "Use an address such as name@example.com."⟩
  | .authInvalidCredentials => some ⟨401, "The email or password is incorrect.",
      some "Check your email and password and try again."⟩
  | .authThrottled => some ⟨429, "Too many sign-in attempts.",
      some "Wait before trying again."⟩
  | .storageUnavailable => some ⟨503, "The database is currently unavailable.",
      some "Retry the request after a short delay. Contact support if this persists."⟩
  | .storageTimeout => some ⟨504, "The database did not respond in time.",
      some "Retry the request. Frequent timeouts may indicate database load."⟩

/-- The entry of a code, or the default one. -/
def entryOf (code : ErrorCode) : ErrorCatalogEntry := (errorCatalog code).getD defaultErrorEntry

/-! ### Filling templates -/

abbrev ErrorContext := List (String × String)

/-- A template with a field that has no value is left as it is. -/
def fillTemplate (template : String) (context : ErrorContext) :
    Except Template.FormatError String :=
  match Template.format (fun key => context.lookup key) template with
  | .error (.keyError _) => .ok template
  | .error .indexError => .ok template
  | outcome => outcome

def fillHint (template : Option String) (context : ErrorContext) :
    Except Template.FormatError (Option String) :=
  match template with
  | none => .ok none
  | some template => (fillTemplate template context).map some

/-! ### Headers -/

def retryableCodes : List ErrorCode := [.storageUnavailable, .storageTimeout]

def retryAfterSeconds : String := "5"

def throttleRetryAfterKey : String := "retry_after_seconds"

/-- `isascii()` and `isdigit()` at once. -/
def isAsciiDigits (value : String) : Bool := value != "" && value.toList.all Char.isDigit

/-- `int()` on ASCII digits. -/
def readInt (value : String) : Except Template.FormatError Nat :=
  if 4300 < value.length then .error .valueError
  else .ok (value.toList.foldl (fun number digit => 10 * number + (digit.toNat - 48)) 0)

def throttleRetryAfter (context : ErrorContext) : Except Template.FormatError (Option String) :=
  let value := (context.lookup throttleRetryAfterKey).getD ""
  if isAsciiDigits value then (readInt value).map fun number => some (toString number)
  else .ok none

def responseHeaders (code : ErrorCode) (context : ErrorContext) :
    Except Template.FormatError (Option (List (String × String))) :=
  if code ∈ retryableCodes then .ok (some [("Retry-After", retryAfterSeconds)])
  else if code = .authThrottled then
    (throttleRetryAfter context).map fun retryAfter =>
      retryAfter.map fun seconds => [("Retry-After", seconds)]
  else .ok none

/-! ### The handler -/

/-- What the handler reads of a request. -/
structure ApiRequest where
  path : String
  correlationId : Option String

structure ErrorResponse where
  success : Bool := false
  timestamp : Timestamp
  errorCode : String
  message : String
  hint : Option String
  deriving DecidableEq, Repr

structure JSONResponse where
  statusCode : Nat
  content : ErrorResponse
  headers : Option (List (String × String))
  deriving DecidableEq, Repr

inductive LogLevel where
  | info
  | error
  deriving DecidableEq, Repr

/-- One line for a request that failed. -/
structure FailureLine where
  level : LogLevel
  event : String
  errorCode : String
  httpStatus : Nat
  route : String
  correlationId : Option String
  excInfo : Bool
  deriving DecidableEq, Repr

def errorLogThreshold : Nat := 500

def logFailure (request : ApiRequest) (statusCode : Nat) (errorCode : String)
    (logExcInfo : Bool) : FailureLine where
  level := if errorLogThreshold ≤ statusCode then .error else .info
  event := "request.failed"
  errorCode := errorCode
  httpStatus := statusCode
  route := request.path
  correlationId := request.correlationId
  excInfo := logExcInfo

/-- The lines that are logged, and the response or what is raised instead. The line comes before
the headers. -/
def handleAppError (request : ApiRequest) (now : Timestamp) (code : ErrorCode)
    (context : ErrorContext) : List FailureLine × Except Template.FormatError JSONResponse :=
  let entry := entryOf code
  match fillTemplate entry.message context, fillHint entry.hint context with
  | .error error, _ => ([], .error error)
  | .ok _, .error error => ([], .error error)
  | .ok message, .ok hint =>
    let body : ErrorResponse := { timestamp := now, errorCode := code.value, message, hint }
    let line := logFailure request entry.statusCode code.value
      (decide (errorLogThreshold ≤ entry.statusCode))
    ([line], (responseHeaders code context).map fun headers =>
      { statusCode := entry.statusCode, content := body, headers })

/-! ### Templates are filled or left -/

/-- The fields of the catalog. -/
def catalogFields : List String := ["identifier", "value"]

/-- Every piece of a template is a character or one of the fields. -/
def isPlainTemplate (template : String) : Bool :=
  (Template.pieces template).all (Template.Piece.isPlain catalogFields)

theorem entryOf_plain (code : ErrorCode) :
    (isPlainTemplate (entryOf code).message && (entryOf code).hint.all isPlainTemplate) = true := by
  cases code <;> decide +kernel

/-- The template with the value from the context in place of every field; or the template as it is,
with a field that has no value. -/
def FilledOrLeft (template : String) (context : ErrorContext) (text : String) : Prop :=
  (∃ parts, List.Forall₂
      (fun piece part => Template.Piece.value (fun key => context.lookup key) piece = .ok part)
      (Template.pieces template) parts ∧ text = String.ofList parts.flatten) ∨
    (∃ name, .field name ∈ Template.pieces template ∧ context.lookup name = none) ∧
      text = template

theorem fillTemplate_of_plain {template : String} (plain : isPlainTemplate template = true)
    (context : ErrorContext) :
    ∃ text, fillTemplate template context = .ok text ∧ FilledOrLeft template context text := by
  rw [fillTemplate, Template.format]
  cases filled : Template.fill (fun key => context.lookup key) (Template.pieces template) with
  | ok text =>
    obtain ⟨parts, all, rfl⟩ := Template.fill_eq_ok filled
    exact ⟨_, rfl, .inl ⟨parts, all, rfl⟩⟩
  | error error =>
    obtain ⟨piece, member, stopped⟩ := Template.fill_eq_error filled
    obtain ⟨name, rfl, missing, rfl⟩ :=
      Template.Piece.value_eq_error (List.all_eq_true.mp plain piece member) stopped
    exact ⟨template, rfl, .inr ⟨⟨name, member, missing⟩, rfl⟩⟩

theorem fillHint_of_plain {template : Option String}
    (plain : template.all isPlainTemplate = true) (context : ErrorContext) :
    ∃ hint, fillHint template context = .ok hint ∧
      Option.Rel (fun template text => FilledOrLeft template context text) template hint := by
  cases template with
  | none => exact ⟨none, rfl, .none⟩
  | some template =>
    obtain ⟨text, filled, rendered⟩ := fillTemplate_of_plain plain context
    refine ⟨some text, ?_, .some rendered⟩
    rw [fillHint, filled]
    rfl

/-- The handler comes to the headers with a message and a hint. -/
theorem handleAppError_eq (request : ApiRequest) (now : Timestamp) (code : ErrorCode)
    (context : ErrorContext) :
    ∃ message hint, FilledOrLeft (entryOf code).message context message ∧
      Option.Rel (fun template text => FilledOrLeft template context text) (entryOf code).hint
        hint ∧
      handleAppError request now code context =
        ([logFailure request (entryOf code).statusCode code.value
            (decide (errorLogThreshold ≤ (entryOf code).statusCode))],
          (responseHeaders code context).map fun headers =>
            { statusCode := (entryOf code).statusCode,
              content := { timestamp := now, errorCode := code.value, message, hint },
              headers }) := by
  have plain := Bool.and_eq_true_iff.mp (entryOf_plain code)
  obtain ⟨message, filled, rendered⟩ := fillTemplate_of_plain plain.1 context
  obtain ⟨hint, filledHint, renderedHint⟩ := fillHint_of_plain plain.2 context
  refine ⟨message, hint, rendered, renderedHint, ?_⟩
  rw [handleAppError, filled, filledHint]

/-! ### Numbers in headers -/

/-- Digits, of which the first is not zero if there are others. -/
structure IsPlainNumber (value : String) : Prop where
  digits : isAsciiDigits value = true
  leading : ∀ rest, value.toList = '0' :: rest → rest = []

theorem toDigits_leading {number : Nat} (positive : 0 < number) {rest : List Char} :
    Nat.toDigits 10 number ≠ '0' :: rest := by
  induction number using Nat.strong_induction_on generalizing rest with
  | _ number inductionHypothesis =>
    intro starts
    by_cases small : number < 10
    · rw [Nat.toDigits_of_lt_base small] at starts
      have digit := (List.cons.inj starts).1
      rw [Nat.digitChar_eq_zero] at digit
      omega
    · rw [Nat.toDigits_of_base_le (by decide) (by omega), List.append_eq_cons_iff] at starts
      rcases starts with ⟨empty, _⟩ | ⟨more, front, _⟩
      · exact Nat.toDigits_ne_nil empty
      · exact inductionHypothesis (number / 10) (by omega) (by omega) front

theorem toString_plain (number : Nat) : IsPlainNumber (toString number) where
  digits := by
    rw [isAsciiDigits, Bool.and_eq_true, bne_iff_ne, Nat.toString_eq_repr, Nat.toList_repr,
      List.all_eq_true]
    exact ⟨Nat.repr_ne_empty, fun digit member =>
      Nat.isDigit_of_mem_toDigits (by decide) (by decide) member⟩
  leading := by
    intro rest starts
    rw [Nat.toString_eq_repr, Nat.toList_repr] at starts
    rcases Nat.eq_zero_or_pos number with rfl | positive
    · rw [Nat.toDigits_zero] at starts
      exact (List.cons.inj starts).2.symm
    · exact absurd starts (toDigits_leading positive)

/-- The delay in the context, if it is a number. -/
def givenDelay (context : ErrorContext) : Option String :=
  (context.lookup throttleRetryAfterKey).filter isAsciiDigits

/-- The delay of a throttled login is a number that is too long to be read. -/
def TooLongDelay (code : ErrorCode) (context : ErrorContext) : Prop :=
  code = .authThrottled ∧ ∃ delay, givenDelay context = some delay ∧ 4300 < delay.length

theorem throttleRetryAfter_eq (context : ErrorContext) :
    throttleRetryAfter context =
      match givenDelay context with
      | none => .ok none
      | some delay => (readInt delay).map fun number => some (toString number) := by
  rw [throttleRetryAfter, givenDelay]
  cases context.lookup throttleRetryAfterKey with
  | none => rfl
  | some value =>
    rw [Option.getD_some, Option.filter_some]
    cases isAsciiDigits value <;> rfl

/-- The value of the header, if there is one. -/
def retryAfter (headers : Option (List (String × String))) : Option String :=
  (headers.getD []).lookup "Retry-After"

/-- The header is there for a storage failure, or a throttled login with a delay, and it is a plain
number. -/
structure ProperHeaders (code : ErrorCode) (context : ErrorContext)
    (headers : Option (List (String × String))) : Prop where
  present : (retryAfter headers).isSome = true ↔
    code ∈ retryableCodes ∨ code = .authThrottled ∧ (givenDelay context).isSome = true
  plain : ∀ value, retryAfter headers = some value → IsPlainNumber value

theorem properHeaders_some {code : ErrorCode} {context : ErrorContext} {value : String}
    (asked : code ∈ retryableCodes ∨ code = .authThrottled ∧ (givenDelay context).isSome = true)
    (plain : IsPlainNumber value) :
    ProperHeaders code context (some [("Retry-After", value)]) where
  present := iff_of_true rfl asked
  plain := by
    intro other same
    obtain rfl : value = other := Option.some.inj same
    exact plain

theorem properHeaders_none {code : ErrorCode} {context : ErrorContext}
    (unasked : ¬(code ∈ retryableCodes ∨
      code = .authThrottled ∧ (givenDelay context).isSome = true)) :
    ProperHeaders code context none where
  present := iff_of_false Bool.false_ne_true unasked
  plain := by
    rintro value ⟨⟩

/-- Only a delay that is too long keeps the headers from being built. -/
theorem responseHeaders_cases (code : ErrorCode) (context : ErrorContext) :
    (TooLongDelay code context ∧ ∃ error, responseHeaders code context = .error error) ∨
      ¬TooLongDelay code context ∧
        ∃ headers, responseHeaders code context = .ok headers ∧
          ProperHeaders code context headers := by
  rw [responseHeaders]
  by_cases retryable : code ∈ retryableCodes
  · refine .inr ⟨?_, _, if_pos retryable, properHeaders_some (.inl retryable) (toString_plain 5)⟩
    rintro ⟨rfl, _⟩
    exact absurd retryable (by decide)
  rw [if_neg retryable]
  by_cases throttled : code = .authThrottled
  · subst throttled
    rw [if_pos rfl, throttleRetryAfter_eq]
    cases given : givenDelay context with
    | none =>
      refine .inr ⟨?_, none, rfl, properHeaders_none ?_⟩
      · rintro ⟨_, delay, some, _⟩
        rw [given] at some
        cases some
      · rw [given]
        rintro (member | ⟨_, ⟨⟩⟩)
        exact retryable member
    | some delay =>
      dsimp only
      rw [readInt]
      by_cases long : 4300 < delay.length
      · exact .inl ⟨⟨rfl, delay, given, long⟩, .valueError, by rw [if_pos long]; rfl⟩
      · rw [if_neg long]
        refine .inr ⟨?_, _, rfl, properHeaders_some (.inr ⟨rfl, ?_⟩) (toString_plain _)⟩
        · rintro ⟨_, other, some, longer⟩
          rw [given, Option.some.injEq] at some
          exact long (some ▸ longer)
        · rw [given]
          rfl
  · rw [if_neg throttled]
    refine .inr ⟨fun long => throttled long.1, none, rfl, properHeaders_none ?_⟩
    rintro (member | ⟨same, _⟩)
    · exact retryable member
    · exact throttled same

/-- The response has the status of the catalog, or 500 without an entry, the templates filled or
left as they are, and proper headers. -/
structure Translates (code : ErrorCode) (context : ErrorContext) (response : JSONResponse) :
    Prop where
  status : response.statusCode = ((errorCatalog code).map ErrorCatalogEntry.statusCode).getD 500
  failed : response.content.success = false ∧ response.content.errorCode = code.value
  message : FilledOrLeft (entryOf code).message context response.content.message
  hint : Option.Rel (fun template text => FilledOrLeft template context text) (entryOf code).hint
    response.content.hint
  headers : ProperHeaders code context response.headers

theorem entryOf_statusCode (code : ErrorCode) :
    (entryOf code).statusCode =
      ((errorCatalog code).map ErrorCatalogEntry.statusCode).getD 500 := by
  rw [entryOf]
  cases errorCatalog code <;> rfl

/-- Every error of a service is translated into its response, unless it is a throttled login with a
delay of more than 4300 digits. -/
theorem handleAppError_total_iff (request : ApiRequest) (now : Timestamp) (code : ErrorCode)
    (context : ErrorContext) :
    (∃ response, (handleAppError request now code context).2 = .ok response ∧
        Translates code context response) ↔ ¬TooLongDelay code context := by
  obtain ⟨message, hint, rendered, renderedHint, handled⟩ :=
    handleAppError_eq request now code context
  rw [handled]
  rcases responseHeaders_cases code context with
    ⟨long, error, failed⟩ | ⟨short, headers, built, proper⟩
  · rw [failed]
    refine iff_of_false ?_ (not_not_intro long)
    rintro ⟨response, ⟨⟩, _⟩
  · rw [built]
    refine iff_of_true ⟨_, rfl, ?_⟩ short
    exact ⟨entryOf_statusCode code, ⟨rfl, rfl⟩, rendered, renderedHint, proper⟩

/-- A number of that many digits. -/
def ones (count : Nat) : String := String.ofList (List.replicate count '1')

theorem ones_length (count : Nat) : (ones count).length = count := by
  rw [ones, ← String.length_toList, String.toList_ofList, List.length_replicate]

theorem ones_digits {count : Nat} (positive : 0 < count) : isAsciiDigits (ones count) = true := by
  have nonempty : ones count ≠ "" := by
    intro same
    have lengths := congrArg String.length same
    rw [ones_length] at lengths
    exact absurd lengths positive.ne'
  rw [isAsciiDigits, Bool.and_eq_true, bne_iff_ne, List.all_eq_true]
  refine ⟨nonempty, fun digit member => ?_⟩
  rw [ones, String.toList_ofList] at member
  rw [List.eq_of_mem_replicate member]
  rfl

theorem ones_tooLong {count : Nat} (long : 4300 < count) :
    TooLongDelay .authThrottled [("retry_after_seconds", ones count)] := by
  refine ⟨rfl, ones count, ?_, (ones_length count).symm ▸ long⟩
  have found : givenDelay [("retry_after_seconds", ones count)] =
      (some (ones count)).filter isAsciiDigits := rfl
  rw [found, Option.filter_some, ones_digits (by omega), if_pos rfl]

/-- Instead of a response for a delay of 4301 digits there is an error. -/
theorem handleAppError_raises :
    ∃ error, (handleAppError ⟨"/auth/login", none⟩ 0 .authThrottled
      [("retry_after_seconds", ones 4301)]).2 = .error error := by
  have long := ones_tooLong (show 4300 < 4301 by omega)
  generalize ones 4301 = delay at long
  obtain ⟨message, hint, _, _, handled⟩ := handleAppError_eq ⟨"/auth/login", none⟩ 0
    .authThrottled [("retry_after_seconds", delay)]
  rcases responseHeaders_cases .authThrottled [("retry_after_seconds", delay)] with
    ⟨_, error, failed⟩ | ⟨short, _⟩
  · exact ⟨error, by rw [handled, failed]; rfl⟩
  · exact absurd long short

end Trutina
