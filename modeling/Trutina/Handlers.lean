/-
This file models what the API makes of an exception. A handler is registered for
each class of the error contract, for the two validation errors of the libraries
and for everything else, and the handler of the first registered class in the
resolution order of the exception is run. The code of a violation has been
replaced on its way, and it is recovered from the text that was kept instead.
-/

import Trutina.ErrorResponses
import Trutina.Middleware

namespace Trutina

/-! ### Codes of violations -/

/-- All codes, as their class lists them. -/
def errorCodes : List ErrorCode :=
  [.unknownError, .validationError, .requestValidationError, .requiredField, .invalidNumber,
    .invalidDecimal, .stringType, .stringTooShort, .stringTooLong, .tooShort, .tooLong,
    .greaterThan, .greaterThanEqual, .lessThanEqual, .futureDate, .pastDate, .invalidAccountName,
    .invalidAccountCode, .unknownAccount, .duplicateAccountCode, .duplicateAccountName,
    .accountHasPostings, .invalidLineAmounts, .unbalancedEntry, .unknownJournalEntry,
    .duplicateJournalNumber, .journalAlreadyPosted, .storageUnavailable, .storageTimeout,
    .duplicateUserEmail, .unknownUser, .invalidEmail, .authInvalidCredentials, .authThrottled]

/-- The code with a text, if there is one. -/
def ErrorCode.ofValue (value : String) : Option ErrorCode :=
  errorCodes.find? fun code => code.value == value

section Violations

-- How a rejected input is rendered.
variable (render : Input → String)

def ViolationValue.text : ViolationValue → String
  | .input value => render value
  | .errorType value => value
  | .given value => value

/-- The code of a violation, or the one that its value keeps if it is unknown. -/
def resolveViolationCode (violation : FieldViolation) : ErrorCode :=
  if violation.code = .unknownError then
    (ErrorCode.ofValue (violation.value.text render)).getD violation.code
  else violation.code

def resolveViolationEntry (violation : FieldViolation) : ErrorCatalogEntry :=
  entryOf (resolveViolationCode render violation)

/-- One failed field of a response. -/
structure FieldErrorDetail where
  field : String
  code : String
  message : String
  hint : Option String := none
  deriving DecidableEq, Repr

def buildFieldDetails (violations : List FieldViolation) : List FieldErrorDetail :=
  violations.map fun violation =>
    let entry := resolveViolationEntry render violation
    { field := violation.field
      code := (resolveViolationCode render violation).value
      message := entry.message
      hint := entry.hint }

end Violations

/-! ### Requests that FastAPI rejects -/

/-- One finding about a request, at a place that begins with the part of the request. -/
structure RequestError where
  loc : List String
  type : String
  msg : String
  deriving DecidableEq, Repr

def requestLocationPrefixes : List String := ["body", "query", "path", "header"]

def requestDetail (error : RequestError) : FieldErrorDetail where
  field := ".".intercalate (error.loc.filter fun part => part ∉ requestLocationPrefixes)
  code := error.type
  message := error.msg

/-! ### Handlers -/

structure ValidationErrorResponse extends ErrorResponse where
  details : List FieldErrorDetail := []
  deriving DecidableEq, Repr

/-- The body of an answer to a failure. -/
inductive ErrorBody where
  | error (response : ErrorResponse)
  | validation (response : ValidationErrorResponse)
  deriving DecidableEq, Repr

def ErrorBody.errorCode : ErrorBody → String
  | .error response => response.errorCode
  | .validation response => response.errorCode

/-- What a handler returns. -/
structure ErrorAnswer where
  statusCode : Nat
  content : ErrorBody
  headers : Option (List (String × String)) := none
  deriving DecidableEq, Repr

/-- What leaves a route: FastAPI's finding about the request before the route has run, or what the
route raises. -/
inductive RouteFailure where
  | invalidRequest (errors : List RequestError)
  | raised (failure : Failure)
  deriving DecidableEq, Repr

/-- The classes with a handler. -/
inductive ExceptionClass where
  | validationAppError
  | appError
  | pydanticValidationError
  | requestValidationError
  | exception
  deriving DecidableEq, Repr

/-- Those of the classes that an exception is of, the most specific one first. -/
def RouteFailure.mro : RouteFailure → List ExceptionClass
  | .invalidRequest _ => [.requestValidationError, .exception]
  | .raised (.service (.validationAppError _ _)) => [.validationAppError, .appError, .exception]
  | .raised (.service (.appError _ _)) => [.appError, .exception]
  | .raised (.service (.validationError _)) => [.pydanticValidationError, .exception]
  | .raised _ => [.exception]

inductive ExceptionHandler where
  | handleValidationAppError
  | handleAppError
  | handlePydanticValidationError
  | handleRequestValidationError
  | handleUnexpectedError
  deriving DecidableEq, Repr

def registerExceptionHandlers : List (ExceptionClass × ExceptionHandler) :=
  [(.validationAppError, .handleValidationAppError), (.appError, .handleAppError),
    (.pydanticValidationError, .handlePydanticValidationError),
    (.requestValidationError, .handleRequestValidationError),
    (.exception, .handleUnexpectedError)]

/-- What a handler raises itself. -/
def formatFailure : Template.FormatError → Failure
  | .keyError name => .other "KeyError" name false
  | .indexError => .other "IndexError" "" false
  | .valueError => .other "ValueError" "" false

/-- A handler was run on an exception of another class. -/
def assertionError : Failure := .other "AssertionError" "" false

/-- The lines that a handler logs, and its answer or what it raises instead. -/
abbrev Handled := List FailureLine × Except Failure ErrorAnswer

section Run

variable (render : Input → String) (request : ApiRequest) (now : Timestamp)

/-- An answer with details, and its line, which has no traceback. -/
def answerValidation (entry : ErrorCatalogEntry) (errorCode : String)
    (details : List FieldErrorDetail) : Handled :=
  ([logFailure request entry.statusCode errorCode false],
    .ok ⟨entry.statusCode,
      .validation { timestamp := now, errorCode, message := entry.message, hint := entry.hint,
                    details }, none⟩)

def handleValidationAppError (code : ErrorCode) (errors : List FieldViolation) : Handled :=
  answerValidation request now (entryOf code) code.value (buildFieldDetails render errors)

def handlePydanticValidationError (details : List ErrorDetail) : Handled :=
  answerValidation request now (entryOf .validationError) ErrorCode.requestValidationError.value
    (buildFieldDetails render (getFieldViolations details))

def handleRequestValidationError (errors : List RequestError) : Handled :=
  answerValidation request now (entryOf .validationError) ErrorCode.requestValidationError.value
    (errors.map requestDetail)

def requestIdHeader : String := "X-Request-ID"

/-- The body for everything else has nothing of the exception. -/
def unexpectedResponse : ErrorResponse where
  timestamp := now
  errorCode := ErrorCode.unknownError.value
  message := defaultErrorEntry.message
  hint := none

/-- The answer to everything else carries the id itself. -/
def handleUnexpectedError : Handled :=
  ([logFailure request defaultErrorEntry.statusCode ErrorCode.unknownError.value true],
    .ok ⟨defaultErrorEntry.statusCode, .error (unexpectedResponse now),
      (request.correlationId.filter (· ≠ "")).map fun id => [(requestIdHeader, id)]⟩)

/-- The error of a service as the handler that is registered for all of them reads it. -/
def answerAppError (code : ErrorCode) (context : ErrorContext) : Handled :=
  let (lines, outcome) := Trutina.handleAppError request now code context
  (lines, match outcome with
    | .ok response => .ok ⟨response.statusCode, .error response.content, response.headers⟩
    | .error error => .error (formatFailure error))

/-- Run a handler. It asserts the class that it is registered for. -/
def ExceptionHandler.run : ExceptionHandler → RouteFailure → Handled
  | .handleValidationAppError, .raised (.service (.validationAppError code errors)) =>
    Trutina.handleValidationAppError render request now code errors
  | .handleAppError, .raised (.service (.appError code context)) =>
    answerAppError request now code context
  | .handleAppError, .raised (.service (.validationAppError code _)) =>
    answerAppError request now code []
  | .handlePydanticValidationError, .raised (.service (.validationError details)) =>
    Trutina.handlePydanticValidationError render request now details
  | .handleRequestValidationError, .invalidRequest errors =>
    Trutina.handleRequestValidationError request now errors
  | .handleUnexpectedError, _ => Trutina.handleUnexpectedError request now
  | _, _ => ([], .error assertionError)

end Run

/-! ### Dispatch -/

/-- The handler of the first class in the resolution order. -/
def findHandler (handlers : List (ExceptionClass × ExceptionHandler)) (failure : RouteFailure) :
    Option ExceptionHandler :=
  failure.mro.findSome? fun exceptionClass => handlers.lookup exceptionClass

/-- The handlers that run inside the middleware: all but the one for every exception. -/
def insideHandlers : List (ExceptionClass × ExceptionHandler) :=
  registerExceptionHandlers.filter fun registered => registered.1 ≠ .exception

/-- What a handler inside the middleware makes of a failure, if there is one for it. -/
def handleInside (render : Input → String) (request : ApiRequest) (now : Timestamp)
    (failure : RouteFailure) : Option Handled :=
  (findHandler insideHandlers failure).map fun handler => handler.run render request now failure

/-- What the handler outside the middleware makes of an exception. -/
def handleOutside (render : Input → String) (request : ApiRequest) (now : Timestamp)
    (failure : Failure) : Handled :=
  match registerExceptionHandlers.lookup .exception with
  | some handler => handler.run render request now (.raised failure)
  | none => ([], .error failure)

@[simp] theorem handleOutside_eq (render : Input → String) (request : ApiRequest)
    (now : Timestamp) (failure : Failure) :
    handleOutside render request now failure = handleUnexpectedError request now :=
  rfl

/-! ### What handlers answer -/

/-- An exception of no other class with a handler. -/
def RouteFailure.Unexpected (failure : RouteFailure) : Prop := failure.mro = [.exception]

/-- A throttled login whose delay cannot be read. -/
def RouteFailure.TooLong (failure : RouteFailure) : Prop :=
  ∃ code context, failure = .raised (.service (.appError code context)) ∧
    TooLongDelay code context

theorem RouteFailure.Unexpected.raised {failure : RouteFailure} (unexpected : failure.Unexpected) :
    ∃ exception, failure = .raised exception := by
  cases failure with
  | invalidRequest errors => cases unexpected
  | raised exception => exact ⟨exception, rfl⟩

theorem RouteFailure.Unexpected.not_tooLong {failure : RouteFailure}
    (unexpected : failure.Unexpected) : ¬failure.TooLong := by
  rintro ⟨code, context, rfl, _⟩
  cases unexpected

/-- No header but the delay is put on an answer. -/
theorem responseHeaders_retryAfter {code : ErrorCode} {context : ErrorContext}
    {headers : Option (List (String × String))}
    (built : responseHeaders code context = .ok headers) :
    ∀ header ∈ headers.getD [], header.1 = "Retry-After" := by
  rw [responseHeaders] at built
  split at built
  · obtain rfl := Except.ok.inj built
    exact List.forall_mem_singleton.mpr rfl
  · split at built
    · obtain ⟨delay, _, rfl⟩ := map_eq_ok_iff.mp built
      cases delay with
      | none => exact List.forall_mem_nil _
      | some seconds => exact List.forall_mem_singleton.mpr rfl
    · obtain rfl := Except.ok.inj built
      exact List.forall_mem_nil _

/-- The answer is a failure, and the line says the same about it. Only incidents are errors, and
only they have tracebacks. -/
structure LineOf (request : ApiRequest) (answer : ErrorAnswer) (line : FailureLine) : Prop where
  refused : 400 ≤ answer.statusCode
  status : line.httpStatus = answer.statusCode
  code : line.errorCode = answer.content.errorCode
  route : line.route = request.path
  correlated : line.correlationId = request.correlationId
  incident : line.level = .error ↔ 500 ≤ answer.statusCode
  traceback : line.excInfo = true → line.level = .error

theorem entryOf_refuses (code : ErrorCode) : 400 ≤ (entryOf code).statusCode := by
  cases code <;> decide

theorem logFailure_level (request : ApiRequest) (status : Nat) (code : String) (excInfo : Bool) :
    (logFailure request status code excInfo).level = .error ↔ 500 ≤ status := by
  show (if 500 ≤ status then LogLevel.error else .info) = .error ↔ 500 ≤ status
  split
  · rename_i incident
    exact iff_of_true rfl incident
  · rename_i expected
    exact iff_of_false nofun expected

theorem answerValidation_lineOf (request : ApiRequest) (now : Timestamp) (code : ErrorCode)
    (errorCode : String) (details : List FieldErrorDetail) :
    ∃ line answer, answerValidation request now (entryOf code) errorCode details =
        ([line], .ok answer) ∧ LineOf request answer line ∧ answer.headers = none := by
  refine ⟨_, _, rfl, ?_, rfl⟩
  exact ⟨entryOf_refuses code, rfl, rfl, rfl, rfl, logFailure_level _ _ _ _, nofun⟩

/-- The answer to an unexpected exception in a request with an id. -/
def unexpectedAnswer (now : Timestamp) (id : String) : ErrorAnswer where
  statusCode := 500
  content := .error (unexpectedResponse now)
  headers := some [(requestIdHeader, id)]

theorem handleUnexpectedError_eq (path : String) {id : String} (named : id ≠ "")
    (now : Timestamp) :
    ∃ line, handleUnexpectedError ⟨path, some id⟩ now = ([line], .ok (unexpectedAnswer now id)) ∧
      LineOf ⟨path, some id⟩ (unexpectedAnswer now id) line := by
  have kept : (some id).filter (· ≠ "") = some id := by
    rw [Option.filter_some, if_pos (decide_eq_true named)]
  refine ⟨logFailure ⟨path, some id⟩ 500 ErrorCode.unknownError.value true, ?_, ?_⟩
  · rw [handleUnexpectedError, kept]
    rfl
  · exact ⟨entryOf_refuses .unknownError, rfl, rfl, rfl, rfl, logFailure_level _ _ _ _,
      fun _ => rfl⟩

/-- An error of a service is answered, or its delay is too long. -/
theorem answerAppError_cases (request : ApiRequest) (now : Timestamp) (code : ErrorCode)
    (context : ErrorContext) :
    (TooLongDelay code context ∧ ∃ line failure,
      answerAppError request now code context = ([line], .error failure) ∧
        line.correlationId = request.correlationId) ∨
    ¬TooLongDelay code context ∧ ∃ line answer,
      answerAppError request now code context = ([line], .ok answer) ∧
        LineOf request answer line ∧
        ∀ header ∈ answer.headers.getD [], header.1 = "Retry-After" := by
  obtain ⟨message, hint, _, _, handled⟩ := handleAppError_eq request now code context
  rw [answerAppError, handled]
  rcases responseHeaders_cases code context with
    ⟨long, error, failed⟩ | ⟨short, headers, built, _⟩
  · rw [failed]
    exact .inl ⟨long, _, _, rfl, rfl⟩
  · refine .inr ⟨short, ?_⟩
    have only : ∀ header ∈ headers.getD [], header.1 = "Retry-After" :=
      responseHeaders_retryAfter built
    rw [built]
    refine ⟨_, _, rfl, ?_, only⟩
    exact ⟨entryOf_refuses code, rfl, rfl, rfl, rfl, logFailure_level _ _ _ _,
      fun incident => (logFailure_level _ _ _ _).mpr (of_decide_eq_true incident)⟩

/-- What is unexpected has no handler inside. -/
theorem handleInside_eq_none {render : Input → String} {request : ApiRequest} {now : Timestamp}
    {failure : RouteFailure} (unexpected : failure.Unexpected) :
    handleInside render request now failure = none := by
  unfold handleInside findHandler
  rw [unexpected]
  rfl

/-- A handler inside answers every failure of its classes, but for a delay that is too long. -/
theorem handleInside_cases (render : Input → String) (request : ApiRequest) (now : Timestamp)
    (failure : RouteFailure) :
    (failure.Unexpected ∧ handleInside render request now failure = none) ∨
    (failure.TooLong ∧ ∃ line other,
      handleInside render request now failure = some ([line], .error other) ∧
        line.correlationId = request.correlationId) ∨
    ¬failure.Unexpected ∧ ¬failure.TooLong ∧ ∃ line answer,
      handleInside render request now failure = some ([line], .ok answer) ∧
        LineOf request answer line ∧
        ∀ header ∈ answer.headers.getD [], header.1 = "Retry-After" := by
  have validation : ∀ (code : ErrorCode) (errorCode : String) (details : List FieldErrorDetail),
      handleInside render request now failure =
          some (answerValidation request now (entryOf code) errorCode details) →
        ∃ line answer, handleInside render request now failure = some ([line], .ok answer) ∧
          LineOf request answer line ∧
          ∀ header ∈ answer.headers.getD [], header.1 = "Retry-After" := by
    intro code errorCode details handled
    obtain ⟨line, answer, same, lineOf, none⟩ :=
      answerValidation_lineOf request now code errorCode details
    refine ⟨line, answer, handled.trans (congrArg some same), lineOf, ?_⟩
    rw [none]
    exact nofun
  have untimely : (∀ code context, failure ≠ .raised (.service (.appError code context))) →
      ¬failure.TooLong := by
    rintro other ⟨code, context, same, _⟩
    exact other code context same
  cases failure with
  | invalidRequest errors =>
    exact .inr (.inr ⟨nofun, untimely nofun, validation .validationError _ _ rfl⟩)
  | raised failure =>
    cases failure with
    | service raised =>
      cases raised with
      | appError code context =>
        rcases answerAppError_cases request now code context with
          ⟨long, line, other, same, correlated⟩ | ⟨short, line, answer, same, lineOf, only⟩
        · exact .inr (.inl ⟨⟨code, context, rfl, long⟩, line, other, congrArg some same,
            correlated⟩)
        · refine .inr (.inr ⟨nofun, ?_, line, answer, congrArg some same, lineOf, only⟩)
          rintro ⟨_, _, ⟨⟩, long⟩
          exact short long
      | validationAppError code errors =>
        exact .inr (.inr ⟨nofun, untimely nofun, validation code _ _ rfl⟩)
      | validationError details =>
        exact .inr (.inr ⟨nofun, untimely nofun, validation .validationError _ _ rfl⟩)
      | integrityError constraint => exact .inl ⟨rfl, rfl⟩
      | typeError => exact .inl ⟨rfl, rfl⟩
      | overflow => exact .inl ⟨rfl, rfl⟩
    | other typeName text frozen => exact .inl ⟨rfl, rfl⟩
    | frozenInstanceError field => exact .inl ⟨rfl, rfl⟩

end Trutina
