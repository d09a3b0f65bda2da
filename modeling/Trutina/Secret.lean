/-
This file models how a rejected input is rendered in a validation error. A name
is secret when its lower-cased text contains a marker. An input at a location
with a secret segment is replaced by a mask; in any other input the values under
secret keys are, at any depth. So what lies under secret names has no influence
on the errors that callers see, and everything else is rendered as it was given.
-/

import Trutina.Errors
import Trutina.KeyedTree

namespace Trutina

/-! ### Values of the interpreter -/

/-- What is no dict, list or tuple. Of a float only its text matters. -/
inductive Scalar (Object : Type) where
  | none
  | bool (value : Bool)
  | int (value : Int)
  | float (text : String)
  | str (text : String)
  | object (value : Object)
  deriving DecidableEq, Repr

abbrev Value (Object : Type) := KeyedTree (Scalar Object)

/-- What the interpreter knows and the model leaves open: how text is lower-cased and quoted, and
the texts and type names of objects. -/
structure Interpreter (Object : Type) where
  lower : String → String
  quote : String → String
  str : Object → String
  repr : Object → String
  typeName : Object → String

section Rendering

variable {Object : Type} (python : Interpreter Object)

/-- `repr()` of a scalar. -/
def Scalar.reprText : Scalar Object → String
  | .none => "None"
  | .bool true => "True"
  | .bool false => "False"
  | .int value => toString value
  | .float text => text
  | .str text => python.quote text
  | .object value => python.repr value

/-- `str()` of a scalar. -/
def Scalar.strText : Scalar Object → String
  | .str text => text
  | .object value => python.str value
  | scalar => scalar.reprText python

mutual

/-- `repr()` of a value. -/
def reprText : Value Object → String
  | .leaf scalar => scalar.reprText python
  | .list items => "[" ++ ", ".intercalate (reprItems items) ++ "]"
  | .tuple items =>
    "(" ++ ", ".intercalate (reprItems items) ++ (if items.length = 1 then ",)" else ")")
  | .dict entries => "\x7b" ++ ", ".intercalate (reprEntries entries) ++ "\x7d"

def reprItems : List (Value Object) → List String
  | [] => []
  | item :: rest => reprText item :: reprItems rest

def reprEntries : List (String × Value Object) → List String
  | [] => []
  | (key, value) :: rest => (python.quote key ++ ": " ++ reprText value) :: reprEntries rest

end

/-- `str()` of a value. -/
def strText : Value Object → String
  | .leaf scalar => scalar.strText python
  | value => reprText python value

end Rendering

/-! ### Secret names -/

def redacted : String := "***REDACTED***"

def secretFieldMarkers : List String :=
  ["password", "secret", "token", "authorization", "credential", "api_key"]

/-- Whether a text contains another. -/
def containsText (part text : String) : Bool := decide (part.toList <:+: text.toList)

/-- A segment of an error location: a field name or the index of an item. -/
inductive Segment where
  | name (text : String)
  | index (position : Int)
  deriving DecidableEq, Repr

def Segment.str : Segment → String
  | .name text => text
  | .index position => toString position

section Redaction

variable {Object : Type} (python : Interpreter Object)

def isSecretName (name : String) : Bool :=
  secretFieldMarkers.any fun marker => containsText marker (python.lower name)

def isSecretLocation (loc : List Segment) : Bool :=
  loc.any fun part => isSecretName python part.str

mutual

def redactInput : Value Object → Value Object
  | .dict entries => .dict (redactEntries entries)
  | .list items => .list (redactItems items)
  | .tuple items => .list (redactItems items)
  | .leaf scalar => .leaf scalar

def redactItems : List (Value Object) → List (Value Object)
  | [] => []
  | item :: rest => redactInput item :: redactItems rest

def redactEntries : List (String × Value Object) → List (String × Value Object)
  | [] => []
  | (key, value) :: rest =>
    (key, if isSecretName python key then .leaf (.str redacted) else redactInput value) ::
      redactEntries rest

end

def safeInputText (loc : List Segment) (value : Value Object) : String :=
  if isSecretLocation python loc then redacted else strText python (redactInput python value)

/-! ### Violations -/

/-- An error as Pydantic reports it. The input may be missing. -/
structure PydanticError (Object : Type) where
  type : String
  loc : List Segment
  input : Option (Value Object)

/-- A field-level failure with the text that callers see. -/
structure RenderedViolation where
  code : ErrorCode
  field : String
  value : String
  deriving DecidableEq, Repr

/-- The input of an error, or the empty text. -/
def PydanticError.inputOrEmpty (error : PydanticError Object) : Value Object :=
  error.input.getD (.leaf (.str ""))

namespace Translators

/-- Translate the errors of Pydantic into violations, with their texts. -/
def getFieldViolations (errors : List (PydanticError Object)) : List RenderedViolation :=
  errors.map fun error =>
    let field := ".".intercalate (error.loc.map Segment.str)
    match pydanticCodes.find? fun code => code.value == error.type with
    | some code => ⟨code, field, safeInputText python error.loc error.inputOrEmpty⟩
    | none => ⟨.unknownError, field, error.type⟩

end Translators

end Redaction

section Redaction

variable {Object : Type} {python : Interpreter Object}

/-! ### Redaction is masking -/

theorem redactItems_eq_map (items : List (Value Object)) :
    redactItems python items = items.map (redactInput python) := by
  induction items with
  | nil => rfl
  | cons item rest inductionHypothesis => rw [redactItems, inductionHypothesis, List.map_cons]

theorem redactEntries_eq_map (entries : List (String × Value Object)) :
    redactEntries python entries = entries.map fun entry =>
      (entry.1, if isSecretName python entry.1 then .leaf (.str redacted)
        else redactInput python entry.2) := by
  induction entries with
  | nil => rfl
  | cons entry rest inductionHypothesis => rw [redactEntries, inductionHypothesis, List.map_cons]

/-- An input is masked under the secret names, and its scalars stay as they are. -/
theorem redactInput_eq_masked (value : Value Object) :
    redactInput python value = value.masked (isSecretName python) (.str redacted) id := by
  induction value using KeyedTree.induction with
  | leaf scalar => rfl
  | list items inductionHypothesis =>
    rw [redactInput, KeyedTree.masked, redactItems_eq_map, KeyedTree.maskedItems_eq_map,
      List.map_congr_left inductionHypothesis]
  | tuple items inductionHypothesis =>
    rw [redactInput, KeyedTree.masked, redactItems_eq_map, KeyedTree.maskedItems_eq_map,
      List.map_congr_left inductionHypothesis]
  | dict entries inductionHypothesis =>
    rw [redactInput, KeyedTree.masked, redactEntries_eq_map, KeyedTree.maskedEntries_eq_map]
    refine congrArg KeyedTree.dict (List.map_congr_left fun entry member => ?_)
    rw [KeyedTree.maskedEntry, inductionHypothesis entry member]

/-- Inputs that differ only under secret names are redacted alike. -/
theorem redactInput_eq_of_alike {first second : Value Object}
    (alike : KeyedTree.Alike (isSecretName python) first second) :
    redactInput python first = redactInput python second := by
  rw [redactInput_eq_masked, redactInput_eq_masked, alike.masked_eq]

/-- What lies on a path without secret names is redacted where it is. -/
theorem redactInput_get? {path : List KeyedTree.Step}
    (shown : ∀ step ∈ path, step.Open (isSecretName python)) (value : Value Object) :
    (redactInput python value).get? path = (value.get? path).map (redactInput python) := by
  rw [redactInput_eq_masked, KeyedTree.get?_masked shown]
  exact congrArg (Option.map · _) (funext fun child => (redactInput_eq_masked child).symm)

/-! ### What callers see -/

theorem safeInputText_of_secret {loc : List Segment} (hidden : isSecretLocation python loc = true)
    (value : Value Object) : safeInputText python loc value = redacted :=
  if_pos hidden

theorem safeInputText_of_shown {loc : List Segment}
    (shown : isSecretLocation python loc = false) (value : Value Object) :
    safeInputText python loc value = strText python (redactInput python value) :=
  if_neg (ne_true_of_eq_false shown)

theorem safeInputText_eq_of_alike (loc : List Segment) {first second : Value Object}
    (alike : KeyedTree.Alike (isSecretName python) first second) :
    safeInputText python loc first = safeInputText python loc second := by
  rw [safeInputText, safeInputText, redactInput_eq_of_alike alike]

/-- The errors have one type and one location. If that is not secret, their inputs differ only
under secret names. -/
structure AlikeError (python : Interpreter Object) (error other : PydanticError Object) :
    Prop where
  type : error.type = other.type
  loc : error.loc = other.loc
  input : isSecretLocation python error.loc = true ∨
    KeyedTree.Alike (isSecretName python) error.inputOrEmpty other.inputOrEmpty

theorem AlikeError.text {error other : PydanticError Object}
    (alike : AlikeError python error other) :
    safeInputText python error.loc error.inputOrEmpty =
      safeInputText python other.loc other.inputOrEmpty := by
  rw [← alike.loc]
  rcases alike.input with hidden | inputs
  · rw [safeInputText_of_secret hidden, safeInputText_of_secret hidden]
  · exact safeInputText_eq_of_alike _ inputs

theorem getFieldViolations_eq_of_alike {errors others : List (PydanticError Object)}
    (alike : List.Forall₂ (AlikeError python) errors others) :
    Translators.getFieldViolations python errors =
      Translators.getFieldViolations python others := by
  refine (alike.map_eq fun error _ other same => ?_).symm
  rw [same.text, same.type, same.loc]

/-- Inputs that differ only under secret names, and any inputs at a secret location, have one text,
so errors that differ in such inputs are translated into the same violations. At any other location
the text is that of a value which has, on every path without secret names, what the input has there,
redacted in its turn; a scalar is itself. -/
theorem validation_hides_secrets (python : Interpreter Object) :
    (∀ loc first second, KeyedTree.Alike (isSecretName python) first second →
      safeInputText python loc first = safeInputText python loc second) ∧
    (∀ loc first second, isSecretLocation python loc = true →
      safeInputText python loc first = safeInputText python loc second) ∧
    (∀ errors others, List.Forall₂ (AlikeError python) errors others →
      Translators.getFieldViolations python errors =
        Translators.getFieldViolations python others) ∧
    ∀ loc value, isSecretLocation python loc = false →
      ∃ rendered, safeInputText python loc value = strText python rendered ∧
        ∀ path, (∀ step ∈ path, step.Open (isSecretName python)) →
          rendered.get? path = (value.get? path).map (redactInput python) ∧
          ∀ scalar, value.get? path = some (.leaf scalar) →
            rendered.get? path = some (.leaf scalar) := by
  refine ⟨fun loc first second alike => safeInputText_eq_of_alike loc alike,
    fun loc first second hidden => ?_, fun errors others alike =>
      getFieldViolations_eq_of_alike alike, fun loc value shown => ?_⟩
  · rw [safeInputText_of_secret hidden, safeInputText_of_secret hidden]
  · refine ⟨_, safeInputText_of_shown shown value, fun path opened =>
      ⟨redactInput_get? opened value, fun scalar found => ?_⟩⟩
    rw [redactInput_get? opened, found]
    rfl

end Redaction

/-- An interpreter without other objects, on text in ASCII that needs no escapes. -/
def plainPython : Interpreter Empty where
  lower text := text.map Char.toLower
  quote text := "'" ++ text ++ "'"
  str := Empty.elim
  repr := Empty.elim
  typeName := Empty.elim

/-- A request without an email whose items carry a password. -/
def signUp (password : String) : Value Empty :=
  .dict [("items", .tuple [.dict [("New_Password", .leaf (.str password)),
    ("name", .leaf (.str "ada"))], .leaf (.int 7)])]

/-- Neither password is in the text, and the name is. -/
theorem validation_hides_secrets_of_signUp :
    safeInputText plainPython [.name "email"] (signUp "hunter2") =
        safeInputText plainPython [.name "email"] (signUp "letmein") ∧
      safeInputText plainPython [.name "email"] (signUp "hunter2") =
        "\x7b'items': [\x7b'New_Password': '***REDACTED***', 'name': 'ada'\x7d, 7]\x7d" := by
  refine ⟨(validation_hides_secrets plainPython).1 _ _ _ ?_, by decide +kernel⟩
  have secret : isSecretName plainPython "New_Password" = true := by decide +kernel
  exact .dict (.cons (.shown "items" (.tuple (.cons (.dict (.cons (.hidden secret _ _)
    (.cons (.shown "name" (.leaf _)) .nil))) (.cons (.leaf _) .nil)))) .nil)

end Trutina
