/-
This file models the processors that log events pass through, for a record with
an exception attached. Redaction comes before the traceback is rendered, and it
turns the attached tuple into something that is no tuple any more. What is
rendered afterwards is the exception being handled, which need not be the
attached one, with every local variable of its frames under its own name. So
credentials stay out of the output just when no frame has a variable whose name
is secret.
-/

import Trutina.LogRedaction

namespace Trutina

/-! ### Exceptions -/

/-- One frame of a traceback, with the `repr()` of every local variable and parameter. -/
structure Frame where
  filename : String
  lineno : Nat
  name : String
  locals : List (String × String)
  deriving DecidableEq, Repr

/-- An exception with its traceback. -/
structure PyException where
  typeName : String
  text : String
  frames : List Frame
  deriving DecidableEq, Repr

/-- The objects in a log event. Of those that do not belong to an exception a number is known. -/
inductive LogObject where
  | exceptionType (name : String)
  | exception (raised : PyException)
  | traceback (frames : List Frame)
  | other (number : Nat)
  deriving DecidableEq, Repr

/-- What `exc_info` holds: the type, the exception and its traceback. -/
def PyException.excInfo (raised : PyException) : Value LogObject :=
  .tuple [.leaf (.object (.exceptionType raised.typeName)), .leaf (.object (.exception raised)),
    .leaf (.object (.traceback raised.frames))]

/-! ### Processors -/

abbrev Processor := EventDict LogObject → EventDict LogObject

def noiseKeys : List String := ["color_message"]

def dropNoiseKeys : Processor := fun events =>
  events.filter fun entry => !noiseKeys.contains entry.1

section Processors

variable (python : Interpreter LogObject)

mutual

def coerceValue : Value LogObject → Value LogObject
  | .leaf (.object object) => .leaf (.str ("<" ++ python.typeName object ++ ">"))
  | .leaf scalar => .leaf scalar
  | .list items => .list (coerceItems items)
  | .tuple items => .list (coerceItems items)
  | .dict entries => .dict (coerceEntries entries)

def coerceItems : List (Value LogObject) → List (Value LogObject)
  | [] => []
  | item :: rest => coerceValue item :: coerceItems rest

def coerceEntries : List (String × Value LogObject) → List (String × Value LogObject)
  | [] => []
  | (key, value) :: rest => (key, coerceValue value) :: coerceEntries rest

end

/-- Only the context is coerced, and only if it is a dict. -/
def coerceContext : Processor := fun events =>
  events.map fun entry =>
    match entry with
    | ("context", .dict context) => ("context", .dict (coerceEntries python context))
    | other => other

/-- Whether a value counts as true. -/
def isTruthy : Value LogObject → Bool
  | .leaf .none => false
  | .leaf (.bool value) => value
  | .leaf (.int value) => value != 0
  | .leaf (.float text) => text != "0.0" && text != "-0.0"
  | .leaf (.str text) => text != ""
  | .leaf (.object _) => true
  | .list items => !items.isEmpty
  | .tuple items => !items.isEmpty
  | .dict entries => !entries.isEmpty

/-- The exception a traceback is rendered of: the given one, or else the one being handled. -/
def figureOutExcInfo (handled : Option PyException) : Value LogObject → Option PyException
  | .leaf (.object (.exception given)) => some given
  | .tuple [_, .leaf (.object (.exception given)), _] => some given
  | value => if isTruthy value then handled else none

/-- A frame with its local variables by name. -/
def Frame.render (frame : Frame) : Value LogObject :=
  .dict [("filename", .leaf (.str frame.filename)), ("lineno", .leaf (.int frame.lineno)),
    ("name", .leaf (.str frame.name)),
    ("locals", .dict (frame.locals.map fun slot => (slot.1, .leaf (.str slot.2))))]

/-- What is rendered of an exception. Those that it was raised from would follow in the list. -/
def PyException.render (raised : PyException) : Value LogObject :=
  .list [.dict [("exc_type", .leaf (.str raised.typeName)),
    ("exc_value", .leaf (.str raised.text)), ("frames", .list (raised.frames.map Frame.render))]]

/-- What is under a key. -/
def EventDict.get? {Object : Type} (key : String) (events : EventDict Object) :
    Option (Value Object) :=
  (events.find? fun entry => entry.1 == key).map Prod.snd

/-- Assign to a key, which keeps its place if it is there. -/
def EventDict.assign (key : String) (value : Value LogObject) : Processor := fun events =>
  if events.any fun entry => entry.1 == key then
    events.map fun entry => if entry.1 = key then (key, value) else entry
  else events ++ [(key, value)]

/-- `dict_tracebacks` as it is constructed by default. -/
def dictTracebacks (handled : Option PyException) : Processor := fun events =>
  let excInfo := (events.find? fun entry => entry.1 == "exc_info").map Prod.snd
  let rest := events.filter fun entry => entry.1 != "exc_info"
  match figureOutExcInfo handled (excInfo.getD (.leaf .none)) with
  | some raised => EventDict.assign "exception" raised.render rest
  | none => rest

/-- The processors from the first one that takes something out of an event. Those before it add
keys that do not depend on the exception. -/
def sharedProcessors (handled : Option PyException) : List Processor :=
  [dropNoiseKeys, redactSensitive python, coerceContext python, dictTracebacks handled]

/-- What comes out for an event that is logged with an exception, whatever is being handled. -/
def loggedWhile (handled : Option PyException) (events : EventDict LogObject)
    (raised : PyException) : EventDict LogObject :=
  (sharedProcessors python handled).foldl (fun current processor => processor current)
    (("exc_info", raised.excInfo) :: events)

/-- What comes out for an event that is logged with an exception while that is being handled. -/
def logged (events : EventDict LogObject) (raised : PyException) : EventDict LogObject :=
  (sharedProcessors python (some raised)).foldl (fun current processor => processor current)
    (("exc_info", raised.excInfo) :: events)

end Processors

/-! ### What is rendered -/

section Logged

variable {python : Interpreter LogObject} {raised other : PyException}

/-- Redaction leaves no tuple in `exc_info`, so a traceback of the exception being handled is
rendered. -/
theorem figureOutExcInfo_redacted (handled : Option PyException) (key : String) :
    figureOutExcInfo handled (redactValue python key raised.excInfo) = handled := by
  cases hidden : isSecretName python key with
  | true =>
    rw [redactValue_of_secret hidden]
    rfl
  | false =>
    rw [redactValue_eq_masked hidden]
    rfl

/-- What comes out but for the traceback. It does not depend on the exception. -/
def withoutTraceback (python : Interpreter LogObject) (events : EventDict LogObject) :
    EventDict LogObject :=
  (coerceContext python ((dropNoiseKeys events).map
    (redactEntry python (isDebug (levelOf (dropNoiseKeys events)))))).filter
      fun entry => entry.1 != "exc_info"

theorem redactSensitive_excInfo (value : Value LogObject) (events : EventDict LogObject) :
    redactSensitive python (("exc_info", value) :: events) =
      ("exc_info", redactValue python "exc_info" value) ::
        events.map (redactEntry python (isDebug (levelOf events))) := rfl

/-- The event with the traceback of an exception, if there is one. -/
def withTraceback : Option PyException → Processor
  | some raised => EventDict.assign "exception" raised.render
  | none => id

theorem dictTracebacks_excInfo (handled : Option PyException) (value : Value LogObject)
    (events : EventDict LogObject) :
    dictTracebacks handled (("exc_info", value) :: events) =
      withTraceback (figureOutExcInfo handled value)
        (events.filter fun entry => entry.1 != "exc_info") := by
  have head : dictTracebacks handled (("exc_info", value) :: events) =
      match figureOutExcInfo handled value with
      | some raised => EventDict.assign "exception" raised.render
          (events.filter fun entry => entry.1 != "exc_info")
      | none => events.filter fun entry => entry.1 != "exc_info" := rfl
  rw [head]
  cases figureOutExcInfo handled value <;> rfl

/-- The traceback of the exception being handled is added to what comes out without it, whatever
exception is attached. -/
theorem loggedWhile_eq (python : Interpreter LogObject) (handled : Option PyException)
    (events : EventDict LogObject) (raised : PyException) :
    loggedWhile python handled events raised =
      withTraceback handled (withoutTraceback python events) := by
  have dropped : dropNoiseKeys (("exc_info", raised.excInfo) :: events) =
      ("exc_info", raised.excInfo) :: dropNoiseKeys events := rfl
  have coerces : ∀ (value : Value LogObject) (rest : EventDict LogObject),
      coerceContext python (("exc_info", value) :: rest) =
        ("exc_info", value) :: coerceContext python rest := fun _ _ => rfl
  simp only [loggedWhile, sharedProcessors, List.foldl_cons, List.foldl_nil, dropped,
    redactSensitive_excInfo, coerces, dictTracebacks_excInfo, figureOutExcInfo_redacted]
  rfl

/-- The traceback of the exception is added to what comes out without it. -/
theorem logged_eq (python : Interpreter LogObject) (events : EventDict LogObject)
    (raised : PyException) :
    logged python events raised =
      EventDict.assign "exception" raised.render (withoutTraceback python events) :=
  loggedWhile_eq python (some raised) events raised

/-- What is assigned can be read off. -/
theorem assign_injective {key : String} {first second : Value LogObject}
    {events : EventDict LogObject}
    (same : EventDict.assign key first events = EventDict.assign key second events) :
    first = second := by
  unfold EventDict.assign at same
  split at same
  · rename_i present
    obtain ⟨entry, member, own⟩ := List.any_eq_true.mp present
    have images := List.map_inj_left.mp same entry member
    rw [if_pos (eq_of_beq own), if_pos (eq_of_beq own)] at images
    exact congrArg Prod.snd images
  · have last := List.append_cancel_left same
    exact congrArg Prod.snd (List.cons.inj last).1

/-- A rendered frame has all of the frame in it. -/
theorem Frame.render_injective {first second : Frame} (same : first.render = second.render) :
    first = second := by
  obtain ⟨filename, lineno, name, locals⟩ := first
  obtain ⟨filename', lineno', name', locals'⟩ := second
  simp only [Frame.render, KeyedTree.dict.injEq, List.cons.injEq, Prod.mk.injEq,
    KeyedTree.leaf.injEq, Scalar.str.injEq, Scalar.int.injEq, Nat.cast_inj, true_and,
    and_true] at same
  obtain ⟨rfl, rfl, rfl, slots⟩ := same
  have injective : Function.Injective fun slot : String × String =>
      (slot.1, (.leaf (.str slot.2) : Value LogObject)) := by
    rintro ⟨_, _⟩ ⟨_, _⟩ equal
    cases equal
    rfl
  rw [List.map_injective_iff.mpr injective slots]

/-- A rendered exception has all of the exception in it. -/
theorem render_injective (same : raised.render = other.render) : raised = other := by
  obtain ⟨typeName, text, frames⟩ := raised
  obtain ⟨typeName', text', frames'⟩ := other
  simp only [PyException.render, KeyedTree.list.injEq, List.cons.injEq, KeyedTree.dict.injEq,
    Prod.mk.injEq, KeyedTree.leaf.injEq, Scalar.str.injEq, true_and, and_true] at same
  obtain ⟨rfl, rfl, rendered⟩ := same
  rw [List.map_injective_iff.mpr (fun _ _ => Frame.render_injective) rendered]

/-! ### Which exception is rendered -/

/-- What is assigned is under its key. -/
theorem EventDict.get?_assign (key : String) (value : Value LogObject)
    (events : EventDict LogObject) : EventDict.get? key (EventDict.assign key value events) =
      some value := by
  rw [EventDict.assign]
  split
  · rename_i present
    have keys : ∀ entry : String × Value LogObject,
        (if entry.1 = key then (key, value) else entry).1 = entry.1 := by
      intro entry
      split
      · rename_i same
        exact same.symm
      · rfl
    obtain ⟨first, found⟩ := Option.isSome_iff_exists.mp
      (List.find?_isSome.mpr (List.any_eq_true.mp present))
    have matched := List.find?_some found
    rw [EventDict.get?, KeyedTree.find?_key_map keys, found, Option.map_some, Option.map_some,
      if_pos (eq_of_beq matched)]
  · rename_i absent
    have none : (events.find? fun entry => entry.1 == key) = Option.none := by
      rw [List.find?_eq_none]
      exact fun entry member own => absent (List.any_eq_true.mpr ⟨entry, member, own⟩)
    rw [EventDict.get?, List.find?_append, none, Option.none_or, List.find?_singleton,
      if_pos (beq_self_eq_true key), Option.map_some]

/-- A change that keeps all keys and leaves one key alone does not change what is under it. -/
theorem EventDict.get?_map {key : String}
    {change : String × Value LogObject → String × Value LogObject}
    (keys : ∀ entry, (change entry).1 = entry.1)
    (alone : ∀ value, change (key, value) = (key, value))
    (events : EventDict LogObject) :
    EventDict.get? key (events.map change) = EventDict.get? key events := by
  rw [EventDict.get?, EventDict.get?, KeyedTree.find?_key_map keys, Option.map_map]
  refine Option.map_congr fun entry found => ?_
  have matched := List.find?_some found
  obtain rfl : entry.1 = key := eq_of_beq matched
  exact congrArg Prod.snd (alone entry.2)

/-- Dropping other keys does not change what is under a key. -/
theorem EventDict.get?_filter {key : String} (keep : String → Bool) (kept : keep key = true)
    (events : EventDict LogObject) :
    EventDict.get? key (events.filter fun entry => keep entry.1) = EventDict.get? key events := by
  rw [EventDict.get?, EventDict.get?, KeyedTree.find?_key_filter keep kept]

theorem redactEntry_exception (debug : Bool) (value : Value LogObject) :
    redactEntry python debug ("exception", value) = ("exception", value) := by
  have plain : "exception" ≠ "context" := by decide
  have own : "exception" ∈ reservedKeys := by decide
  rw [redactEntry, if_neg plain, if_pos own]

theorem coerceContext_exception (events : EventDict LogObject) :
    EventDict.get? "exception" (coerceContext python events) =
      EventDict.get? "exception" events := by
  refine EventDict.get?_map (fun entry => ?_) (fun _ => rfl) events
  obtain ⟨key, value⟩ := entry
  split
  · rename_i same
    cases same
    rfl
  · rfl

/-- The tuple becomes a list, or a mask. -/
theorem redactValue_excInfo_ne (key : String) :
    redactValue python key raised.excInfo ≠ raised.excInfo := by
  intro same
  cases hidden : isSecretName python key with
  | true =>
    rw [redactValue_of_secret hidden] at same
    cases same
  | false =>
    rw [redactValue_eq_masked hidden] at same
    cases same

/-- What the event has under the exception key stays there, unless a traceback replaces it. -/
theorem withoutTraceback_exception (python : Interpreter LogObject)
    (events : EventDict LogObject) :
    EventDict.get? "exception" (withoutTraceback python events) =
      EventDict.get? "exception" events := by
  rw [withoutTraceback, EventDict.get?_filter (fun key => key != "exc_info") (by decide),
    coerceContext_exception, EventDict.get?_map (redactEntry_key _) (redactEntry_exception _),
    dropNoiseKeys, EventDict.get?_filter (fun key => !noiseKeys.contains key) (by decide)]

/-- A record with an exception attached has that exception under the exception key just when it is
the one being handled, or when none is and the record has it there already. And redaction never
hands the attached tuple on unchanged. -/
theorem exceptionRecords_render_attached_iff (python : Interpreter LogObject)
    (handled : Option PyException) (events : EventDict LogObject) (raised : PyException) :
    (EventDict.get? "exception" (loggedWhile python handled events raised) = some raised.render ↔
      handled = some raised ∨
        handled = none ∧ EventDict.get? "exception" events = some raised.render) ∧
    EventDict.get? "exc_info" (redactSensitive python (("exc_info", raised.excInfo) :: events)) ≠
      some raised.excInfo := by
  constructor
  · rw [loggedWhile_eq]
    cases handled with
    | none =>
      rw [withTraceback, id_eq, withoutTraceback_exception]
      simp
    | some current =>
      rw [withTraceback, EventDict.get?_assign]
      simp only [Option.some.injEq, reduceCtorEq, false_and, or_false]
      exact ⟨render_injective, congrArg _⟩
  · rw [redactSensitive_excInfo, EventDict.get?, List.find?_cons_of_pos (by rfl), Option.map_some]
    exact fun same => redactValue_excInfo_ne "exc_info" (Option.some.inj same)

/-! ### Exceptions that differ in credentials -/

/-- The variables have one name. If that is not secret, they have one value. -/
structure AlikeVariable (python : Interpreter LogObject) (first second : String × String) :
    Prop where
  name : first.1 = second.1
  value : isSecretName python first.1 = true ∨ first.2 = second.2

/-- The frames differ only in variables with secret names. -/
structure AlikeFrame (python : Interpreter LogObject) (first second : Frame) : Prop where
  filename : first.filename = second.filename
  lineno : first.lineno = second.lineno
  name : first.name = second.name
  locals : List.Forall₂ (AlikeVariable python) first.locals second.locals

/-- The exceptions differ only in variables with secret names. -/
structure AlikeException (python : Interpreter LogObject) (raised other : PyException) :
    Prop where
  typeName : raised.typeName = other.typeName
  text : raised.text = other.text
  frames : List.Forall₂ (AlikeFrame python) raised.frames other.frames

/-- No frame has a variable with a secret name. -/
def Discreet (python : Interpreter LogObject) (raised : PyException) : Prop :=
  ∀ frame ∈ raised.frames, ∀ slot ∈ frame.locals, isSecretName python slot.1 = false

/-- Without such variables frames cannot differ. -/
theorem AlikeFrame.eq_of_discreet {first second : Frame} (alike : AlikeFrame python first second)
    (shown : ∀ slot ∈ first.locals, isSecretName python slot.1 = false) : second = first := by
  have locals := alike.locals.eq_of_pairs fun slot listed other same =>
    (Prod.ext same.name (same.value.resolve_left (ne_true_of_eq_false (shown slot listed)))).symm
  obtain ⟨filename, lineno, name, _⟩ := first
  obtain ⟨filename', lineno', name', _⟩ := second
  obtain ⟨rfl, rfl, rfl, _⟩ := alike
  rw [Frame.mk.injEq]
  exact ⟨rfl, rfl, rfl, locals⟩

theorem AlikeException.eq_of_discreet (alike : AlikeException python raised other)
    (discreet : Discreet python raised) : other = raised := by
  have frames := alike.frames.eq_of_pairs fun frame member _ same =>
    same.eq_of_discreet (discreet frame member)
  obtain ⟨typeName, text, _⟩ := raised
  obtain ⟨typeName', text', _⟩ := other
  obtain ⟨rfl, rfl, _⟩ := alike
  rw [PyException.mk.injEq]
  exact ⟨rfl, rfl, frames⟩

/-- A variable with another value, if its name is secret. -/
def varied (python : Interpreter LogObject) (slot : String × String) : String × String :=
  if isSecretName python slot.1 then (slot.1, slot.2 ++ "?") else slot

/-- The exception with other values of all variables with secret names. -/
def PyException.varied (python : Interpreter LogObject) (raised : PyException) : PyException where
  typeName := raised.typeName
  text := raised.text
  frames := raised.frames.map fun frame =>
    { frame with locals := frame.locals.map (Trutina.varied python) }

theorem PyException.varied_alike (python : Interpreter LogObject) (raised : PyException) :
    AlikeException python raised (raised.varied python) where
  typeName := rfl
  text := rfl
  frames := by
    refine List.forall₂_map_right_iff.mpr (List.forall₂_same.mpr fun frame _ => ?_)
    refine ⟨rfl, rfl, rfl, List.forall₂_map_right_iff.mpr (List.forall₂_same.mpr fun slot _ => ?_)⟩
    rw [Trutina.varied]
    split
    · rename_i hidden
      exact ⟨rfl, .inl hidden⟩
    · exact ⟨rfl, .inr rfl⟩

theorem PyException.discreet_of_varied (same : raised.frames = (raised.varied python).frames) :
    Discreet python raised := by
  intro frame member slot listed
  have frames : raised.frames.map id = (raised.varied python).frames := by
    rw [List.map_id]
    exact same
  have locals := congrArg Frame.locals (List.map_inj_left.mp frames frame member)
  have slots : frame.locals.map id = frame.locals.map (Trutina.varied python) := by
    rw [List.map_id]
    exact locals
  have value := congrArg Prod.snd (List.map_inj_left.mp slots slot listed)
  cases hidden : isSecretName python slot.1 with
  | false => rfl
  | true =>
    rw [Trutina.varied, if_pos hidden] at value
    have lengths := congrArg String.length value
    simp at lengths

/-- An event that is logged with an exception comes out the same for all exceptions that differ
only in variables with secret names, just when no frame of the exception has such a variable. -/
theorem exceptionRecords_hide_secrets_iff (python : Interpreter LogObject)
    (events : EventDict LogObject) (raised : PyException) :
    (∀ other, AlikeException python raised other →
      logged python events raised = logged python events other) ↔ Discreet python raised := by
  constructor
  · intro hides
    have same := hides _ (raised.varied_alike python)
    rw [logged_eq, logged_eq] at same
    exact PyException.discreet_of_varied
      (congrArg PyException.frames (render_injective (assign_injective same)))
  · intro discreet other alike
    rw [alike.eq_of_discreet discreet]

end Logged

/-- The texts and type names of the objects in a log event. -/
def plainLogPython : Interpreter LogObject where
  lower text := text.map Char.toLower
  quote text := "'" ++ text ++ "'"
  str _ := "object"
  repr _ := "object"
  typeName _ := "object"

/-- A storage failure while an outdated password hash is replaced. -/
def rehashFailure (passwordHash : String) : PyException where
  typeName := "TimeoutError"
  text := ""
  frames := [⟨"repository.py", 98, "update_password_hash",
    [("user_id", "UUID(int=7)"), ("password_hash", passwordHash)]⟩]

/-- The error that such a failure is turned into, while the command line handles it. -/
def storageError : PyException where
  typeName := "AppError"
  text := ""
  frames := [⟨"storage.py", 41, "translate", [("exc", "TimeoutError()")]⟩]

/-- A command that failed is logged with the failure attached and the error being handled. What is
rendered is the error, and without one being handled nothing is. -/
theorem exceptionRecords_render_another :
    EventDict.get? "exception" (loggedWhile plainLogPython (some storageError)
        [("event", .leaf (.str "command.failed"))] (rehashFailure "'hash'")) =
      some storageError.render ∧
    storageError.render ≠ (rehashFailure "'hash'").render ∧
    EventDict.get? "exception" (loggedWhile plainLogPython none
      [("event", .leaf (.str "command.failed"))] (rehashFailure "'hash'")) = none := by
  refine ⟨?_, fun same => absurd (render_injective same) (by decide), ?_⟩
  · rw [loggedWhile_eq, withTraceback, EventDict.get?_assign]
  · rw [loggedWhile_eq, withTraceback, id_eq, withoutTraceback_exception]
    rfl

/-- Two failures that differ in the password hash alone are logged differently. -/
theorem exceptionRecords_show_passwordHash :
    AlikeException plainLogPython (rehashFailure "'first'") (rehashFailure "'second'") ∧
      logged plainLogPython [("event", .leaf (.str "request.failed"))] (rehashFailure "'first'") ≠
        logged plainLogPython [("event", .leaf (.str "request.failed"))]
          (rehashFailure "'second'") := by
  have secret : isSecretName plainLogPython "password_hash" = true := by decide +kernel
  constructor
  · refine ⟨rfl, rfl, .cons ⟨rfl, rfl, rfl, ?_⟩ .nil⟩
    exact .cons ⟨rfl, .inr rfl⟩ (.cons ⟨rfl, .inl secret⟩ .nil)
  · intro same
    rw [logged_eq, logged_eq] at same
    exact absurd (render_injective (assign_injective same)) (by decide)

end Trutina
