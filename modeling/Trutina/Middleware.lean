/-
This file models the middleware that binds a correlation id for one request. It
runs the inner app with the id in its scope and its context, puts the id into
the headers of every response that starts, and logs one record when the app is
done. It leaves its own scope through a context manager, which assigns to what
was raised, so an exception that does not take assignments is replaced by
another. All other endings are passed on.
-/

import Trutina.Correlation
import Trutina.Errors

namespace Trutina

/-! ### Apps -/

/-- An exception: one that services raise, any other, or that of an assignment to a frozen one. -/
inductive Failure where
  | service (error : Raised)
  | other (typeName text : String) (frozen : Bool)
  | frozenInstanceError (field : String)
  deriving DecidableEq, Repr

/-- Whether the class of the exception is a frozen dataclass. -/
def Failure.isFrozen : Failure → Bool
  | .service (.appError _ _) => true
  | .service (.validationAppError _ _) => true
  | .service _ => false
  | .other _ _ frozen => frozen
  | .frozenInstanceError _ => false

inductive Ending where
  | returned
  | raised (failure : Failure)
  deriving DecidableEq, Repr

/-- What an app sends. -/
inductive Message where
  | responseStart (status : Int) (headers : Option (List (Bytes × Bytes)))
  | other (type : String) (body : Bytes)
  deriving DecidableEq, Repr

structure ScopeState where
  correlationId : Option String

structure Scope where
  type : String
  method : Option String
  path : Option String
  headers : Option (List (Bytes × Bytes))
  state : Option ScopeState

/-- What one run of an app does. -/
structure Behaviour where
  messages : List Message
  ending : Ending

/-- An app is given its scope and finds an id bound, or none. -/
abbrev App := Scope → Option String → Behaviour

/-- The record that a request is completed. Of the duration only its text matters. -/
structure CompletedRecord where
  event : String
  method : Option String
  path : Option String
  status : Int
  durationMs : String
  deriving DecidableEq, Repr

/-- The bound id, what was sent and what was logged. -/
structure Process where
  bound : Option String
  sent : List Message
  records : List CompletedRecord

/-! ### The middleware -/

/-- How a generator's context manager passes an exception on: it assigns its traceback. -/
def contextManagerExit : Ending → Ending
  | .returned => .returned
  | .raised failure =>
    if failure.isFrozen then .raised (.frozenInstanceError "__traceback__") else .raised failure

/-- Bind an id while the body runs. -/
def correlationScope (fresh : BitVec 128) (given : Option String)
    (body : Latin1Text → Process → Ending × Process) (process : Process) : Ending × Process :=
  let cid := scopeId fresh given
  let token := process.bound
  let (ending, after) := body cid { process with bound := some cid.text }
  (contextManagerExit ending, { after with bound := token })

/-- The last status that was sent, and everything that was. -/
structure Sending where
  status : Option Int
  sent : List Message

def sendWrapper (cid : Latin1Text) (sending : Sending) : Message → Sending
  | .responseStart status headers =>
    let headers := headers.getD [] ++ [(headerName, cid.encode)]
    ⟨some status, sending.sent ++ [.responseStart status (some headers)]⟩
  | message => ⟨sending.status, sending.sent ++ [message]⟩

def Scope.withId (scope : Scope) (id : String) : Scope :=
  { scope with state := some { scope.state.getD ⟨none⟩ with correlationId := some id } }

def completedRecord (scope : Scope) (status : Option Int) (durationMs : String) :
    CompletedRecord :=
  ⟨"request.completed", scope.method, scope.path, status.getD 500, durationMs⟩

/-- Run the app with an id, and log that the request is completed, however it ends. -/
def runInner (app : App) (durationMs : String) (scope : Scope) (cid : Latin1Text)
    (process : Process) : Ending × Process :=
  let behaviour := app (scope.withId cid.text) process.bound
  let sending := behaviour.messages.foldl (sendWrapper cid) ⟨none, process.sent⟩
  (behaviour.ending,
    { process with
      sent := sending.sent
      records := process.records ++ [completedRecord scope sending.status durationMs] })

def CorrelationIdMiddleware.call (app : App) (fresh : BitVec 128) (durationMs : String)
    (scope : Scope) (process : Process) : Ending × Process :=
  if scope.type ≠ "http" then
    let behaviour := app scope process.bound
    (behaviour.ending, { process with sent := process.sent ++ behaviour.messages })
  else
    correlationScope fresh (incomingId (scope.headers.getD [])) (runInner app durationMs scope)
      process

/-! ### What is sent -/

/-- A message with the id in a last header, if it starts a response. -/
def Message.echoing (cid : Latin1Text) : Message → Message
  | .responseStart status headers =>
    .responseStart status (some (headers.getD [] ++ [(headerName, cid.encode)]))
  | message => message

/-- The status of a message, if it starts a response. -/
def Message.status? : Message → Option Int
  | .responseStart status _ => some status
  | .other _ _ => none

/-- The status of the last response that starts. -/
def lastStatus (messages : List Message) : Option Int :=
  (messages.filterMap Message.status?).getLast?

theorem sendWrapper_eq (cid : Latin1Text) (sending : Sending) (message : Message) :
    sendWrapper cid sending message =
      ⟨message.status?.or sending.status, sending.sent ++ [message.echoing cid]⟩ := by
  cases message <;> rfl

/-- All messages are sent, and the last status is kept. -/
theorem foldl_sendWrapper (cid : Latin1Text) (messages : List Message) (sending : Sending) :
    messages.foldl (sendWrapper cid) sending =
      ⟨(lastStatus messages).or sending.status,
        sending.sent ++ messages.map (Message.echoing cid)⟩ := by
  induction messages generalizing sending with
  | nil => simp [lastStatus]
  | cons message rest inductionHypothesis =>
    rw [List.foldl_cons, inductionHypothesis, sendWrapper_eq, List.map_cons, List.append_assoc,
      List.singleton_append, lastStatus, lastStatus, List.filterMap_cons]
    cases message.status? with
    | none => rfl
    | some status =>
      simp only [List.getLast?_cons, Option.some_or]
      cases (rest.filterMap Message.status?).getLast? <;> rfl

/-- What the app does in a request. -/
def behaviourOf (app : App) (fresh : BitVec 128) (scope : Scope) : Behaviour :=
  let cid := scopeId fresh (incomingId (scope.headers.getD []))
  app (scope.withId cid.text) (some cid.text)

/-- A request sends what the app sends, logs one record and restores the bound id. How the app ends
goes through the context manager. -/
theorem call_eq (app : App) (fresh : BitVec 128) (durationMs : String) {scope : Scope}
    (http : scope.type = "http") (process : Process) :
    CorrelationIdMiddleware.call app fresh durationMs scope process =
      (contextManagerExit (behaviourOf app fresh scope).ending,
        ⟨process.bound,
          process.sent ++ (behaviourOf app fresh scope).messages.map
            (Message.echoing (scopeId fresh (incomingId (scope.headers.getD [])))),
          process.records ++ [completedRecord scope
            (lastStatus (behaviourOf app fresh scope).messages) durationMs]⟩) := by
  rw [CorrelationIdMiddleware.call, if_neg (not_not_intro http), correlationScope]
  simp only [runInner, foldl_sendWrapper, Option.or_none]
  rfl

/-! ### One safe id -/

/-- The second message is the first, with a last header that reads as the id if it starts a
response. -/
inductive Echoes (id : String) : Message → Message → Prop where
  | responseStart (status : Int) (headers : Option (List (Bytes × Bytes))) {bytes : Bytes}
      (reads : decodeLatin1 bytes = id) :
      Echoes id (.responseStart status headers)
        (.responseStart status (some (headers.getD [] ++ [(headerName, bytes)])))
  | other (type : String) (body : Bytes) : Echoes id (.other type body) (.other type body)

/-- Every app runs with the id bound and in its scope, and its responses carry it. -/
def RunsWith (fresh : BitVec 128) (scope : Scope) (id : String) : Prop :=
  ∀ (app : App) (durationMs : String) (process : Process),
    ∃ sent, (CorrelationIdMiddleware.call app fresh durationMs scope process).2.sent =
        process.sent ++ sent ∧
      List.Forall₂ (Echoes id) (app (scope.withId id) (some id)).messages sent

theorem Message.echoing_echoes (cid : Latin1Text) (message : Message) :
    Echoes cid.text message (message.echoing cid) := by
  cases message with
  | responseStart status headers => exact .responseStart status headers cid.decode_encode
  | other type body => exact .other type body

/-- It is the id of the scope that every app runs with, and no other. -/
theorem runsWith_iff {fresh : BitVec 128} {scope : Scope} (http : scope.type = "http")
    {id : String} :
    RunsWith fresh scope id ↔
      (scopeId fresh (incomingId (scope.headers.getD []))).text = id := by
  constructor
  · intro runs
    -- An app that sends the id it finds bound tells which it is.
    obtain ⟨sent, same, echoes⟩ := runs (fun _ bound => ⟨[.other (bound.getD "") []], .returned⟩)
      "" ⟨none, [], []⟩
    rw [call_eq _ _ _ http] at same
    obtain rfl : [.other (scopeId fresh (incomingId (scope.headers.getD []))).text []] = sent :=
      same
    obtain ⟨first, _⟩ := List.forall₂_cons.mp echoes
    generalize (scopeId fresh (incomingId (scope.headers.getD []))).text = bound at first
    cases first
    rfl
  · rintro rfl app durationMs process
    rw [call_eq _ _ _ http]
    refine ⟨_, rfl, List.forall₂_map_right_iff.mpr (List.forall₂_same.mpr fun message _ => ?_)⟩
    exact Message.echoing_echoes _ message

/-- One id is bound, in the scope and in the headers, and it is safe, unless the first value of the
header is of the grammar and a newline. -/
theorem request_safeId_iff (fresh : BitVec 128) (scope : Scope) (http : scope.type = "http") :
    (∃ id, RunsWith fresh scope id ∧ SafeId (scope.headers.getD []) id) ↔
      ¬∃ id, InGrammar id ∧ firstRequestId (scope.headers.getD []) = some (id ++ "\n") := by
  simp only [runsWith_iff http, exists_eq_left']
  exact scopeId_safe_iff fresh _

/-- A request for the accounts, with a value of the header. -/
def accountsScope (value : Bytes) : Scope :=
  ⟨"http", some "GET", some "/accounts", some [([0], [1]), (headerName, value)], none⟩

/-- An id that a client gives is the id of its request. -/
theorem request_safeId_of_req1 :
    ∃ id, RunsWith 0 (accountsScope [114, 101, 113, 45, 49]) id ∧
      SafeId ((accountsScope [114, 101, 113, 45, 49]).headers.getD []) id := by
  refine (request_safeId_iff 0 (accountsScope [114, 101, 113, 45, 49]) rfl).mpr ?_
  rintro ⟨id, _, same⟩
  have texts : "req-1" = id ++ "\n" := Option.some.inj same
  have last := congrArg (fun text => text.toList.getLast?) texts
  simp [String.toList_append] at last

/-- An id and a newline are taken over as they are. -/
theorem request_unsafeId_of_newline :
    RunsWith 0 (accountsScope [97, 98, 99, 10]) "abc\n" ∧
      ¬SafeId ((accountsScope [97, 98, 99, 10]).headers.getD []) "abc\n" := by
  have valid : isValidCorrelationId "abc\n" = true := by decide
  exact ⟨(runsWith_iff rfl).mpr (scopeId_of_valid valid 0),
    fun safe => not_inGrammar_newline "abc" safe.grammar⟩

/-! ### How a request ends -/

/-- The exception raised does not take assignments. -/
def Ending.RaisesFrozen (ending : Ending) : Prop :=
  ∃ failure, ending = .raised failure ∧ failure.isFrozen = true

theorem contextManagerExit_eq_iff (ending : Ending) :
    contextManagerExit ending = ending ↔ ¬ending.RaisesFrozen := by
  cases ending with
  | returned =>
    refine iff_of_true rfl ?_
    rintro ⟨failure, ⟨⟩, _⟩
  | raised failure =>
    rw [contextManagerExit]
    cases frozen : failure.isFrozen with
    | true =>
      rw [if_pos rfl]
      refine iff_of_false ?_ (not_not_intro ⟨failure, rfl, frozen⟩)
      rintro ⟨⟩
      cases frozen
    | false =>
      rw [if_neg Bool.false_ne_true]
      refine iff_of_true rfl ?_
      rintro ⟨_, ⟨⟩, raised⟩
      rw [frozen] at raised
      cases raised

/-- One record with the last status, the bound id as before, and an ending that is the app's. -/
structure Transparent (behaviour : Behaviour) (scope : Scope) (durationMs : String)
    (before : Process) (ending : Ending) (after : Process) : Prop where
  record : after.records = before.records ++
    [⟨"request.completed", scope.method, scope.path, (lastStatus behaviour.messages).getD 500,
      durationMs⟩]
  restored : after.bound = before.bound
  ending : ending = behaviour.ending

/-- The middleware passes on whatever the app does, with one record and the bound id restored, just
when the app does not raise an exception that is a frozen dataclass. -/
theorem request_transparent_iff (app : App) (fresh : BitVec 128) (durationMs : String)
    (scope : Scope) (http : scope.type = "http") (process : Process) :
    Transparent (behaviourOf app fresh scope) scope durationMs process
        (CorrelationIdMiddleware.call app fresh durationMs scope process).1
        (CorrelationIdMiddleware.call app fresh durationMs scope process).2 ↔
      ¬(behaviourOf app fresh scope).ending.RaisesFrozen := by
  rw [call_eq app fresh durationMs http, ← contextManagerExit_eq_iff]
  exact ⟨fun transparent => transparent.ending, fun same => ⟨rfl, rfl, same⟩⟩

/-- An app that starts two responses and then fails. -/
def failingApp (failure : Failure) : App := fun _ _ =>
  ⟨[.responseStart 200 none, .responseStart 404 none, .other "http.response.body" []],
    .raised failure⟩

/-- A timeout is passed on, and the status is the last one. -/
theorem request_transparent_of_timeout :
    Transparent (behaviourOf (failingApp (.other "TimeoutError" "" false)) 0 (accountsScope []))
        (accountsScope []) "1.5" ⟨some "outer", [], []⟩
        (CorrelationIdMiddleware.call (failingApp (.other "TimeoutError" "" false)) 0 "1.5"
          (accountsScope []) ⟨some "outer", [], []⟩).1
        (CorrelationIdMiddleware.call (failingApp (.other "TimeoutError" "" false)) 0 "1.5"
          (accountsScope []) ⟨some "outer", [], []⟩).2 ∧
      lastStatus (behaviourOf (failingApp (.other "TimeoutError" "" false)) 0
        (accountsScope [])).messages = some 404 := by
  refine ⟨(request_transparent_iff (failingApp (.other "TimeoutError" "" false)) 0 "1.5"
    (accountsScope []) rfl ⟨some "outer", [], []⟩).mpr ?_, rfl⟩
  rintro ⟨failure, ⟨⟩, frozen⟩
  cases frozen

/-- A storage failure that services raise becomes an error about an assignment. -/
theorem request_replaces_appError :
    (CorrelationIdMiddleware.call (failingApp (.service (.appError .storageTimeout []))) 0 "1.5"
        (accountsScope []) ⟨some "outer", [], []⟩).1 =
      .raised (.frozenInstanceError "__traceback__") := by
  rw [call_eq _ _ _ rfl]
  rfl

end Trutina
