/-
This file follows a request of the API through everything around its route. The
handlers of the error contract run inside the middleware that binds the id of
the request, and their answers get its header there. The handler for any other
exception runs outside, after the id has been unbound, and puts the header on
its answer itself. The framework answers its own exceptions inside, in a form of
its own and without a line. However a route ends, one response is sent with one
header that carries the id, and the line about a failure and the record that the
request is completed both have the status that was sent.
-/

import Trutina.Handlers
import Trutina.Routes

namespace Trutina

open Interaction

/-! ### Answers -/

/-- The body of an answer: the envelope of a success with its data, or of a failure, or the detail
that the framework gives. -/
inductive AnswerContent where
  | success (timestamp : Timestamp) (data : ResponseData)
  | failure (body : ErrorBody)
  | detail (text : String)
  deriving DecidableEq, Repr

structure HttpAnswer where
  statusCode : Nat
  content : AnswerContent
  headers : Option (List (String × String)) := none
  deriving DecidableEq, Repr

def ErrorAnswer.answer (answer : ErrorAnswer) : HttpAnswer where
  statusCode := answer.statusCode
  content := .failure answer.content
  headers := answer.headers

/-- What a route returns. -/
structure RouteAnswer where
  statusCode : Nat
  timestamp : Timestamp
  data : ResponseData
  deriving DecidableEq, Repr

def RouteAnswer.answer (answer : RouteAnswer) : HttpAnswer where
  statusCode := answer.statusCode
  content := .success answer.timestamp answer.data

/-- What a route is over with: its answer, or what leaves it. -/
abbrev RouteEnding := Except RouteFailure RouteAnswer

/-- The answer of a route that returns, or the exception. -/
def Route.ending (route : Route) (now : Timestamp) : Except Raised ResponseData → RouteEnding
  | .ok data => .ok ⟨route.statusCode, now, data⟩
  | .error raised => .error (.raised (.service raised))

def encodeLatin1 (text : String) : Bytes :=
  text.toList.map fun character => UInt8.ofNat character.toNat

/-- The headers of an answer as they are sent. Names are in lower case. -/
def HttpAnswer.rawHeaders (answer : HttpAnswer) : List (Bytes × Bytes) :=
  (answer.headers.getD []).map fun header =>
    (encodeLatin1 header.1.toLower, encodeLatin1 header.2)

/-! ### The framework -/

/-- What the API relies on the framework for. It sends an answer as one message that starts the
response, with the headers of the answer and others about its body, and one with the body. It runs
the handlers that are not for every exception around the routes, inside the middleware, and there it
answers the exceptions of its own that no handler is registered for, which it raises when no route
matches or a body cannot be read. It runs the handler for every exception around everything, and it
raises again what only that one handles. -/
structure Framework where
  send : HttpAnswer → List Message
  sends : ∀ answer, ∃ more body,
    send answer = [.responseStart answer.statusCode (some (answer.rawHeaders ++ more)),
      .other "http.response.body" body] ∧ ∀ header ∈ more, header.1 ≠ headerName
  inside : (RouteFailure → Option (Except Failure ErrorAnswer)) → RouteEnding → Behaviour
  inside_returned : ∀ handle answer, inside handle (.ok answer) = ⟨send answer.answer, .returned⟩
  inside_handled : ∀ handle failure answer, handle failure = some (.ok answer) →
    inside handle (.error failure) = ⟨send answer.answer, .returned⟩
  inside_failed : ∀ handle failure other, handle failure = some (.error other) →
    inside handle (.error failure) = ⟨[], .raised other⟩
  own : Failure → Option HttpAnswer
  own_plain : ∀ failure answer, own failure = some answer →
    ∀ header ∈ answer.rawHeaders, header.1 ≠ headerName
  own_service : ∀ error, own (.service error) = none
  inside_own : ∀ handle failure answer, handle (.raised failure) = none →
    own failure = some answer → inside handle (.error (.raised failure)) = ⟨send answer, .returned⟩
  inside_passed : ∀ handle failure, handle (.raised failure) = none → own failure = none →
    inside handle (.error (.raised failure)) = ⟨[], .raised failure⟩
  outside : (Failure → Except Failure ErrorAnswer) → Ending × Process → Ending × Process
  outside_returned : ∀ handle process, outside handle (.returned, process) = (.returned, process)
  outside_raised : ∀ handle failure answer process, handle failure = .ok answer →
    (∀ message ∈ process.sent, message.status? = none) →
    outside handle (.raised failure, process) =
      (.raised failure, { process with sent := process.sent ++ send answer.answer })

/-- The answer of the framework itself to what leaves a route. -/
def Framework.ownAnswer (framework : Framework) : RouteFailure → Option HttpAnswer
  | .raised failure => framework.own failure
  | .invalidRequest _ => none

/-! ### One request -/

/-- What the handlers read of a scope. -/
def Scope.apiRequest (scope : Scope) : ApiRequest where
  path := scope.path.getD ""
  correlationId := scope.state.bind ScopeState.correlationId

/-- How a request ends, what is sent and logged, and the lines about failures. -/
structure Served where
  ending : Ending
  process : Process
  lines : List FailureLine

section Serve

variable (framework : Framework) (render : Input → String) (now : Timestamp)
  (fresh : BitVec 128) (durationMs : String) (scope : Scope) (route : RouteEnding)

/-- The scope as the middleware has changed it, which the handler outside reads too. -/
def boundScope : Scope :=
  scope.withId (scopeId fresh (incomingId (scope.headers.getD []))).text

/-- The handlers inside the middleware, and the routes. -/
def routedApp : App := fun scope _ =>
  framework.inside
    (fun failure => (handleInside render scope.apiRequest now failure).map Prod.snd) route

/-- The lines of the handler inside, if there is one for what leaves the route. -/
def insideLines : RouteEnding → List FailureLine
  | .ok _ => []
  | .error failure =>
    ((handleInside render (boundScope fresh scope).apiRequest now failure).map Prod.fst).getD []

/-- The lines of the handler outside, if something comes to it. -/
def outsideLines : Ending → List FailureLine
  | .returned => []
  | .raised failure => (handleOutside render (boundScope fresh scope).apiRequest now failure).1

def serve (process : Process) : Served :=
  let (ending, after) := CorrelationIdMiddleware.call (routedApp framework render now route)
    fresh durationMs scope process
  let (final, sent) := framework.outside
    (fun failure => (handleOutside render (boundScope fresh scope).apiRequest now failure).2)
    (ending, after)
  { ending := final
    process := sent
    lines := insideLines render now fresh scope route ++
      outsideLines render now fresh scope ending }

/-! ### One response with one id -/

/-- The id of the request. -/
def requestId : Latin1Text := scopeId fresh (incomingId (scope.headers.getD []))

end Serve

/-- One response is sent, with the status, and with one header that reads as the id. One record has
the status too, the id that was bound before is bound again, and every line has the id. -/
structure Served.RespondsWith (served : Served) (scope : Scope) (durationMs : String)
    (before : Process) (id : String) (status : Nat) : Prop where
  sent : ∃ headers bytes body,
    served.process.sent =
        [.responseStart status (some headers), .other "http.response.body" body] ∧
      headers.filter (fun header => header.1 = headerName) = [(headerName, bytes)] ∧
      decodeLatin1 bytes = id
  record : served.process.records = before.records ++
    [⟨"request.completed", scope.method, scope.path, status, durationMs⟩]
  restored : served.process.bound = before.bound
  correlated : ∀ line ∈ served.lines, line.correlationId = some id

/-- The id is never empty. -/
theorem scopeId_ne_empty (fresh : BitVec 128) (given : Option String) :
    (scopeId fresh given).text ≠ "" := by
  have generated : newCorrelationId fresh ≠ "" := by
    intro empty
    have valid := isValidCorrelationId_iff.mpr (.inl (newCorrelationId_inGrammar fresh))
    rw [empty] at valid
    exact absurd valid (by decide)
  unfold scopeId
  split
  · split
    · rename_i valid
      exact valid.1
    · exact generated
  · exact generated

section Responses

variable {framework : Framework} {render : Input → String} {now : Timestamp} {fresh : BitVec 128}
  {durationMs : String} {scope : Scope} {route : RouteEnding} {bound : Option String}
  {records : List CompletedRecord}

/-- The header with the id is the only one of its name. -/
theorem filter_headerName {before after : List (Bytes × Bytes)} {bytes : Bytes}
    (others : ∀ header ∈ before, header.1 ≠ headerName)
    (more : ∀ header ∈ after, header.1 ≠ headerName) :
    (before ++ (headerName, bytes) :: after).filter (fun header => header.1 = headerName) =
      [(headerName, bytes)] := by
  have none : ∀ {headers : List (Bytes × Bytes)}, (∀ header ∈ headers, header.1 ≠ headerName) →
      headers.filter (fun header => header.1 = headerName) = [] := fun apart =>
    List.filter_eq_nil_iff.mpr fun header member same =>
      apart header member (of_decide_eq_true same)
  have own : decide ((headerName, bytes).1 = headerName) = true := decide_eq_true rfl
  rw [List.filter_append, none others, List.filter_cons, none more, if_pos own]
  rfl

/-- What the inner app does in a request. -/
def insideBehaviour (framework : Framework) (render : Input → String) (now : Timestamp)
    (fresh : BitVec 128) (scope : Scope) (route : RouteEnding) : Behaviour :=
  framework.inside
    (fun failure =>
      (handleInside render (boundScope fresh scope).apiRequest now failure).map Prod.snd) route

/-- A request that is answered inside the middleware. -/
theorem serve_of_returned (http : scope.type = "http") {answer : HttpAnswer}
    (returned : insideBehaviour framework render now fresh scope route =
      ⟨framework.send answer, .returned⟩)
    (plain : ∀ header ∈ answer.rawHeaders, header.1 ≠ headerName)
    (correlated : ∀ line ∈ insideLines render now fresh scope route,
      line.correlationId = some (requestId fresh scope).text) :
    let served := serve framework render now fresh durationMs scope route ⟨bound, [], records⟩
    served.RespondsWith scope durationMs ⟨bound, [], records⟩ (requestId fresh scope).text
        answer.statusCode ∧
      served.lines = insideLines render now fresh scope route := by
  obtain ⟨more, body, sent, apart⟩ := framework.sends answer
  have behaves : behaviourOf (routedApp framework render now route) fresh scope =
      ⟨framework.send answer, .returned⟩ := returned
  have whole : serve framework render now fresh durationMs scope route ⟨bound, [], records⟩ =
      ⟨.returned, ⟨bound, (framework.send answer).map (Message.echoing (requestId fresh scope)),
        records ++ [completedRecord scope (lastStatus (framework.send answer)) durationMs]⟩,
        insideLines render now fresh scope route ++ []⟩ := by
    rw [serve, call_eq _ _ _ http, behaves]
    simp only [contextManagerExit, framework.outside_returned, outsideLines, List.nil_append,
      requestId]
  intro served
  have same : served = _ := whole
  rw [sent] at same
  rw [same]
  refine ⟨⟨⟨_, _, body, rfl, ?_, Latin1Text.decode_encode _⟩, rfl, rfl, ?_⟩, List.append_nil _⟩
  · rw [Option.getD_some]
    refine filter_headerName (fun header member => ?_) (List.forall_mem_nil _)
    exact (List.mem_append.mp member).elim (plain header) (apart header)
  · intro line member
    exact correlated line (List.mem_append.mp member |>.resolve_right List.not_mem_nil)

/-- The header that the handler outside puts on its answer is the header of the middleware. -/
theorem unexpectedAnswer_rawHeaders (now : Timestamp) (id : Latin1Text) :
    (unexpectedAnswer now id.text).answer.rawHeaders = [(headerName, id.encode)] := by
  have lower : encodeLatin1 requestIdHeader.toLower = headerName := by decide +kernel
  show [(encodeLatin1 requestIdHeader.toLower, encodeLatin1 id.text)] = _
  rw [lower]
  rfl

/-- An exception that passes the middleware is an exception, if perhaps another one. -/
theorem contextManagerExit_raised (failure : Failure) :
    ∃ other, contextManagerExit (.raised failure) = .raised other := by
  rw [contextManagerExit]
  split
  · exact ⟨_, rfl⟩
  · exact ⟨_, rfl⟩

/-- A request that is answered outside the middleware. -/
theorem serve_of_raised (http : scope.type = "http") {failure : Failure}
    (raised : insideBehaviour framework render now fresh scope route = ⟨[], .raised failure⟩)
    (correlated : ∀ line ∈ insideLines render now fresh scope route,
      line.correlationId = some (requestId fresh scope).text) :
    let served := serve framework render now fresh durationMs scope route ⟨bound, [], records⟩
    served.RespondsWith scope durationMs ⟨bound, [], records⟩ (requestId fresh scope).text 500 ∧
      ∃ line, served.lines = insideLines render now fresh scope route ++ [line] ∧
        line.httpStatus = 500 ∧ line.errorCode = (unexpectedResponse now).errorCode := by
  have behaves : behaviourOf (routedApp framework render now route) fresh scope =
      ⟨[], .raised failure⟩ := raised
  obtain ⟨passed, passes⟩ := contextManagerExit_raised failure
  obtain ⟨line, handled, lineOf⟩ := handleUnexpectedError_eq (scope.path.getD "")
    (scopeId_ne_empty fresh (incomingId (scope.headers.getD []))) now
  have handles : handleOutside render (boundScope fresh scope).apiRequest now passed =
      ([line], .ok (unexpectedAnswer now (requestId fresh scope).text)) := handled
  obtain ⟨more, body, sent, apart⟩ :=
    framework.sends (unexpectedAnswer now (requestId fresh scope).text).answer
  rw [unexpectedAnswer_rawHeaders] at sent
  have answers := framework.outside_raised
    (fun failure => (handleOutside render (boundScope fresh scope).apiRequest now failure).2)
    passed _ ⟨bound, [], records ++ [completedRecord scope none durationMs]⟩
    (congrArg Prod.snd handles) nofun
  have whole : serve framework render now fresh durationMs scope route ⟨bound, [], records⟩ =
      ⟨.raised passed,
        ⟨bound, framework.send (unexpectedAnswer now (requestId fresh scope).text).answer,
          records ++ [completedRecord scope none durationMs]⟩,
        insideLines render now fresh scope route ++ [line]⟩ := by
    have called : CorrelationIdMiddleware.call (routedApp framework render now route) fresh
        durationMs scope ⟨bound, [], records⟩ =
          (.raised passed, ⟨bound, [], records ++ [completedRecord scope none durationMs]⟩) := by
      rw [call_eq _ _ _ http, behaves, passes]
      rfl
    rw [serve, called]
    simp only [answers, outsideLines, handles, List.nil_append]
  intro served
  have same : served = _ := whole
  rw [sent] at same
  rw [same]
  refine ⟨⟨⟨_, _, body, rfl, ?_, Latin1Text.decode_encode _⟩, rfl, rfl, ?_⟩, line, rfl,
    lineOf.status, lineOf.code⟩
  · have first : ∀ header ∈ ([] : List (Bytes × Bytes)), header.1 ≠ headerName := nofun
    exact filter_headerName first apart
  · intro other member
    rcases List.mem_append.mp member with inside | last
    · exact correlated other inside
    · rw [List.mem_singleton.mp last]
      exact lineOf.correlated

/-- A delay is not an id. -/
theorem retryAfter_plain {answer : ErrorAnswer}
    (only : ∀ header ∈ answer.headers.getD [], header.1 = "Retry-After") :
    ∀ header ∈ answer.answer.rawHeaders, header.1 ≠ headerName := by
  have apart : encodeLatin1 "Retry-After".toLower ≠ headerName := by decide +kernel
  intro header member
  obtain ⟨given, listed, rfl⟩ := List.mem_map.mp member
  show encodeLatin1 given.1.toLower ≠ headerName
  rw [only given listed]
  exact apart

/-- The lines of the handler inside are those of what it comes to. -/
theorem insideLines_of_handled {failure : RouteFailure}
    {handled : Option (List FailureLine × Except Failure ErrorAnswer)}
    (outcome : handleInside render (boundScope fresh scope).apiRequest now failure = handled) :
    insideLines render now fresh scope (.error failure) = (handled.map Prod.fst).getD [] := by
  rw [insideLines, outcome]

/-- An exception of the framework is answered by it, without a line. -/
theorem own_answered (http : scope.type = "http") {failure : RouteFailure} {answer : HttpAnswer}
    (unexpected : failure.Unexpected) (own : framework.ownAnswer failure = some answer) :
    let served := serve framework render now fresh durationMs scope (.error failure)
      ⟨bound, [], records⟩
    served.RespondsWith scope durationMs ⟨bound, [], records⟩ (requestId fresh scope).text
        answer.statusCode ∧
      served.lines = [] := by
  obtain ⟨exception, rfl⟩ := unexpected.raised
  have passed : handleInside render (boundScope fresh scope).apiRequest now (.raised exception) =
      none := handleInside_eq_none unexpected
  have lines : insideLines render now fresh scope (.error (.raised exception)) = [] :=
    insideLines_of_handled passed
  have returned : insideBehaviour framework render now fresh scope (.error (.raised exception)) =
      ⟨framework.send answer, .returned⟩ :=
    framework.inside_own _ _ _ (by rw [passed]; rfl) own
  obtain ⟨responds, all⟩ := serve_of_returned http returned (framework.own_plain _ _ own)
    (lines ▸ List.forall_mem_nil _)
  exact ⟨responds, all.trans lines⟩

/-- A failure is refused, by the handler inside or else by the one outside. -/
theorem failure_answered (http : scope.type = "http") {failure : RouteFailure}
    (foreign : failure.Unexpected → framework.ownAnswer failure = none) :
    let served := serve framework render now fresh durationMs scope (.error failure)
      ⟨bound, [], records⟩
    ∃ status, served.RespondsWith scope durationMs ⟨bound, [], records⟩
        (requestId fresh scope).text status ∧
      400 ≤ status ∧ (failure.Unexpected → status = 500) ∧
      (served.lines.length = 1 ↔ ¬failure.TooLong) ∧
      ∃ line, served.lines.getLast? = some line ∧ line.httpStatus = status := by
  intro served
  rcases handleInside_cases render (boundScope fresh scope).apiRequest now failure with
    ⟨unexpected, passed⟩ | ⟨long, line, other, failed, correlated⟩ |
    ⟨expected, short, line, answer, handled, lineOf, only⟩
  · obtain ⟨exception, rfl⟩ := unexpected.raised
    have lines : insideLines render now fresh scope (.error (.raised exception)) = [] :=
      insideLines_of_handled passed
    have raised : insideBehaviour framework render now fresh scope
        (.error (.raised exception)) = ⟨[], .raised exception⟩ :=
      framework.inside_passed _ _ (by rw [passed]; rfl) (foreign unexpected)
    obtain ⟨responds, line, all, status, _⟩ :=
      serve_of_raised http raised (lines ▸ List.forall_mem_nil _)
    rw [lines, List.nil_append] at all
    have lasts : served.lines = [line] := all
    refine ⟨_, responds, by decide, fun _ => rfl, ?_, line, congrArg List.getLast? lasts, status⟩
    exact iff_of_true (congrArg List.length lasts) unexpected.not_tooLong
  · have lines : insideLines render now fresh scope (.error failure) = [line] :=
      insideLines_of_handled failed
    have raised : insideBehaviour framework render now fresh scope (.error failure) =
        ⟨[], .raised other⟩ :=
      framework.inside_failed _ _ _ (by rw [failed]; rfl)
    obtain ⟨responds, last, all, status, _⟩ := serve_of_raised http raised
      (lines ▸ List.forall_mem_singleton.mpr correlated)
    rw [lines] at all
    have both : served.lines = [line, last] := all
    refine ⟨_, responds, by decide, fun _ => rfl, ?_, last, congrArg List.getLast? both, status⟩
    rw [both]
    exact iff_of_false (show ¬2 = 1 by decide) (not_not_intro long)
  · have lines : insideLines render now fresh scope (.error failure) = [line] :=
      insideLines_of_handled handled
    have returned : insideBehaviour framework render now fresh scope (.error failure) =
        ⟨framework.send answer.answer, .returned⟩ :=
      framework.inside_handled _ _ _ (by rw [handled]; rfl)
    obtain ⟨responds, all⟩ := serve_of_returned http returned (retryAfter_plain only)
      (lines ▸ List.forall_mem_singleton.mpr lineOf.correlated)
    rw [lines] at all
    have one : served.lines = [line] := all
    refine ⟨_, responds, lineOf.refused, fun unexpected => absurd unexpected expected, ?_,
      line, congrArg List.getLast? one, lineOf.status⟩
    exact iff_of_true (congrArg List.length one) short

/-- However a route ends, one response is sent, with one header that carries the id of the request.
A success has no lines, and neither has an exception that the framework answers itself. Any other
failure has one line, with the status that is sent, but two if its delay is too long. -/
theorem request_answered (framework : Framework) (render : Input → String) (now : Timestamp)
    (fresh : BitVec 128) (durationMs : String) (scope : Scope) (http : scope.type = "http")
    (route : RouteEnding) (bound : Option String) (records : List CompletedRecord) :
    let served := serve framework render now fresh durationMs scope route ⟨bound, [], records⟩
    ∃ status, served.RespondsWith scope durationMs ⟨bound, [], records⟩
        (requestId fresh scope).text status ∧
      (∀ answer, route = .ok answer → status = answer.statusCode ∧ served.lines = []) ∧
      (∀ failure answer, route = .error failure → failure.Unexpected →
        framework.ownAnswer failure = some answer →
          status = answer.statusCode ∧ served.lines = []) ∧
      ∀ failure, route = .error failure →
        (failure.Unexpected → framework.ownAnswer failure = none) →
        400 ≤ status ∧ (failure.Unexpected → status = 500) ∧
          (served.lines.length = 1 ↔ ¬failure.TooLong) ∧
          ∃ line, served.lines.getLast? = some line ∧ line.httpStatus = status := by
  intro served
  cases route with
  | ok answer =>
    have returned : insideBehaviour framework render now fresh scope (.ok answer) =
        ⟨framework.send answer.answer, .returned⟩ := framework.inside_returned _ _
    obtain ⟨responds, lines⟩ := serve_of_returned http returned nofun nofun
    refine ⟨_, responds, fun given same => ?_, fun _ _ same => ?_, fun _ same => ?_⟩
    · obtain rfl := Except.ok.inj same
      exact ⟨rfl, lines⟩
    · cases same
    · cases same
  | error failure =>
    by_cases foreign : failure.Unexpected → framework.ownAnswer failure = none
    · obtain ⟨status, responds, refused⟩ := failure_answered http foreign
      refine ⟨status, responds, nofun,
        fun given answer same unexpected own => ?_, fun given same _ => ?_⟩
      · obtain rfl := Except.error.inj same
        exact absurd (own.symm.trans (foreign unexpected)) (Option.some_ne_none answer)
      · obtain rfl := Except.error.inj same
        exact refused
    · obtain ⟨unexpected, some'⟩ := Classical.not_imp.mp foreign
      obtain ⟨answer, own⟩ := Option.ne_none_iff_exists'.mp some'
      obtain ⟨responds, lines⟩ := own_answered http unexpected own
      refine ⟨_, responds, nofun, fun given other same _ own' => ?_,
        fun given same none => ?_⟩
      · obtain rfl := Except.error.inj same
        obtain rfl := Option.some.inj (own.symm.trans own')
        exact ⟨rfl, lines⟩
      · obtain rfl := Except.error.inj same
        exact absurd none foreign

end Responses

/-- An answer whose body is sent without its contents. -/
def plainSend (answer : HttpAnswer) : List Message :=
  [.responseStart answer.statusCode (some (answer.rawHeaders ++ [])),
    .other "http.response.body" []]

/-- The answer where no route matches. -/
def plainOwn : Failure → Option HttpAnswer
  | .other "HTTPException" text _ => some ⟨404, .detail text, none⟩
  | _ => none

theorem plainOwn_plain (failure : Failure) (answer : HttpAnswer)
    (own : plainOwn failure = some answer) :
    ∀ header ∈ answer.rawHeaders, header.1 ≠ headerName := by
  unfold plainOwn at own
  split at own
  · obtain rfl := Option.some.inj own
    exact List.forall_mem_nil _
  · cases own

/-- A framework that sends bodies without their contents. -/
def plainFramework : Framework where
  send := plainSend
  sends := fun _ => ⟨[], [], rfl, nofun⟩
  own := plainOwn
  own_plain := plainOwn_plain
  own_service := fun _ => rfl
  inside handle
    | .ok answer => ⟨plainSend answer.answer, .returned⟩
    | .error failure =>
      match handle failure, failure with
      | some (.ok answer), _ => ⟨plainSend answer.answer, .returned⟩
      | some (.error other), _ => ⟨[], .raised other⟩
      | none, .raised failure =>
        match plainOwn failure with
        | some answer => ⟨plainSend answer, .returned⟩
        | none => ⟨[], .raised failure⟩
      | none, .invalidRequest _ => ⟨[], .returned⟩
  inside_returned := fun _ _ => rfl
  inside_handled := fun handle failure answer handled => by
    simp only [handled]
  inside_failed := fun handle failure other failed => by
    simp only [failed]
  inside_own := fun handle failure answer passed own => by
    simp only [passed, own]
  inside_passed := fun handle failure passed foreign => by
    simp only [passed, foreign]
  outside handle
    | (.returned, process) => (.returned, process)
    | (.raised failure, process) =>
      match handle failure with
      | .ok answer =>
        (.raised failure, { process with sent := process.sent ++ plainSend answer.answer })
      | .error _ => (.raised failure, process)
  outside_returned := fun _ _ => rfl
  outside_raised := fun handle failure answer process handled _ => by
    simp only [handled]

/-- A request whose route finds no database, and one that no route matches. -/
theorem request_answered_of_unavailable :
    let route : RouteEnding := .error (.raised (.service AppError.storageUnavailable))
    let lost : RouteEnding := .error (.raised (.other "HTTPException" "Not Found" false))
    let serves := fun route => serve plainFramework (fun _ => "") 0 0 "1.5" (accountsScope []) route
      ⟨none, [], []⟩
    (∃ status, (serves route).RespondsWith (accountsScope []) "1.5" ⟨none, [], []⟩
        (requestId 0 (accountsScope [])).text status ∧
      400 ≤ status ∧ ∃ line, (serves route).lines.getLast? = some line ∧
        line.httpStatus = status) ∧
    (serves lost).RespondsWith (accountsScope []) "1.5" ⟨none, [], []⟩
      (requestId 0 (accountsScope [])).text 404 ∧ (serves lost).lines = [] := by
  intro route lost serves
  obtain ⟨status, responds, _, _, fails⟩ := request_answered plainFramework (fun _ => "") 0 0 "1.5"
    (accountsScope []) rfl route none []
  obtain ⟨refused, _, _, line⟩ := fails _ rfl fun _ => plainFramework.own_service _
  obtain ⟨_, answered, _, owns, _⟩ := request_answered plainFramework (fun _ => "") 0 0 "1.5"
    (accountsScope []) rfl lost none []
  obtain ⟨rfl, lines⟩ := owns _ ⟨404, .detail "Not Found", none⟩ rfl rfl rfl
  exact ⟨⟨status, responds, refused, line⟩, answered, lines⟩

/-! ### Requests in a run -/

section Runs

variable {Thread : Type} [DecidableEq Thread] {routes : Thread → Route} {start : World}
  {permits : List (Move Thread Command Env World) →
    Pool Thread Command Reply Raised ResponseData World → Move Thread Command Env World → Prop}
  {trace : List (Move Thread Command Env World)}
  {pool : Pool Thread Command Reply Raised ResponseData World}

/-- In every run of requests, with any order of their steps, any failures and any requests given
up: the one response to a request that is over has a status below 400 just when the route has
returned, which is then the status of the route and tells of what the call of the route has
achieved; and with any other status nothing has been committed. -/
theorem requests_accounted
    (walks : Walks handle permits ⟨start, fun thread => (routes thread).program⟩ trace pool)
    {thread : Thread} {outcome : Except Raised ResponseData}
    (ended : pool.threads thread = .done outcome) (framework : Framework)
    (render : Input → String) (now : Timestamp) (fresh : BitVec 128) (durationMs : String)
    (scope : Scope) (http : scope.type = "http") (bound : Option String)
    (records : List CompletedRecord) :
    ∃ status,
      (serve framework render now fresh durationMs scope ((routes thread).ending now outcome)
        ⟨bound, [], records⟩).RespondsWith scope durationMs ⟨bound, [], records⟩
          (requestId fresh scope).text status ∧
      (status < 400 → status = (routes thread).statusCode ∧
        ∃ data call response, outcome = .ok data ∧ (routes thread).Calls call ∧
          call.Achieves (stepsOf thread trace) response (deedsOf thread trace) ∧
          (routes thread).Presents response data) ∧
      (400 ≤ status → (∃ error, outcome = .error error) ∧
        (deedsOf thread trace).committed = []) := by
  obtain ⟨status, responds, succeeds, _, fails⟩ := request_answered framework render now fresh
    durationMs scope http ((routes thread).ending now outcome) bound records
  obtain ⟨call, conforms⟩ := route_settles (routes thread) (stepsOf thread trace)
  have settled := walks.conforms (call.ledgerOfDeeds _) _ .none thread conforms
    (told_stepsOf thread)
  rw [ended] at settled
  have promised : (routes thread).Settled (stepsOf thread trace) (deedsOf thread trace) outcome :=
    settled.promised
  cases outcome with
  | error error =>
    have refused := (fails _ rfl fun _ => framework.own_service error).1
    exact ⟨status, responds, fun low => absurd refused (not_le.mpr low),
      fun _ => ⟨⟨error, rfl⟩, promised⟩⟩
  | ok data =>
    have own : status = (routes thread).statusCode := (succeeds _ rfl).1
    have low := (routes thread).statusCode_lt
    obtain ⟨made, response, calls, achieves, presents⟩ := promised
    exact ⟨status, responds,
      fun _ => ⟨own, data, made, response, rfl, calls, achieves, presents⟩,
      fun high => absurd low (not_lt.mpr (own ▸ high))⟩

end Runs

theorem sameCode_length : 1 ≤ "1000".length ∧ "1000".length ≤ 20 := by decide

theorem cashName_length : 2 ≤ "Cash".length ∧ "Cash".length ≤ 150 := by decide

theorem bankName_length : 2 ≤ "Bank".length ∧ "Bank".length ≤ 150 := by decide

/-- Two creations of one account. -/
def sameAccount : Nat → Route
  | 0 => .createAccount ⟨"1000", "Cash", .asset, sameCode_length, cashName_length⟩
  | 1 => .createAccount ⟨"1000", "Bank", .asset, sameCode_length, bankName_length⟩
  | _ => .listAccounts

def sameAccountPool : Pool Nat Command Reply Raised ResponseData World :=
  Pool.execute handle sameCodeSchedule
    ⟨World.empty, fun thread => (sameAccount thread).program⟩

/-- The second creation is refused, and has committed nothing. -/
theorem requests_accounted_of_sameAccount :
    ∃ (trace : List (Move Nat Command Env World)) (outcome : Except Raised ResponseData)
      (status : Nat),
      Walks handle (fun _ _ _ => True) ⟨World.empty, fun thread => (sameAccount thread).program⟩
        trace sameAccountPool ∧
      sameAccountPool.threads 1 = .done outcome ∧
      (serve plainFramework (fun _ => "") 0 0 "1.5" (accountsScope [])
        ((sameAccount 1).ending 0 outcome) ⟨none, [], []⟩).RespondsWith (accountsScope []) "1.5"
          ⟨none, [], []⟩ (requestId 0 (accountsScope [])).text status ∧
      400 ≤ status ∧ (deedsOf 1 trace).committed = [] := by
  have walks : Walks handle (fun _ _ _ => True)
      ⟨World.empty, fun thread => (sameAccount thread).program⟩ _ sameAccountPool :=
    Walks.refl.execute sameCodeSchedule (by decide +kernel)
  obtain ⟨error | data, ended⟩ := Program.ended_iff.mp
    (by decide +kernel : (sameAccountPool.threads 1).ended = true)
  · obtain ⟨status, responds, low, high⟩ := requests_accounted walks ended plainFramework
      (fun _ => "") 0 0 "1.5" (accountsScope []) rfl none []
    have refused : 400 ≤ status := by
      by_contra accepted
      obtain ⟨_, _, _, _, same, _⟩ := low (not_le.mp accepted)
      cases same
    exact ⟨_, _, status, walks, ended, responds, refused, (high refused).2⟩
  · have failed : (sameAccountPool.threads 1).succeeded = false := by decide +kernel
    rw [ended] at failed
    cases failed

end Trutina
