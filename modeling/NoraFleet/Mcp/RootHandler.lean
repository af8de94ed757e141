import Mathlib
import NoraFleet.Base.Dumps
import NoraFleet.Base.Flow
import NoraFleet.Base.Layers

/-!
# The endpoint for MCP

A request is parsed and checked, then the methods that set up a session are handled,
then the protocol version and the session are checked, and then the other methods are
dispatched. Every way through ends with a document and one call of `do_finish`, unless
the body cannot be read for another reason than that it is no JSON.

* `run_parse_of_request` and its siblings — the ways in which parsing ends;
* `run_guarded` — what a processor that raises ends in;
* `answeredOnce_iff` — which requests are answered once.
-/

namespace NoraFleet.Mcp

open Base Flow
open Base.Json (Members)

/-! ## Documents -/

/-- `McpError`: the code and the text of each. -/
inductive McpError where
  | parseError
  | invalidRequest
  | noMethod
  | serverError
  | invalidSession
  | invalidProtocolVersion

namespace McpError

/-- `num_value`. -/
def numValue : McpError → ℤ
  | .parseError => -32700
  | .invalidRequest => -32600
  | .noMethod => -32601
  | .serverError => -32000
  | .invalidSession => -33000
  | .invalidProtocolVersion => -33001

/-- `str_label`. -/
def strLabel : McpError → PyStr
  | .parseError => str "Parse error"
  | .invalidRequest => str "Invalid Request"
  | .noMethod => str "Method not found"
  | .serverError => str "Server error"
  | .invalidSession => str "Invalid Session"
  | .invalidProtocolVersion => str "Invalid Protocol Version"

end McpError

/-- `html.escape(text)`. -/
def htmlEscape (text : PyStr) : PyStr :=
  text.flatMap fun c =>
    if c = 38 then str "&amp;"
    else if c = 60 then str "&lt;"
    else if c = 62 then str "&gt;"
    else if c = 34 then str "&quot;"
    else if c = 39 then str "&#x27;"
    else [c]

/-- The ids that requests have. -/
inductive RequestId where
  | text (id : PyStr)
  | int (id : ℤ)
  | float (id : ℚ)

/-- `safe_request_id(request_id)`. An integer that was read is not too long to be
written. -/
def RequestId.safe : RequestId → PyStr
  | .text id => htmlEscape id
  | .int id => numeralText (id < 0) (digitsOf id.natAbs) [] none
  | .float id => reprFloat id

/-- A document of JSON-RPC: a result of a processor, or an error. -/
inductive Document where
  | result (result : Json)
  | error (id : PyStr) (code : ℤ) (message : PyStr)

/-- The document has an error object. -/
def Document.hasError : Document → Bool
  | .result _ => false
  | .error _ _ _ => true

/-- `get_protocol_error(request_id, error, extra_msg)`. -/
def getProtocolError (id : RequestId) (error : McpError) (extraMsg : Option PyStr) : Document :=
  .error id.safe error.numValue (htmlEscape (match extraMsg with
    | none => error.strLabel
    | some extraMsg => error.strLabel ++ str ": " ++ extraMsg))

/-! ## Requests -/

/-- A request of JSON-RPC. -/
structure RpcRequest where
  id : RequestId
  method : PyStr
  params : Option Members

/-- The id of a request, if it is a text or an integer. A request without one is absent. -/
def requestIdOf : Option Json → Option RequestId
  | none => some (.text (str "absent"))
  | some (.str id) => some (.text id)
  | some (.int id) => some (.int id)
  | some (.float (.fin q)) => if q.den = 1 then some (.float q) else none
  | _ => none

/-- The parameters of a request, if they are an object. -/
def paramsOf : Option Json → Option (Option Members)
  | none => some none
  | some (.obj members) => some (some members)
  | _ => none

/-- The request that a value is, if it conforms to the schema of requests and
notifications of JSON-RPC. -/
def requestOf : Json → Option RpcRequest
  | .obj members =>
      match Json.lookup members (str "jsonrpc"), Json.lookup members (str "method"),
        requestIdOf (Json.lookup members (str "id")),
        paramsOf (Json.lookup members (str "params")) with
      | some (.str version), some (.str method), some id, some params =>
          if version = str "2.0" then some ⟨id, method, params⟩ else none
      | _, _, _, _ => none
  | _ => none

/-- What a client posts. -/
structure HttpRequest where
  body : List UInt8
  sessionId : Option PyStr
  protocolVersion : Option PyStr

/-- What the handler of a request is given: the limits of JSON, the validators, the
server's version and sessions, what its processors do, which values a header can have,
and whether the client has gone when the response is finished. -/
structure McpContext where
  limit : Nat
  room : Nat
  validate : Json → List PyStr
  validateTool : Json → List PyStr
  protocolVersion : PyStr
  isSessionActive : Option PyStr → Bool
  initializeHandshake : RpcRequest → Except PyError (Json × Option PyStr)
  activateSession : Option PyStr → Except PyError Bool
  ping : Option PyStr → Except PyError Unit
  listTools : RpcRequest → Except PyError Json
  callTool : RpcRequest → Json → Members → Except PyError Json
  listResources : RpcRequest → Except PyError Json
  listPrompts : RpcRequest → Except PyError Json
  headerAccepts : PyStr → Bool
  clientClosed : Bool

/-- What the validator of requests finds nothing wrong with conforms. (The schema of the
repository does not grant it: it asks for a known method, but not for `jsonrpc`.) -/
def McpContext.Conforms (context : McpContext) : Prop :=
  ∀ data, context.validate data = [] → (requestOf data).isSome

/-- The validator of requests gives errors exactly for values that do not conform. -/
def McpContext.Validates (context : McpContext) : Prop :=
  ∀ data, context.validate data = [] ↔ (requestOf data).isSome

/-! ## The handler -/

/-- What a handler does that a client sees. -/
inductive McpEvent where
  | wrote (document : Document)
  | finished

/-- The status and the header with the session's id. -/
structure Response where
  status : Nat := 200
  sessionHeader : Option PyStr := none

/-- Pieces of a handler. -/
abbrev Posting := Flow McpEvent Response

namespace McpRootHandler

variable (context : McpContext) (http : HttpRequest)

/-- `set_status(status)`. -/
def setStatus (status : Nat) : Posting Unit := assign fun response => { response with status }

/-- `set_header(MCP_SESSION_ID, session_id)`. -/
def setHeader (sessionId : PyStr) : Posting Unit :=
  if context.headerAccepts sessionId then
    assign fun response => { response with sessionHeader := some sessionId }
  else raise .valueError

/-- `set_header(MCP_SESSION_ID, session_id)`, if there is one. -/
def setHeaderIfAny : Option PyStr → Posting Unit
  | none => pure ()
  | some sessionId => setHeader context sessionId

/-- `write(error_msg)`, with the status of the error. -/
def writeError (status : Nat) (id : RequestId) (error : McpError) (extraMsg : Option PyStr) :
    Posting Unit := do
  setStatus status
  emit (.wrote (getProtocolError id error extraMsg))

/-- How a result is encoded. -/
def encode (result : Json) : Except PyError PyStr :=
  match Json.dumps ⟨1, 1, none⟩ context.room result with
  | .ok text => .ok text
  | .error .valueError => .error .valueError
  | .error .recursionError => .error .recursionError

/-- `write(result_dict)`: encoding the result may raise. -/
def writeResult (result : Json) : Posting Unit := do
  let _ ← call (encode context result)
  emit (.wrote (.result result))

/-- `do_finish()`. -/
def doFinish : Posting Unit := do
  emit .finished
  tryExcept (perform (if context.clientClosed then some .streamClosedError else none)) fun e =>
    if e = .streamClosedError then pure () else raise e

/-- `json.loads(self.request.body)`, as it raises. -/
def loadBody : Except PyError Json :=
  match Json.loadsBytes context.limit http.body with
  | .ok data => .ok data
  | .error .jsonDecodeError => .error .jsonDecodeError
  | .error .valueError => .error .valueError
  | .error .recursionError => .error .recursionError

/-- `"; ".join(validation_errors)`. -/
def joinErrors (errors : List PyStr) : PyStr := List.intercalate (str "; ") errors

/-- What `post` does with a body that was read. -/
def validated (data : Json) : Posting (Option RpcRequest) :=
  if context.validate data = [] then
    match requestOf data with
    | some request => pure (some request)
    | none => raise .attributeError
  else do
    writeError 400 (.text (str "unknown")) .invalidRequest
      (some (joinErrors (context.validate data)))
    doFinish context
    pure none

/-- The first `try` block of `post`: the request, unless it was answered here. -/
def parse : Posting (Option RpcRequest) :=
  tryExcept
    (do
      let data ← call (loadBody context http)
      validated context data)
    fun e =>
      if e = .jsonDecodeError then do
        writeError 400 (.text (str "unknown")) .parseError (some (str "Invalid JSON format"))
        doFinish context
        pure none
      else raise e

/-- A block whose exceptions become error documents. -/
def guarded {α : Type} (request : RpcRequest) (body : Posting α) (answered : α) : Posting α :=
  tryExcept body fun e =>
    if e.isException then do
      writeError 500 request.id .serverError
        (some (str "exception during " ++ request.method ++ str " handling"))
      pure answered
    else raise e

/-- What follows the initialization: the result is written, and the header set. -/
def begin (result : Json) (sessionId : Option PyStr) : Posting (Option PyStr × Bool) := do
  setHeaderIfAny context sessionId
  setStatus 200
  writeResult context result
  pure (sessionId, true)

/-- The `try` block of `handle_handshake`: the id of a new session, and whether the
request was handled. -/
def handshake (request : RpcRequest) : Posting (Option PyStr × Bool) :=
  if request.method = str "initialize" then
    match request.params with
    | none => raise .otherException
    | some _ => do
        let created ← call (context.initializeHandshake request)
        begin context created.1 created.2
  else if request.method = str "notifications/initialized" then do
    let result ← call (context.activateSession http.sessionId)
    setHeaderIfAny context http.sessionId
    setStatus (if result then 202 else 404)
    pure (none, true)
  else if request.method = str "ping" then do
    let _ ← call (context.ping http.sessionId)
    setStatus 200
    pure (none, true)
  else pure (none, false)

/-- `handle_handshake(method, data, session_id, request_id, metadata)`. -/
def handleHandshake (request : RpcRequest) : Posting (Option PyStr × Bool) :=
  guarded request (handshake context http request) (none, true)

/-- A processor's result, written with its status. -/
def respond (outcome : Except PyError Json) : Posting Unit := do
  let result ← call outcome
  setStatus 200
  writeResult context result

/-- `call_params.get("arguments", \x7b\x7d)`, of the parameters of a request. -/
def callArgsOf (request : RpcRequest) : Json :=
  (Json.lookup (request.params.getD []) (str "arguments")).getD (.obj [])

/-- `call_params.get("name")`. -/
def toolNameOf (request : RpcRequest) : Json :=
  (Json.lookup (request.params.getD []) (str "name")).getD .null

/-- The branch for `tools/call`. -/
def callTool (request : RpcRequest) : Posting Unit :=
  if context.validateTool (callArgsOf request) = [] then
    match callArgsOf request with
    | .obj callArgs => respond context (context.callTool request (toolNameOf request) callArgs)
    | _ => raise .attributeError
  else writeError 400 request.id .invalidRequest none

/-- The `try` block of `post` around the other methods. -/
def dispatch (request : RpcRequest) : Posting Unit :=
  if request.method = str "tools/list" then respond context (context.listTools request)
  else if request.method = str "tools/call" then callTool context request
  else if request.method = str "resources/list" then respond context (context.listResources request)
  else if request.method = str "prompts/list" then respond context (context.listPrompts request)
  else writeError 400 request.id .noMethod
    (some (str "method " ++ request.method ++ str " not found"))

/-- The protocol version of the request, without blanks around it. -/
def requestedVersion : Option PyStr :=
  http.protocolVersion.map fun version => if version = [] then version else strip version

/-- What `post` does once a handshake was handled. -/
def endHandshake (newSessionId : Option PyStr) : Posting Unit := do
  setHeaderIfAny context (newSessionId.filter fun sessionId => !sessionId.isEmpty)
  doFinish context

/-- What `post` does with a request that sets up no session. -/
def serve (request : RpcRequest) : Posting Unit :=
  if requestedVersion http ≠ some context.protocolVersion then do
    writeError 400 request.id .invalidProtocolVersion
      (some (str "unsupported protocol version " ++ (requestedVersion http).getD (str "None")))
    doFinish context
  else if !context.isSessionActive http.sessionId then do
    writeError 401 request.id .invalidSession (some (str "invalid or inactive session id"))
    doFinish context
  else tryFinally (guarded request (dispatch context request) ()) (doFinish context)

/-- `post()`, once the request has been parsed. -/
def answer (request : RpcRequest) : Posting Unit := do
  let handled ← handleHandshake context http request
  if handled.2 then endHandshake context handled.1
  else serve context http request

/-- `post()`. -/
def post : Posting Unit := do
  let parsed ← parse context http
  match parsed with
  | none => pure ()
  | some request => answer context http request

/-! ## What the pieces do -/

theorem run_doFinish (response : Response) :
    (doFinish context).run response = ⟨[.finished], response, .ok ()⟩ := by
  unfold doFinish
  cases context.clientClosed with
  | true => rfl
  | false => rfl

theorem run_writeError (status : Nat) (id : RequestId) (error : McpError)
    (extraMsg : Option PyStr) (response : Response) :
    (writeError status id error extraMsg).run response =
      ⟨[.wrote (getProtocolError id error extraMsg)], { response with status }, .ok ()⟩ := rfl

/-- An error is written, and the response finished. -/
theorem run_writeError_doFinish {α : Type} (status : Nat) (id : RequestId) (error : McpError)
    (extraMsg : Option PyStr) (a : α) (response : Response) :
    (do writeError status id error extraMsg; doFinish context; pure a : Posting α).run response =
      ⟨[.wrote (getProtocolError id error extraMsg), .finished], { response with status },
        .ok a⟩ := by
  rw [run_bind_ok (run_writeError status id error extraMsg response),
    run_bind_ok (run_doFinish context _)]
  rfl

theorem run_writeError_finish (status : Nat) (id : RequestId) (error : McpError)
    (extraMsg : Option PyStr) (response : Response) :
    (do writeError status id error extraMsg; doFinish context : Posting Unit).run response =
      ⟨[.wrote (getProtocolError id error extraMsg), .finished], { response with status },
        .ok ()⟩ := by
  rw [run_bind_ok (run_writeError status id error extraMsg response), run_doFinish]
  rfl

variable {context http}

theorem run_parse_of_not_json (h : loadBody context http = .error .jsonDecodeError)
    (response : Response) :
    (parse context http).run response =
      ⟨[.wrote (getProtocolError (.text (str "unknown")) .parseError
        (some (str "Invalid JSON format"))), .finished], { response with status := 400 },
        .ok none⟩ := by
  unfold parse
  rw [h, run_tryExcept_of_error (run_bind_error rfl), if_pos rfl, run_writeError_doFinish]
  rfl

theorem run_parse_of_unreadable {e : PyError} (h : loadBody context http = .error e)
    (he : e ≠ .jsonDecodeError) (response : Response) :
    (parse context http).run response = ⟨[], response, .error e⟩ := by
  unfold parse
  rw [h, run_tryExcept_of_error (run_bind_error rfl), if_neg he]
  rfl

theorem run_parse_of_invalid {data : Json} (h : loadBody context http = .ok data)
    (hinvalid : context.validate data ≠ []) (response : Response) :
    (parse context http).run response =
      ⟨[.wrote (getProtocolError (.text (str "unknown")) .invalidRequest
        (some (joinErrors (context.validate data)))), .finished], { response with status := 400 },
        .ok none⟩ := by
  have hvalidated : (validated context data).run response =
      ⟨[.wrote (getProtocolError (.text (str "unknown")) .invalidRequest
        (some (joinErrors (context.validate data)))), .finished], { response with status := 400 },
        .ok none⟩ := by
    rw [validated, if_neg hinvalid, run_writeError_doFinish]
  unfold parse
  rw [h]
  apply run_tryExcept_of_ok
  rw [bind_of_ok rfl, hvalidated]

theorem run_parse_of_request {data : Json} {request : RpcRequest}
    (h : loadBody context http = .ok data) (hvalid : context.validate data = [])
    (hrequest : requestOf data = some request) (response : Response) :
    (parse context http).run response = ⟨[], response, .ok (some request)⟩ := by
  have hvalidated : (validated context data).run response =
      ⟨[], response, .ok (some request)⟩ := by
    rw [validated, if_pos hvalid]
    simp only [hrequest]
    rfl
  unfold parse
  rw [h]
  apply run_tryExcept_of_ok
  rw [bind_of_ok rfl, hvalidated]

section Guarded

variable {α : Type} {request : RpcRequest} {body : Posting α} {answered : α}
  {response response' : Response} {events : List McpEvent}

theorem run_guarded_of_ok {a : α} (h : body.run response = ⟨events, response', .ok a⟩) :
    (guarded request body answered).run response = ⟨events, response', .ok a⟩ :=
  run_tryExcept_of_ok h

/-- An exception becomes an error document. -/
theorem run_guarded_of_exception {e : PyError}
    (h : body.run response = ⟨events, response', .error e⟩) (he : e.isException = true) :
    ∃ id code message, (guarded request body answered).run response =
      ⟨events ++ [.wrote (.error id code message)], { response' with status := 500 },
        .ok answered⟩ := by
  unfold guarded
  rw [run_tryExcept_of_error h, if_pos he]
  exact ⟨_, _, _, rfl⟩

theorem run_guarded_of_escape {e : PyError}
    (h : body.run response = ⟨events, response', .error e⟩) (he : e.isException = false) :
    (guarded request body answered).run response = ⟨events, response', .error e⟩ := by
  unfold guarded
  rw [run_tryExcept_of_error h, he]
  show Ending.mk (events ++ []) response' (.error e) = _
  rw [List.append_nil]

/-- How a block ends that calls one processor: what the processor raises is raised before
anything is written, and so is what goes wrong with its result; or the block returns. -/
inductive Ends (raised : Option PyError) (P : List McpEvent → α → Prop) :
    Ending McpEvent Response α → Prop
  | raises {e response'} : raised = some e → Ends raised P ⟨[], response', .error e⟩
  | fails {e response'} : raised = none → e.isException = true →
      Ends raised P ⟨[], response', .error e⟩
  | returns {events response' a} : raised = none → P events a →
      Ends raised P ⟨events, response', .ok a⟩

/-- Of a block like that, one document is left of every exception. -/
theorem run_guarded {raised : Option PyError} {P : List McpEvent → α → Prop}
    (h : Ends raised P (body.run response))
    (hraised : ∀ e, raised = some e → e.isException = true) :
    ∃ events response' a, (guarded request body answered).run response =
        ⟨events, response', .ok a⟩ ∧
      (raised = none ∧ P events a ∨
        a = answered ∧ ∃ document, events = [.wrote document] ∧ document.hasError = true) := by
  generalize hended : body.run response = ended at h
  cases h with
  | @raises e response' hsome =>
      obtain ⟨id, code, message, hrun⟩ :=
        @run_guarded_of_exception _ request body answered _ _ _ _ hended (hraised e hsome)
      exact ⟨_, _, _, hrun, .inr ⟨rfl, _, rfl, rfl⟩⟩
  | @fails e response' hnone he =>
      obtain ⟨id, code, message, hrun⟩ :=
        @run_guarded_of_exception _ request body answered _ _ _ _ hended he
      exact ⟨_, _, _, hrun, .inr ⟨rfl, _, rfl, rfl⟩⟩
  | @returns events response' a hnone hP =>
      exact ⟨events, response', a, run_guarded_of_ok hended, .inl ⟨hnone, hP⟩⟩

end Guarded

/-- What a call raises. -/
def raisedBy {α : Type} : Except PyError α → Option PyError
  | .ok _ => none
  | .error e => some e

theorem isException_of_encode {result : Json} {e : PyError}
    (h : encode context result = .error e) : e.isException = true := by
  unfold encode at h
  split at h
  · cases h
  · cases h
    rfl
  · cases h
    rfl

/-- A result is written, or cannot be encoded. -/
theorem run_writeResult (result : Json) (response : Response) :
    (writeResult context result).run response = ⟨[.wrote (.result result)], response, .ok ()⟩ ∨
      ∃ e, (writeResult context result).run response = ⟨[], response, .error e⟩ ∧
        e.isException = true := by
  unfold writeResult
  cases hencode : encode context result with
  | error e => exact .inr ⟨e, rfl, isException_of_encode hencode⟩
  | ok text => exact .inl rfl

/-- The events are those of one document, which has an error if it has to. -/
def WroteOne (bad : Prop) (events : List McpEvent) : Prop :=
  ∃ document, events = [.wrote document] ∧ (bad → document.hasError = true)

theorem ends_respond (outcome : Except PyError Json) (response : Response) :
    Ends (raisedBy outcome) (fun events _ => WroteOne False events)
      ((respond context outcome).run response) := by
  unfold respond
  cases outcome with
  | error e => exact .raises rfl
  | ok result =>
      have hrun : ((do
          let result ← call (.ok result)
          setStatus 200
          writeResult context result : Posting Unit).run response) =
          (writeResult context result).run { response with status := 200 } := rfl
      rw [hrun]
      rcases run_writeResult result { response with status := 200 } with hwritten | ⟨e, hfailed, he⟩
      · rw [hwritten]
        exact .returns rfl ⟨_, rfl, False.elim⟩
      · rw [hfailed]
        exact .fails rfl he

variable (context http)

/-- What a tool call raises, if its arguments conform. -/
def toolError (request : RpcRequest) : Option PyError :=
  if context.validateTool (callArgsOf request) = [] then
    match callArgsOf request with
    | .obj members => raisedBy (context.callTool request (toolNameOf request) members)
    | _ => none
  else none

/-- What the processor raises that a method is dispatched to. -/
def dispatchError (request : RpcRequest) : Option PyError :=
  if request.method = str "tools/list" then raisedBy (context.listTools request)
  else if request.method = str "tools/call" then toolError context request
  else if request.method = str "resources/list" then raisedBy (context.listResources request)
  else if request.method = str "prompts/list" then raisedBy (context.listPrompts request)
  else none

/-- The methods that are dispatched. -/
def dispatched : List PyStr :=
  [str "tools/list", str "tools/call", str "resources/list", str "prompts/list"]

/-- What the processor raises that sets up a session. -/
def handshakeError (request : RpcRequest) : Option PyError :=
  if request.method = str "initialize" then
    if request.params.isNone then none else raisedBy (context.initializeHandshake request)
  else if request.method = str "notifications/initialized" then
    raisedBy (context.activateSession http.sessionId)
  else if request.method = str "ping" then raisedBy (context.ping http.sessionId)
  else none

/-- The methods that set up a session. -/
def handshakes : List PyStr :=
  [str "initialize", str "notifications/initialized", str "ping"]

variable {context http}

theorem WroteOne.weaken {bad bad' : Prop} {events : List McpEvent} (h : WroteOne bad events)
    (himp : bad' → bad) : WroteOne bad' events := by
  obtain ⟨document, hevents, herror⟩ := h
  exact ⟨document, hevents, fun hbad => herror (himp hbad)⟩

theorem Ends.weaken {α : Type} {raised : Option PyError} {P Q : List McpEvent → α → Prop}
    {ended : Ending McpEvent Response α} (h : Ends raised P ended)
    (himp : ∀ events a, P events a → Q events a) : Ends raised Q ended := by
  cases h with
  | raises hsome => exact .raises hsome
  | fails hnone he => exact .fails hnone he
  | returns hnone hP => exact .returns hnone (himp _ _ hP)

theorem Ends.of_some {α : Type} {e : PyError} {P : List McpEvent → α → Prop}
    {ended : Ending McpEvent Response α} (h : Ends (some e) P ended) :
    ∃ response', ended = ⟨[], response', .error e⟩ := by
  cases h with
  | @raises e' response' hsome =>
      rw [Option.some.inj hsome]
      exact ⟨response', rfl⟩
  | fails hnone he => cases hnone
  | returns hnone hP => cases hnone

theorem ends_callTool (request : RpcRequest) (response : Response) :
    Ends (toolError context request) (fun events _ => WroteOne False events)
      ((callTool context request).run response) := by
  unfold callTool toolError
  by_cases hvalid : context.validateTool (callArgsOf request) = []
  · simp only [if_pos hvalid]
    cases hargs : callArgsOf request with
    | obj members => exact ends_respond _ response
    | null => exact .fails rfl rfl
    | bool b => exact .fails rfl rfl
    | int n => exact .fails rfl rfl
    | float q => exact .fails rfl rfl
    | str text => exact .fails rfl rfl
    | arr items => exact .fails rfl rfl
  · simp only [if_neg hvalid]
    exact .returns rfl ⟨_, rfl, False.elim⟩

/-- A method that is not dispatched gets an error document. -/
theorem ends_dispatch (request : RpcRequest) (response : Response) :
    Ends (dispatchError context request)
      (fun events _ => WroteOne (request.method ∉ dispatched) events)
      ((dispatch context request).run response) := by
  unfold dispatch dispatchError
  by_cases hlist : request.method = str "tools/list"
  · rw [if_pos hlist, if_pos hlist]
    exact (ends_respond _ response).weaken fun _ _ h =>
      h.weaken fun hbad => hbad (by simp [dispatched, hlist])
  rw [if_neg hlist, if_neg hlist]
  by_cases hcall : request.method = str "tools/call"
  · rw [if_pos hcall, if_pos hcall]
    exact (ends_callTool request response).weaken fun _ _ h =>
      h.weaken fun hbad => hbad (by simp [dispatched, hcall])
  rw [if_neg hcall, if_neg hcall]
  by_cases hresources : request.method = str "resources/list"
  · rw [if_pos hresources, if_pos hresources]
    exact (ends_respond _ response).weaken fun _ _ h =>
      h.weaken fun hbad => hbad (by simp [dispatched, hresources])
  rw [if_neg hresources, if_neg hresources]
  by_cases hprompts : request.method = str "prompts/list"
  · rw [if_pos hprompts, if_pos hprompts]
    exact (ends_respond _ response).weaken fun _ _ h =>
      h.weaken fun hbad => hbad (by simp [dispatched, hprompts])
  rw [if_neg hprompts, if_neg hprompts]
  exact .returns rfl ⟨_, rfl, fun _ => rfl⟩

/-- What a handshake leaves: a document only of an initialization, and the id of a new
session only where a header can have it. -/
structure Shaken (context : McpContext) (request : RpcRequest) (events : List McpEvent)
    (handled : Option PyStr × Bool) : Prop where
  done : handled.2 = true
  accepted : ∀ sessionId, handled.1 = some sessionId → context.headerAccepts sessionId = true
  initialized : request.method = str "initialize" → WroteOne False events
  silent : request.method ≠ str "initialize" → events = []

/-- Setting the header of an id, if there is one, raises nothing that is no exception. -/
theorem run_setHeaderIfAny (sessionId : Option PyStr) (response : Response) :
    (∃ response', (setHeaderIfAny context sessionId).run response = ⟨[], response', .ok ()⟩ ∧
        ∀ id, sessionId = some id → context.headerAccepts id = true) ∨
      (setHeaderIfAny context sessionId).run response = ⟨[], response, .error .valueError⟩ := by
  cases sessionId with
  | none =>
      refine .inl ⟨response, rfl, ?_⟩
      intro id hid
      cases hid
  | some sessionId =>
      cases haccepts : context.headerAccepts sessionId with
      | true =>
          refine .inl ⟨{ response with sessionHeader := some sessionId }, ?_, ?_⟩
          · simp only [setHeaderIfAny, setHeader, haccepts, if_true]
            rfl
          · intro id hid
            rw [← Option.some.inj hid]
            exact haccepts
      | false =>
          refine .inr ?_
          simp only [setHeaderIfAny, setHeader, haccepts, Bool.false_eq_true, if_false]
          rfl

theorem ends_begin {request : RpcRequest} (hmethod : request.method = str "initialize")
    (result : Json) (sessionId : Option PyStr) (response : Response) :
    Ends none (Shaken context request) ((begin context result sessionId).run response) := by
  unfold begin
  rcases @run_setHeaderIfAny context sessionId response with ⟨response', hset, haccepts⟩ | hunsafe
  · rw [bind_of_ok hset, bind_of_ok (rfl : (setStatus 200).run response' =
      ⟨[], { response' with status := 200 }, .ok ()⟩)]
    rcases @run_writeResult context result { response' with status := 200 } with
      hwritten | ⟨e, hfailed, he⟩
    · rw [run_bind_ok hwritten]
      exact .returns rfl ⟨rfl, haccepts, fun _ => ⟨_, rfl, False.elim⟩, fun h => absurd hmethod h⟩
    · rw [run_bind_error hfailed]
      exact .fails rfl he
  · rw [bind_of_error hunsafe]
    exact .fails rfl rfl

/-- A handshake ends as the processor it calls does. -/
theorem ends_handshake {request : RpcRequest} (hmethod : request.method ∈ handshakes)
    (response : Response) :
    Ends (handshakeError context http request) (Shaken context request)
      ((handshake context http request).run response) := by
  unfold handshake handshakeError
  by_cases hinit : request.method = str "initialize"
  · rw [if_pos hinit, if_pos hinit]
    cases hparams : request.params with
    | none => exact .fails rfl rfl
    | some params =>
        cases hcreated : context.initializeHandshake request with
        | error e => exact .raises rfl
        | ok created =>
            have hbegin := @ends_begin context _ hinit created.1 created.2 response
            simp only [bind_of_ok (rfl : (call (Except.ok created) : Posting _).run response =
              ⟨[], response, .ok created⟩)]
            exact hbegin
  rw [if_neg hinit, if_neg hinit]
  by_cases hactivate : request.method = str "notifications/initialized"
  · rw [if_pos hactivate, if_pos hactivate]
    cases hactivated : context.activateSession http.sessionId with
    | error e => exact .raises rfl
    | ok result =>
        simp only [bind_of_ok (rfl : (call (Except.ok result) : Posting _).run response =
          ⟨[], response, .ok result⟩)]
        rcases @run_setHeaderIfAny context http.sessionId response with
          ⟨response', hset, haccepts⟩ | hunsafe
        · rw [bind_of_ok hset]
          refine .returns rfl ⟨rfl, ?_, fun h => absurd h hinit, fun _ => rfl⟩
          intro sessionId hid
          cases hid
        · rw [bind_of_error hunsafe]
          exact .fails rfl rfl
  rw [if_neg hactivate, if_neg hactivate]
  have hping : request.method = str "ping" := by
    simpa [handshakes, hinit, hactivate] using hmethod
  rw [if_pos hping, if_pos hping]
  cases hpinged : context.ping http.sessionId with
  | error e => exact .raises rfl
  | ok pinged =>
      refine .returns rfl ⟨rfl, ?_, fun h => absurd h hinit, fun _ => rfl⟩
      intro sessionId hid
      cases hid

theorem run_handleHandshake_of_other {request : RpcRequest}
    (hmethod : request.method ∉ handshakes) (response : Response) :
    (handleHandshake context http request).run response =
      ⟨[], response, .ok (none, false)⟩ := by
  simp only [handshakes, List.mem_cons, List.not_mem_nil, or_false, not_or] at hmethod
  have hrun : (handshake context http request).run response =
      ⟨[], response, .ok (none, false)⟩ := by
    rw [handshake, if_neg hmethod.1, if_neg hmethod.2.1, if_neg hmethod.2.2]
    rfl
  exact run_guarded_of_ok hrun

/-! ## Requests that are answered -/

variable (context http)

/-- The request in a body, if it is one. -/
def received : Option RpcRequest :=
  match loadBody context http with
  | .error _ => none
  | .ok data => if context.validate data = [] then requestOf data else none

/-- What the processor raises that a request is handed to. -/
def processorError (request : RpcRequest) : Option PyError :=
  if handshakes.contains request.method then handshakeError context http request
  else if requestedVersion http = some context.protocolVersion ∧
      context.isSessionActive http.sessionId = true then dispatchError context request
  else none

/-- A method that no document belongs to. -/
def isSilent (request : RpcRequest) : Prop :=
  request.method = str "ping" ∨ request.method = str "notifications/initialized"

/-- A request that is to be answered with an error: its processor raises; or it sets up
no session, and its protocol version, its session or its method is a wrong one. -/
def IsRefused (request : RpcRequest) : Prop :=
  (processorError context http request).isSome ∨
    request.method ∉ handshakes ∧
      (requestedVersion http ≠ some context.protocolVersion ∨
        context.isSessionActive http.sessionId = false ∨ request.method ∉ dispatched)

/-- How a request is answered before the response is finished. -/
structure Answers (request : RpcRequest) (events : List McpEvent) : Prop where
  document : ¬ isSilent request → WroteOne False events
  error : IsRefused context http request → WroteOne True events
  unfinished : ∀ event ∈ events, ∃ document, event = .wrote document

variable {context http}

theorem run_endHandshake {newSessionId : Option PyStr}
    (haccepts : ∀ sessionId, newSessionId = some sessionId →
      context.headerAccepts sessionId = true) (response : Response) :
    ∃ response', (endHandshake context newSessionId).run response =
      ⟨[.finished], response', .ok ()⟩ := by
  unfold endHandshake
  rcases @run_setHeaderIfAny context (newSessionId.filter fun sessionId => !sessionId.isEmpty)
    response with ⟨response', hset, hall⟩ | hunsafe
  · rw [bind_of_ok hset]
    exact ⟨response', run_doFinish context response'⟩
  · exfalso
    cases newSessionId with
    | none => cases hunsafe
    | some sessionId =>
        have hok := haccepts sessionId rfl
        cases hempty : sessionId.isEmpty with
        | true => simp [Option.filter, hempty, setHeaderIfAny, pure] at hunsafe
        | false => simp [Option.filter, hempty, setHeaderIfAny, setHeader, hok, assign] at hunsafe

theorem answers_of_error {request : RpcRequest} {document : Document}
    (herror : document.hasError = true) : Answers context http request [.wrote document] where
  document _ := ⟨document, rfl, False.elim⟩
  error _ := ⟨document, rfl, fun _ => herror⟩
  unfinished := by
    intro event hevent
    exact ⟨document, List.mem_singleton.mp hevent⟩

theorem run_answer_of_handshake {request : RpcRequest} (hmethod : request.method ∈ handshakes)
    (hraised : ∀ e, processorError context http request = some e → e.isException = true)
    (response : Response) :
    ∃ events response', (answer context http request).run response =
        ⟨events ++ [.finished], response', .ok ()⟩ ∧ Answers context http request events := by
  have herror : processorError context http request = handshakeError context http request :=
    if_pos (List.contains_iff_mem.mpr hmethod)
  rw [herror] at hraised
  obtain ⟨events, response', handled, hrun, hends⟩ :=
    @run_guarded _ request _ ((none, true) : Option PyStr × Bool) response _ _
      (@ends_handshake context http request hmethod response) hraised
  have hdone : handled.2 = true ∧ (∀ sessionId, handled.1 = some sessionId →
      context.headerAccepts sessionId = true) ∧ Answers context http request events := by
    rcases hends with ⟨hnone, hshaken⟩ | ⟨hhandled, document, hevents, hdocument⟩
    · refine ⟨hshaken.done, hshaken.accepted, ?_, ?_, ?_⟩
      · intro hloud
        apply hshaken.initialized
        simp only [handshakes, List.mem_cons, List.not_mem_nil, or_false] at hmethod
        simp only [isSilent, not_or] at hloud
        rcases hmethod with hinit | hactivate | hping
        · exact hinit
        · exact absurd hactivate hloud.2
        · exact absurd hping hloud.1
      · rintro (hsome | ⟨hother, hrest⟩)
        · rw [herror, hnone] at hsome
          cases hsome
        · exact absurd hmethod hother
      · intro event hevent
        by_cases hinit : request.method = str "initialize"
        · obtain ⟨document, hevents, _⟩ := hshaken.initialized hinit
          rw [hevents] at hevent
          exact ⟨document, List.mem_singleton.mp hevent⟩
        · rw [hshaken.silent hinit] at hevent
          cases hevent
    · rw [hhandled, hevents]
      refine ⟨rfl, ?_, answers_of_error hdocument⟩
      intro sessionId hid
      cases hid
  obtain ⟨hdone, haccepts, hanswers⟩ := hdone
  obtain ⟨response'', hend⟩ := run_endHandshake haccepts response'
  refine ⟨events, response'', ?_, hanswers⟩
  unfold answer handleHandshake
  rw [run_bind_ok hrun, if_pos hdone, hend]

theorem run_answer_of_other {request : RpcRequest} (hmethod : request.method ∉ handshakes)
    (hraised : ∀ e, processorError context http request = some e → e.isException = true)
    (response : Response) :
    ∃ events response', (answer context http request).run response =
        ⟨events ++ [.finished], response', .ok ()⟩ ∧ Answers context http request events := by
  have hserve : (answer context http request).run response =
      (serve context http request).run response := by
    unfold answer
    rw [bind_of_ok (run_handleHandshake_of_other hmethod response)]
    rfl
  rw [hserve]
  unfold serve
  by_cases hversion : requestedVersion http = some context.protocolVersion
  · rw [if_neg (not_not.mpr hversion)]
    cases hactive : context.isSessionActive http.sessionId with
    | false =>
        refine ⟨[.wrote (getProtocolError request.id .invalidSession
          (some (str "invalid or inactive session id")))], { response with status := 401 }, ?_,
          answers_of_error rfl⟩
        exact run_writeError_finish context 401 _ _ _ response
    | true =>
        have herror : processorError context http request = dispatchError context request := by
          rw [processorError, if_neg (by simpa using hmethod), if_pos ⟨hversion, hactive⟩]
        rw [herror] at hraised
        obtain ⟨events, response', a, hrun, hends⟩ :=
          @run_guarded _ request _ () response _ _ (ends_dispatch request response) hraised
        refine ⟨events, response', run_tryFinally_of_ok hrun (run_doFinish context response'), ?_⟩
        rcases hends with ⟨hnone, document, hevents, hdocument⟩ |
          ⟨_, document, hevents, hdocument⟩
        · rw [hevents]
          refine ⟨fun _ => ⟨document, rfl, False.elim⟩, ?_, ?_⟩
          · rintro (hsome | ⟨_, hversion' | hinactive | hunknown⟩)
            · rw [herror, hnone] at hsome
              cases hsome
            · exact absurd hversion hversion'
            · rw [hactive] at hinactive
              cases hinactive
            · exact ⟨document, rfl, fun _ => hdocument hunknown⟩
          · intro event hevent
            exact ⟨document, List.mem_singleton.mp hevent⟩
        · rw [hevents]
          exact answers_of_error hdocument
  · rw [if_pos hversion]
    refine ⟨[.wrote (getProtocolError request.id .invalidProtocolVersion
      (some (str "unsupported protocol version " ++ (requestedVersion http).getD (str "None"))))],
      { response with status := 400 }, ?_, answers_of_error rfl⟩
    exact run_writeError_finish context 400 _ _ _ response

/-- A request is answered, and the response finished once, after that. -/
theorem run_answer {request : RpcRequest}
    (hraised : ∀ e, processorError context http request = some e → e.isException = true)
    (response : Response) :
    ∃ events response', (answer context http request).run response =
        ⟨events ++ [.finished], response', .ok ()⟩ ∧ Answers context http request events := by
  by_cases hmethod : request.method ∈ handshakes
  · exact run_answer_of_handshake hmethod hraised response
  · exact run_answer_of_other hmethod hraised response

/-- What is no exception that can be caught escapes. -/
theorem outcome_answer_of_escape {request : RpcRequest} {e : PyError}
    (hraised : processorError context http request = some e) (he : e.isException = false)
    (response : Response) :
    ((answer context http request).run response).outcome = .error e := by
  by_cases hmethod : request.method ∈ handshakes
  · rw [processorError, if_pos (List.contains_iff_mem.mpr hmethod)] at hraised
    have hends := @ends_handshake context http request hmethod response
    rw [hraised] at hends
    obtain ⟨response', hended⟩ := hends.of_some
    have hguarded : (handleHandshake context http request).run response =
        ⟨[], response', .error e⟩ := run_guarded_of_escape hended he
    unfold answer
    rw [run_bind_error hguarded]
  · rw [processorError, if_neg (by simpa using hmethod)] at hraised
    split at hraised
    case isFalse hrefused => cases hraised
    case isTrue hserved =>
        have hends := @ends_dispatch context request response
        rw [hraised] at hends
        obtain ⟨response', hended⟩ := hends.of_some
        have hguarded : (guarded request (dispatch context request) ()).run response =
            ⟨[], response', .error e⟩ := run_guarded_of_escape hended he
        unfold answer
        rw [bind_of_ok (run_handleHandshake_of_other hmethod response)]
        show ((serve context http request).run response).outcome = _
        rw [serve, if_neg (not_not.mpr hserved.1), hserved.2, Bool.not_true,
          if_neg Bool.false_ne_true,
          run_tryFinally_of_ok hguarded (run_doFinish context response')]

end McpRootHandler

open McpRootHandler

/-! ## Every request is answered once -/

/-- The document that an event writes. -/
def McpEvent.document : McpEvent → Option Document
  | .wrote document => some document
  | .finished => none

/-- The event finishes the response. -/
def McpEvent.isFinish : McpEvent → Bool
  | .wrote _ => false
  | .finished => true

/-- How `post` ends. -/
def posted (context : McpContext) (http : HttpRequest) : Ending McpEvent Response Unit :=
  (post context http).run {}

/-- A request is answered once: no exception escapes, the response is finished once, one
document is written unless none belongs to the method, and one with an error if the
body, the version, the session or the method is a wrong one, or a processor raises. -/
structure AnsweredOnce (context : McpContext) (http : HttpRequest) : Prop where
  returned : (posted context http).outcome = .ok ()
  finished : (posted context http).events.countP McpEvent.isFinish = 1
  document : (∀ request, received context http = some request → ¬ isSilent request) →
    ((posted context http).events.filterMap McpEvent.document).length = 1
  error : (∀ request, received context http = some request → IsRefused context http request) →
    ∃ document ∈ (posted context http).events.filterMap McpEvent.document,
      document.hasError = true

/-- The body is no JSON for no other reason than its syntax, and what a processor raises is
an exception that can be caught. -/
structure Answerable (context : McpContext) (http : HttpRequest) : Prop where
  readable : ∀ e, loadBody context http = .error e → e = .jsonDecodeError
  caught : ∀ request e, received context http = some request →
    processorError context http request = some e → e.isException = true

section Answering

variable {context : McpContext} {http : HttpRequest}

/-- Events with one document, and an end. -/
theorem answeredOnce_of_refused {document : Document} {response : Response}
    (hposted : posted context http = ⟨[.wrote document, .finished], response, .ok ()⟩)
    (herror : document.hasError = true) : AnsweredOnce context http where
  returned := by rw [hposted]
  finished := by rw [hposted]; rfl
  document _ := by rw [hposted]; rfl
  error _ := by
    rw [hposted]
    exact ⟨document, List.mem_cons_self, herror⟩

/-- What was answered while parsing is all there is. -/
theorem posted_of_refused {events : List McpEvent} {response : Response}
    (hparse : (parse context http).run {} = ⟨events, response, .ok none⟩) :
    posted context http = ⟨events, response, .ok ()⟩ := by
  unfold posted post
  rw [run_bind_ok hparse]
  show Ending.mk (events ++ []) response (.ok ()) = _
  rw [List.append_nil]

theorem filterMap_of_wroteOne {bad : Prop} {events : List McpEvent} (h : WroteOne bad events) :
    ∃ document, (events ++ [McpEvent.finished]).filterMap McpEvent.document = [document] ∧
      (bad → document.hasError = true) := by
  obtain ⟨document, rfl, herror⟩ := h
  exact ⟨document, rfl, herror⟩

theorem posted_of_request {request : RpcRequest} {data : Json}
    (hload : loadBody context http = .ok data) (hvalid : context.validate data = [])
    (hrequest : requestOf data = some request) :
    posted context http = (answer context http request).run {} := by
  unfold posted post
  rw [bind_of_ok (run_parse_of_request hload hvalid hrequest {})]

theorem answeredOnce_of_answers {request : RpcRequest} {events : List McpEvent}
    {response : Response} (hreceived : received context http = some request)
    (hposted : posted context http = ⟨events ++ [.finished], response, .ok ()⟩)
    (hanswers : Answers context http request events) : AnsweredOnce context http where
  returned := by rw [hposted]
  finished := by
    have hnone : events.countP McpEvent.isFinish = 0 := by
      rw [List.countP_eq_zero]
      intro event hevent
      obtain ⟨document, rfl⟩ := hanswers.unfinished event hevent
      exact Bool.false_ne_true
    rw [hposted]
    show (events ++ [McpEvent.finished]).countP McpEvent.isFinish = 1
    rw [List.countP_append, hnone]
    rfl
  document hloud := by
    obtain ⟨document, hdocuments, _⟩ :=
      filterMap_of_wroteOne (hanswers.document (hloud request hreceived))
    rw [hposted]
    exact congrArg List.length hdocuments
  error hrefused := by
    obtain ⟨document, hdocuments, herror⟩ :=
      filterMap_of_wroteOne (hanswers.error (hrefused request hreceived))
    rw [hposted]
    refine ⟨document, ?_, herror trivial⟩
    show document ∈ (events ++ [McpEvent.finished]).filterMap McpEvent.document
    rw [hdocuments]
    exact List.mem_cons_self

end Answering

/-- A request is answered once exactly if its body can be read or is no JSON, and its
processor raises nothing but exceptions that can be caught. -/
theorem answeredOnce_iff (context : McpContext) (http : HttpRequest)
    (hconforms : context.Conforms) :
    AnsweredOnce context http ↔ Answerable context http := by
  cases hload : loadBody context http with
  | error e =>
      have hreceived : ∀ request, received context http ≠ some request := by
        intro request hsome
        rw [received, hload] at hsome
        cases hsome
      by_cases hjson : e = .jsonDecodeError
      · rw [hjson] at hload
        apply iff_of_true
        · exact answeredOnce_of_refused (posted_of_refused (run_parse_of_not_json hload {})) rfl
        · refine ⟨?_, fun request _ hsome => absurd hsome (hreceived request)⟩
          intro e' he'
          rw [hload] at he'
          exact (Except.error.inj he').symm
      · apply iff_of_false
        · intro h
          have hreturned := h.returned
          unfold posted post at hreturned
          rw [bind_of_error (run_parse_of_unreadable hload hjson {})] at hreturned
          cases hreturned
        · intro h
          exact hjson (h.readable e hload)
  | ok data =>
      have hreadable : ∀ e, loadBody context http = .error e → e = .jsonDecodeError := by
        intro e he
        rw [hload] at he
        cases he
      by_cases hvalid : context.validate data = []
      · obtain ⟨request, hrequest⟩ := Option.isSome_iff_exists.mp (hconforms data hvalid)
        have hreceived : received context http = some request := by
          rw [received, hload]
          show (if context.validate data = [] then requestOf data else none) = _
          rw [if_pos hvalid, hrequest]
        have hposted := posted_of_request hload hvalid hrequest
        by_cases hcaught : ∀ e, processorError context http request = some e →
            e.isException = true
        · apply iff_of_true
          · obtain ⟨events, response, hrun, hanswers⟩ := run_answer hcaught {}
            exact answeredOnce_of_answers hreceived (hposted.trans hrun) hanswers
          · refine ⟨hreadable, ?_⟩
            intro request' e hrequest' he
            rw [hreceived] at hrequest'
            rw [← Option.some.inj hrequest'] at he
            exact hcaught e he
        · apply iff_of_false
          · intro h
            apply hcaught
            intro e he
            by_contra hescape
            have houtcome := outcome_answer_of_escape he (Bool.eq_false_of_not_eq_true hescape) {}
            have hreturned := h.returned
            rw [hposted, houtcome] at hreturned
            cases hreturned
          · intro h
            exact hcaught fun e he => h.caught request e hreceived he
      · have hreceived : ∀ request, received context http ≠ some request := by
          intro request hsome
          rw [received, hload] at hsome
          simp only [if_neg hvalid] at hsome
          cases hsome
        apply iff_of_true
        · exact answeredOnce_of_refused (posted_of_refused (run_parse_of_invalid hload hvalid {}))
            rfl
        · exact ⟨hreadable, fun request _ hsome => absurd hsome (hreceived request)⟩

/-- A server without sessions, whose processors return nothing. -/
def plainContext : McpContext where
  limit := 100
  room := 100
  validate data := if (requestOf data).isSome then [] else [str "Request validation FAILED"]
  validateTool _ := []
  protocolVersion := str "2025-06-18"
  isSessionActive _ := true
  initializeHandshake _ := .ok (.null, none)
  activateSession _ := .ok true
  ping _ := .ok ()
  listTools _ := .ok (.obj [])
  callTool _ _ _ := .ok (.obj [])
  listResources _ := .ok (.obj [])
  listPrompts _ := .ok (.obj [])
  headerAccepts _ := true
  clientClosed := false

theorem plainContext_validates : plainContext.Validates := by
  intro data
  show (if (requestOf data).isSome then [] else [str "Request validation FAILED"]) = [] ↔ _
  split
  · exact iff_of_true rfl ‹_›
  · exact iff_of_false (by simp) ‹_›

/-- A body of a byte that no text in UTF-8 has. -/
def undecodablePost : HttpRequest := ⟨[0xFF], none, some (str "2025-06-18")⟩

/-- A server that cannot list its tools. -/
def raisingContext : McpContext :=
  { plainContext with listTools := fun _ => .error .otherException }

def listBody : String :=
  "\x7b\"jsonrpc\": \"2.0\", \"id\": 7, \"method\": \"tools/list\", \"params\": \x7b\x7d\x7d"

/-- A request for the list of tools. -/
def listPost : HttpRequest :=
  ⟨listBody.toUTF8.toList, some (str "s"), some (str "2025-06-18 ")⟩

/-- What the processor raises is answered. -/
theorem answeredOnce_listTools :
    (received raisingContext listPost).isSome = true ∧ AnsweredOnce raisingContext listPost := by
  have hreceived : (received raisingContext listPost).isSome = true := by decide +kernel
  refine ⟨hreceived, (answeredOnce_iff raisingContext listPost fun data =>
    (plainContext_validates data).mp).mpr ⟨?_, ?_⟩⟩
  · intro e he
    rw [received, he] at hreceived
    cases hreceived
  · intro request e _ he
    unfold processorError handshakeError dispatchError toolError at he
    -- no other processor raises anything
    repeat' split at he
    all_goals cases he
    rfl

/-- Bytes that are no text raise an error that is not caught. -/
theorem undecodable_escapes :
    ¬ ∀ (context : McpContext) (http : HttpRequest), context.Validates →
      AnsweredOnce context http := by
  intro hall
  have hreturned := (hall plainContext undecodablePost plainContext_validates).returned
  have hload : loadBody plainContext undecodablePost = .error .valueError := rfl
  unfold posted post at hreturned
  rw [bind_of_error (run_parse_of_unreadable hload (by decide) {})] at hreturned
  cases hreturned

end NoraFleet.Mcp
