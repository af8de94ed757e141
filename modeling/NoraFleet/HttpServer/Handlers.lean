import NoraFleet.Base.Flow
import NoraFleet.Networks.AgentNetwork

/-!
# Request handlers

What the handlers of HTTP requests do with the slots of the application: each
asks it to start the request, and is to tell it that the request is finished.

A request comes with what every call and every `await` of its handler does. Calls
that only log are left out.
-/

namespace NoraFleet.HttpServer

open Base Networks

/-! ## The application -/

/-- `HttpServerApp`. -/
structure HttpServerApp where
  total : Int
  numProcessing : Int
  requestsStats : Dict PyStr Nat
  requestsLimit : Int
  concurrentRequestsLimit : Int
  serving : Bool
  shutdownInitiated : Bool

namespace HttpServerApp

/-- `HttpServerApp(...)`. -/
def new (requestsLimit concurrentRequestsLimit : Int) : HttpServerApp where
  total := 0
  numProcessing := 0
  requestsStats := .empty
  requestsLimit := requestsLimit
  concurrentRequestsLimit := concurrentRequestsLimit
  serving := true
  shutdownInitiated := false

/-- The status and the error message of an answer. -/
abbrev Answer := Nat × String

def httpOk : Nat := 200

def httpServiceUnavailable : Nat := 503

/-- `try_start_client_request(metadata, caller)`. -/
def tryStartClientRequest (caller : PyStr) (app : HttpServerApp) : Answer × HttpServerApp :=
  if !app.serving then ((httpServiceUnavailable, "Server is shutting down"), app)
  else if 0 < app.concurrentRequestsLimit ∧ app.concurrentRequestsLimit ≤ app.numProcessing then
    ((httpServiceUnavailable, "Too many concurrent requests"), app)
  else
    ((httpOk, ""),
      { app with
        numProcessing := app.numProcessing + 1
        requestsStats := app.requestsStats.set caller
          ((app.requestsStats.get? caller).getD 0 + 1) })

/-- `finish_client_request(metadata, caller)`. -/
def finishClientRequest (app : HttpServerApp) : HttpServerApp :=
  let total := app.total + 1
  let limitReached : Bool := decide (0 ≤ app.requestsLimit ∧ app.requestsLimit < total)
  { app with
    numProcessing := app.numProcessing - 1
    total := total
    serving := app.serving && !limitReached
    shutdownInitiated := app.shutdownInitiated || limitReached }

end HttpServerApp

/-- What a handler asks of the application. -/
inductive AppCall where
  | tryStart (caller : PyStr)
  | finish (caller : PyStr)
  deriving DecidableEq

/-- The attributes and variables of a handler that its cleanup depends on. -/
structure Locals where
  keepAliveTask : Bool
  resultGenerator : Bool
  flushedFirstResult : Bool

/-- The variables as a handler starts. -/
def Locals.initial : Locals := ⟨false, false, false⟩

/-- A handler, or a piece of it. -/
abbrev Handling (α : Type) := Flow AppCall Locals α

open Flow

/-! ## `BaseRequestHandler` -/

/-- `do_finish()`: the closed stream of a client that went away is no problem. -/
def doFinish (finish : Option PyError) : Handling Unit :=
  suppress (fun e => e = .streamClosedError) (perform finish)

/-- `do_finish(status_code, err_message)` of an error writes the message. -/
def doFinishError (write finish : Option PyError) : Handling Unit := do
  perform write
  doFinish finish

/-- `do_flush()`. -/
def doFlush (flush : Option PyError) : Handling Bool :=
  tryExcept (do perform flush; pure true) fun e =>
    if e = .streamClosedError then pure false else raise e

/-- What happens while the service of a request is looked up. The authorizer says
whether the request is allowed, and whether there is a provider. -/
structure ServiceLookup where
  isReservationName : Bool
  allowAgent : Except PyError (Bool × Bool)
  tempStorageConfigured : Bool
  getAgentNetworkProvider : Except PyError Bool
  allowAgentAgain : Except PyError (Bool × Bool)
  providerGetService : Option PyError
  finish : Option PyError

/-- `get_service(agent_name, metadata)`: whether there is one. -/
def getService (lookup : ServiceLookup) : Handling Bool := do
  let (isAuthorized, hasProvider) ← call lookup.allowAgent
  if !isAuthorized then
    doFinish lookup.finish
    pure false
  else if hasProvider then
    perform lookup.providerGetService
    pure true
  else if lookup.isReservationName then
    if !lookup.tempStorageConfigured then
      doFinish lookup.finish
      pure false
    else
      let found ← call lookup.getAgentNetworkProvider
      let hasProvider ←
        if found then (do let answer ← call lookup.allowAgentAgain; pure answer.2) else pure false
      if hasProvider then
        perform lookup.providerGetService
        pure true
      else
        doFinish lookup.finish
        pure false
  else
    doFinish lookup.finish
    pure false

/-! ## `StreamingChatHandler` -/

/-- A result of the stream: what serialising it, taking the lock, writing and
flushing it do. -/
structure StreamedResult where
  dumps : Option PyError
  lock : Option PyError
  write : Option PyError
  flush : Option PyError

/-- A request for a streaming chat, and what the calls of its handler do. The
service asks its provider for the network each time. -/
structure ChatRequest where
  agentName : PyStr
  lookup : ServiceLookup
  deniedWrite : Option PyError
  deniedFinish : Option PyError
  networkForTimeout : Option AgentNetwork
  body : List UInt8
  networkForEvent : Option AgentNetwork
  keepAliveIntervalSeconds : Int
  setHeaders : Option PyError
  flush : Option PyError
  results : List StreamedResult
  streamEnds : Option PyError
  timeoutExpired : Bool
  timeoutWrite : Option PyError
  processException : Option PyError
  awaitKeepAlive : Option PyError
  aclose : Option PyError
  finish : Option PyError

namespace ChatRequest

variable (request : ChatRequest)

def caller : PyStr := request.agentName ++ str "/streaming_chat"

/-- `service.get_request_timeout_seconds()`. A provider without a network gives
`None`, which has no such method. -/
def getRequestTimeoutSeconds (extractorGet : ExtractorGet) : Except PyError Double :=
  match request.networkForTimeout with
  | none => .error .attributeError
  | some network => network.getRequestTimeoutSeconds extractorGet

/-- `service.should_process_as_event(request_dict)`. -/
def shouldProcessAsEvent (extractorGet : ExtractorGet) (requestDict : Json) :
    Except PyError Bool :=
  (InvocationUtil.getEffectiveInvocation extractorGet request.networkForEvent requestDict).map
    fun invocation => decide (invocation = .event)

/-- `_is_client_close_a_problem(is_event, flushed_first_result)`. -/
def isClientCloseAProblem (isEvent flushedFirstResult : Bool) : Bool :=
  !isEvent || (isEvent && !flushedFirstResult)

/-- The body of the loop over the results. -/
def streamResult (isEvent : Bool) (result : StreamedResult) : Handling Unit := do
  perform result.dumps
  perform result.lock
  perform result.write
  let flushOk ← doFlush result.flush
  if flushOk then assign fun locals => { locals with flushedFirstResult := true }
  else
    let locals ← readLocals
    if isClientCloseAProblem isEvent locals.flushedFirstResult then raise .streamClosedError
    else pure ()

/-- The loop over the results. -/
def streamResults (isEvent : Bool) : List StreamedResult → Handling Unit
  | [] => perform request.streamEnds
  | result :: rest => do
      streamResult isEvent result
      streamResults isEvent rest

/-- `async with asyncio.timeout(request_timeout)`: an expired timeout cancels what
it is around, and makes a `TimeoutError` of that. Not positive is no timeout. -/
def asyncTimeout (requestTimeout : Double) (body : Handling Unit) : Handling Unit :=
  tryExcept body fun e =>
    if e = .cancelledError ∧ request.timeoutExpired ∧ !requestTimeout.le (.fin 0) then
      raise .timeoutError
    else raise e

/-- The `try` block of `post`. -/
def stream (requestTimeout : Double) (isEvent : Bool) : Handling Unit := do
  perform request.setHeaders
  let flushOk ← doFlush request.flush
  if flushOk then
    assign fun locals => { locals with keepAliveTask := 0 < request.keepAliveIntervalSeconds }
    request.asyncTimeout requestTimeout (do
      assign fun locals => { locals with resultGenerator := true }
      request.streamResults isEvent request.results)
  else raise .streamClosedError

/-- The `except` clauses of `post`. -/
def handleRaised (isEvent : Bool) (e : PyError) : Handling Unit :=
  if e = .cancelledError then raise e
  else if e = .streamClosedError then do
    let locals ← readLocals
    if isClientCloseAProblem isEvent locals.flushedFirstResult then raise e else pure ()
  else if e = .timeoutError then perform request.timeoutWrite
  else if e.isException then suppress PyError.isException (perform request.processException)
  else raise e

/-- `_finish_request(result_generator, metadata, agent_name)`. -/
def finishRequest : Handling Unit := do
  let locals ← readLocals
  if locals.resultGenerator then suppress PyError.isException (perform request.aclose)
  else pure ()
  doFinish request.finish
  emit (.finish request.caller)

/-- The `finally` block of `post`. -/
def cleanup : Handling Unit := do
  let locals ← readLocals
  if locals.keepAliveTask then
    suppress (fun e => e = .cancelledError) (perform request.awaitKeepAlive)
  else pure ()
  request.finishRequest

/-- What `post` does with a request that was started. -/
def started (extractorGet : ExtractorGet) (limit : Nat) : Handling Unit := do
  let requestTimeout ← call (request.getRequestTimeoutSeconds extractorGet)
  match Json.loadsBytes limit request.body with
  | .error .jsonDecodeError =>
      suppress PyError.isException (perform request.processException)
      request.finishRequest
  | .error .valueError => raise .valueError
  | .error .recursionError => raise .recursionError
  | .ok requestDict =>
      let isEvent ← call (request.shouldProcessAsEvent extractorGet requestDict)
      tryFinally (tryExcept (request.stream requestTimeout isEvent) (request.handleRaised isEvent))
        request.cleanup

/-- `post(agent_name)`, given what the application answers. -/
def post (extractorGet : ExtractorGet) (limit : Nat) (answer : HttpServerApp.Answer) :
    Handling Unit := do
  let hasService ← getService request.lookup
  if hasService then
    emit (.tryStart request.caller)
    if answer.1 ≠ HttpServerApp.httpOk then
      doFinishError request.deniedWrite request.deniedFinish
    else request.started extractorGet limit
  else pure ()

end ChatRequest

/-! ## `FunctionHandler` -/

/-- A request for the function of an agent, and what the calls of its handler
do. -/
structure FunctionRequest where
  agentName : PyStr
  lookup : ServiceLookup
  deniedWrite : Option PyError
  deniedFinish : Option PyError
  function : Option PyError
  write : Option PyError
  processException : Option PyError
  finish : Option PyError

namespace FunctionRequest

variable (request : FunctionRequest)

def caller : PyStr := request.agentName ++ str "/function"

/-- What `get` does with a request that was started. -/
def started : Handling Unit :=
  tryFinally
    (tryExcept (do perform request.function; perform request.write) fun e =>
      if e.isException then perform request.processException else raise e)
    (do doFinish request.finish; emit (.finish request.caller))

/-- `get(agent_name)`, given what the application answers. -/
def get (answer : HttpServerApp.Answer) : Handling Unit := do
  let hasService ← getService request.lookup
  if hasService then
    emit (.tryStart request.caller)
    if answer.1 ≠ HttpServerApp.httpOk then
      doFinishError request.deniedWrite request.deniedFinish
    else request.started
  else pure ()

end FunctionRequest

/-! ## `ConciergeHandler` -/

/-- A request for the list of agents, and what the calls of its handler do. -/
structure ConciergeRequest where
  deniedWrite : Option PyError
  deniedFinish : Option PyError
  getNetworkStorageDict : Option PyError
  listAgents : Option PyError
  sessionList : Option PyError
  write : Option PyError
  processException : Option PyError
  finish : Option PyError

namespace ConciergeRequest

variable (request : ConciergeRequest)

def caller : PyStr := str "/api/v1/list"

/-- What `get` does with a request that was started. -/
def started : Handling Unit := do
  perform request.getNetworkStorageDict
  perform request.listAgents
  tryFinally
    (tryExcept (do perform request.sessionList; perform request.write) fun e =>
      if e.isException then perform request.processException else raise e)
    (do doFinish request.finish; emit (.finish caller))

/-- `get()`, given what the application answers. -/
def get (answer : HttpServerApp.Answer) : Handling Unit := do
  emit (.tryStart caller)
  if answer.1 ≠ HttpServerApp.httpOk then
    doFinishError request.deniedWrite request.deniedFinish
  else request.started

end ConciergeRequest

/-- A request of one of the handlers. -/
inductive Request where
  | streamingChat (request : ChatRequest)
  | function (request : FunctionRequest)
  | concierge (request : ConciergeRequest)

namespace Request

def caller : Request → PyStr
  | .streamingChat request => request.caller
  | .function request => request.caller
  | .concierge _ => ConciergeRequest.caller

/-- The handler of a request, given what the application answers. -/
def handle (extractorGet : ExtractorGet) (limit : Nat) (answer : HttpServerApp.Answer) :
    Request → Handling Unit
  | .streamingChat request => request.post extractorGet limit answer
  | .function request => request.get answer
  | .concierge request => request.get answer

/-- What the handler of a request asks of the application, in this order. -/
def calls (extractorGet : ExtractorGet) (limit : Nat) (answer : HttpServerApp.Answer)
    (request : Request) : List AppCall :=
  ((request.handle extractorGet limit answer).run .initial).events

end Request

end NoraFleet.HttpServer
