import NoraFleet.Networks.AgentNetwork
import NoraFleet.Sessions.InvocationContext

/-!
# A streaming request

`AsyncAgentService.streaming_chat` counts the request, makes a queue for
reservations and an invocation context, and iterates over what
`AsyncDirectAgentSession.streaming_chat` generates. Both are generators: at each
`yield` the consumer may throw something into them, as closing them does.

A request comes with what every call and every `yield` does.
-/

namespace NoraFleet.Sessions

open Base Flow Networks

/-- A response of the session: what converting it does, and what the consumer
throws at its `yield`. -/
structure Response where
  convert : Option PyError
  yielded : Option PyError

/-- A request for a streaming chat. -/
structure StreamingRequest where
  requestDict : Json
  agentNetwork : Option AgentNetwork
  -- AsyncAgentService.streaming_chat
  redactPerEnvVar : Option PyError
  updateMetadata : Option PyError
  logReceived : Option PyError
  hasQueues : Bool
  isAllowed : Except PyError Bool
  putQueue : Option PyError
  getExecutor : Option PyError
  hasEventWorkQueue : Bool
  start : Option PyError
  submitLogging : Option PyError
  createSession : Option PyError
  reportDone : Option PyError
  -- AsyncDirectAgentSession.streaming_chat
  createChatSession : Option PyError
  templateResponse : Response
  applyQueueFilter : Option PyError
  submitChat : Option PyError
  resources : List LingeringResource
  responses : List Response
  queueEnds : Option PyError
  -- finish_request
  handOver : HandOver
  putFinalItem : Option PyError
  workDone : Bool

/-- `request_dict.get("user_message", {}).get("text", "")`. -/
def userText : Json → Except PyError Json
  | .obj members =>
      match Json.lookup members (str "user_message") with
      | none => .ok (.str [])
      | some (.obj message) => .ok ((Json.lookup message (str "text")).getD (.str []))
      | some _ => .error .attributeError
  | _ => .error .attributeError

/-- `value is None`. -/
def isNone : Json → Bool
  | .null => true
  | _ => false

/-- The invocation as a context keeps it. -/
def invocationText : Invocations → PyStr
  | .event => str "event"
  | .chatbot => str "chatbot"

/-- The loop over responses, up to the end of the generator or what ends it. -/
def deliver : List Response → Managing Unit
  | [] => pure ()
  | response :: rest => do
      perform response.convert
      perform response.yielded
      deliver rest

/-- The resources that a chat adds to the context. -/
def addResources (c : Nat) : List LingeringResource → Managing Unit
  | [] => pure ()
  | resource :: rest => do
      addResource c resource
      addResources c rest

namespace StreamingRequest

variable (request : StreamingRequest) (extractorGet : ExtractorGet)

/-- Whether the request is to have a reservationist. -/
def reserves : Except PyError Bool := if request.hasQueues then request.isAllowed else .ok false

/-- The queue of a reservationist goes to those that the server watches. -/
def queueReservations (reserves : Bool) : Managing Unit :=
  if reserves then do
    perform request.putQueue
    emit .reservationsQueued
  else pure ()

/-- The reservationist of a request that has one. -/
def reservationist (reserves : Bool) : Option Reservationist :=
  if reserves then some ⟨false, request.putFinalItem⟩ else none

/-- `streaming_chat(request_dict, request_metadata)` before its `try`. -/
def prepare : Managing Unit := do
  let _ ← call (userText request.requestDict)
  perform request.redactPerEnvVar
  perform request.updateMetadata
  perform request.logReceived
  let invocation ← call (InvocationUtil.getEffectiveInvocation extractorGet request.agentNetwork
    request.requestDict)
  let reserves ← call request.reserves
  request.queueReservations reserves
  perform request.getExecutor
  newContext (request.reservationist reserves) (invocationText invocation)
    request.hasEventWorkQueue
  perform request.start
  emit (.started 0)
  perform request.submitLogging
  perform request.createSession
  let _ ← call (extractorGet request.requestDict (str "chat_filter.chat_filter_type")
    (.str (str "MINIMAL")))
  pure ()

/-- The `finally` block of the session's generator. -/
def closeGenerator : Managing Unit := do
  assign fun runtime => { runtime with generatorOpen := false }
  suppress PyError.isException (finishRequest false request.handOver 0)

/-- The session's generator from the queue filter on, with the body of the loop
over it. -/
def streamQueue : Managing Unit := do
  perform request.applyQueueFilter
  perform request.submitChat
  addResources 0 request.resources
  assign fun runtime => { runtime with generatorOpen := true }
  deliver request.responses
  tryFinally (perform request.queueEnds) request.closeGenerator

/-- The `try` block: the loop over the session's generator. -/
def stream : Managing Unit := do
  let userInput ← call (extractorGet request.requestDict (str "user_message.text") .null)
  perform request.createChatSession
  if isNone userInput then deliver [request.templateResponse] else request.streamQueue

/-- `aclose()` of the session's generator. One that was left at a `yield` in its
`try` runs its `finally` block. -/
def aclose : Managing Unit := do
  let runtime ← readLocals
  if runtime.generatorOpen then request.closeGenerator else pure ()

/-- The `finally` block. -/
def cleanup : Managing Unit := do
  suppress PyError.isException request.aclose
  finishRequest false request.handOver 0

/-- `streaming_chat(request_dict, request_metadata)`. -/
def streamingChat : Managing Unit := do
  emit .incremented
  request.prepare extractorGet
  tryFinally (request.stream extractorGet) request.cleanup
  perform request.reportDone
  emit .decremented

/-- The event work monitor finishes what it was given, once that is done. -/
def processPool : Managing Unit := do
  let runtime ← readLocals
  match runtime.eventWork with
  | [] => pure ()
  | c :: _ => if request.workDone then doneWithWork false c else pure ()

/-- The context before it is created. -/
def absentContext : SessionInvocationContext :=
  { asyncioExecutor := none
    hasQueue := false
    resources := []
    reservationist := none
    effectiveInvocation := []
    hasEventWorkQueue := false
    requestFinished := false
    cloned := false
    exchange := 0 }

/-- The runtime as a request starts. -/
def initialRuntime : Runtime := ⟨fun _ => absentContext, 0, 0, [], [], true, false⟩

/-- What a request does until it has ended, and its work as well. -/
def effects : List Effect :=
  ((do
    tryExcept (request.streamingChat extractorGet) fun _ => pure ()
    request.processPool : Managing Unit).run initialRuntime).events

end StreamingRequest

end NoraFleet.Sessions
