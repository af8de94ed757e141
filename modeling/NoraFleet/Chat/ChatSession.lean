import NoraFleet.Base.Flow
import NoraFleet.Base.Json

/-!
# A chat session

`DataDrivenChatSession.streaming_chat` runs in the executor of a request and puts
its messages on the queue of the invocation context, where the session that
answers the request takes them off. The last one is followed by `END_MESSAGE`,
which `finalize_request` puts, once.

A run comes with what every call and every `await` of it does: what messages a
call journals, and whether it returns. The messages are the `ChatMessage`
dictionaries that get through the filter of the journal.
-/

namespace NoraFleet.Chat

open Base Flow

/-! ## `AsyncCollatingQueue` -/

/-- `END_MESSAGE`. -/
def endMessage : Json := .obj [(str "end", .bool true)]

/-- `is_final_item(item)`. -/
def isFinalItem : Json → Bool
  | .obj members =>
      match Json.lookup members (str "end") with
      | none | some .null => false
      | some _ => true
  | _ => false

/-- `async for` over a queue that these items are put on, and no others: what it
iterates over, or nothing if it waits for another item. -/
def iterate : List Json → Option (List Json)
  | [] => none
  | item :: rest => if isFinalItem item then some [] else (iterate rest).map (item :: ·)

/-- The attributes of the session, the flag of the queue and the work-done event,
as far as the end of the run depends on them. -/
structure Locals where
  frontMan : Bool
  lastMessageSent : Bool
  lastItemSent : Bool
  workDone : Bool

/-- The attributes as a session starts, with a queue that is new or was reset. -/
def Locals.initial : Locals := ⟨false, false, false, false⟩

/-- A piece of a chat session, with what it puts on the queue. -/
abbrev Chatting (α : Type) := Flow Json Locals α

/-- `put(item, synchronous=True)`, where the queue itself may raise. -/
def put (item : Json) (raised : Option PyError) : Chatting Unit := do
  let locals ← readLocals
  if locals.lastItemSent then pure ()
  else
    perform raised
    emit item

/-- `put_final_item(synchronous=True)`. -/
def putFinalItem (raised : Option PyError) : Chatting Unit := do
  let locals ← readLocals
  if locals.lastItemSent then pure ()
  else
    assign fun locals => { locals with lastItemSent := true }
    perform raised
    emit endMessage

/-! ## Journals -/

/-- The `outgoing_dict` of a message. -/
def outgoingDict (messageDict : Json) : Json := .obj [(str "response", messageDict)]

/-- A message that is written to the journal: what converting, filtering and
processing it give, and whether putting it and keeping it for the trace return. -/
structure Writing where
  toDict : Except PyError Json
  allowMessage : Except PyError Bool
  processMessage : Except PyError Json
  put : Option PyError
  traceSource : Option PyError

/-- `write_message(message, origin)` of an `InterceptingJournal` around a
`MessageJournal`. -/
def writeMessage (writing : Writing) : Chatting Unit := do
  let _ ← call writing.toDict
  let allowed ← call writing.allowMessage
  if allowed then
    let messageDict ← call writing.processMessage
    put (outgoingDict messageDict) writing.put
  else pure ()
  perform writing.traceSource

/-- What a call into the agents does: the messages it journals, and how it ends. -/
structure Activity where
  messages : List Json
  raised : Option PyError

/-- The messages of an activity reach the queue one after the other. -/
def journalAll : List Json → Chatting Unit
  | [] => pure ()
  | messageDict :: rest => do
      put (outgoingDict messageDict) none
      journalAll rest

def Activity.carryOut (activity : Activity) : Chatting Unit := do
  journalAll activity.messages
  perform activity.raised

/-! ## `DataDrivenChatSession` -/

/-- A message that is to be the last: what building it, writing it and putting the
final item do. -/
structure LastMessage where
  build : Option PyError
  writing : Writing
  putFinalItem : Option PyError

/-- `finalize_request(message)`. -/
def finalizeRequest (message : LastMessage) : Chatting Unit := do
  let locals ← readLocals
  if locals.lastMessageSent then pure ()
  else
    assign fun locals => { locals with lastMessageSent := true }
    writeMessage message.writing
    putFinalItem message.putFinalItem

/-- A message is built, and finalizes the request. -/
def LastMessage.send (message : LastMessage) : Chatting Unit := do
  perform message.build
  finalizeRequest message

/-- `set_up(invocation_context, sly_data, chat_context)`. -/
structure SettingUp where
  updateSlyData : Option PyError
  createRunContext : Option PyError
  createFrontMan : Option PyError
  createAnyResources : Activity

def SettingUp.setUp (settingUp : SettingUp) : Chatting Unit := do
  perform settingUp.updateSlyData
  perform settingUp.createRunContext
  perform settingUp.createFrontMan
  assign fun locals => { locals with frontMan := true }
  settingUp.createAnyResources.carryOut

/-- A run of `streaming_chat`. `isPatienceError` tells the `PATIENCE_ERRORS`. -/
structure Run where
  effectiveInvocation : PyStr
  -- streaming_chat
  addResource : Option PyError
  findFrontMan : Option PyError
  inputMessage : Option PyError
  inputMessageForShow : Option PyError
  createTracingContext : Option PyError
  tracingStarts : Option PyError
  tracingEnds : Option PyError
  -- run_it
  eventAcknowledge : LastMessage
  settingUp : SettingUp
  setUpError : LastMessage
  prepareChatContext : Option PyError
  processAnswer : Option PyError
  redactSlyData : Option PyError
  answer : LastMessage
  -- chat
  settingUpAgain : SettingUp
  updateInvocationContext : Option PyError
  submitMessage : Activity
  isPatienceError : Bool
  logPatienceError : Option PyError
  convertMessages : Option PyError

namespace Run

variable (run : Run)

def isEvent : Bool := run.effectiveInvocation = str "event"

/-- `chat(user_input, invocation_context, sly_data)`. -/
def chat : Chatting Unit := do
  let locals ← readLocals
  if !locals.frontMan then run.settingUpAgain.setUp
  else perform run.updateInvocationContext
  tryExcept run.submitMessage.carryOut fun e =>
    if run.isPatienceError then perform run.logPatienceError else raise e
  perform run.convertMessages

/-- An event is acknowledged at the start of `run_it`. -/
def acknowledgeEvent : Chatting Unit :=
  if run.isEvent then run.eventAcknowledge.send else pure ()

/-- The set-up in `run_it`, and whether that goes on. -/
def setUpOnce : Chatting Bool := do
  let locals ← readLocals
  if locals.frontMan then pure true
  else
    tryExcept (do run.settingUp.setUp; pure true) fun e =>
      if e.isValueError then (do run.setUpError.send; pure false) else raise e

/-- The part of `run_it` from the chat on. -/
def respond : Chatting Unit := do
  run.chat
  perform run.prepareChatContext
  perform run.processAnswer
  perform run.redactSlyData
  run.answer.send

/-- `run_it(inputs)`. -/
def runIt : Chatting Unit := do
  run.acknowledgeEvent
  let goesOn ← run.setUpOnce
  if goesOn then run.respond else pure ()

/-- `streaming_chat(user_input, invocation_context, sly_data, chat_context)`. The
tracing context runs `run_it` once. -/
def streamingChat : Chatting Unit := do
  perform run.addResource
  perform run.findFrontMan
  perform run.inputMessage
  perform run.inputMessageForShow
  perform run.createTracingContext
  tryFinally
    (do perform run.tracingStarts
        run.runIt
        perform run.tracingEnds)
    (assign fun locals => { locals with workDone := true })

/-- What the queue has received when the run has terminated. -/
def received : List Json := (run.streamingChat.run .initial).events

end Run

end NoraFleet.Chat
