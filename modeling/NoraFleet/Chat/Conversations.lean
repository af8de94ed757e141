import Mathlib
import NoraFleet.Base.Retention
import NoraFleet.Chat.HistoryProcessor
import NoraFleet.Messages.MessageJournal
import NoraFleet.Messages.Origins
import NoraFleet.Messages.TextRoundTrip

/-!
# Conversations over several requests

A server keeps nothing between two requests of a conversation. The last message of the first
one has a chat context, which the client sends back with the second, to whichever server has
the same network; the front man there finds its origin in it, and begins with these messages.

What a model reads has then been written down and read in again for every turn before. A turn
that breaks leaves the client with an empty chat context, unless it left it without a response.

* `processMessages_of_unsystematic` — what is handed out where no message is of the system;
* `Remembers.exchange` — what one exchange does to what is remembered;
* `conversation_remembered` — what a model knows of a conversation.
-/

namespace NoraFleet.Messages

open Base
open Base.Json (Members)

/-- The dictionary of a message as it is sent, with its type as a number. -/
def ChatMessage.sent (m : ChatMessage) : Members :=
  (str "type", .int m.type.value) ::
    ((m.origin.map fun origin => (str "origin", .arr (origin.map .obj))).toList ++
      (m.text.map fun text => (str "text", .str text)).toList ++
      (m.chatContext.map fun chatContext => (str "chat_context", .obj chatContext)).toList ++
      (m.toolResultOrigin.map fun origin =>
        (str "tool_result_origin", .arr (origin.map .obj))).toList ++
      (m.struct.map fun struct => (str "structure", .obj struct)).toList ++
      (m.slyData.map fun slyData => (str "sly_data", .obj slyData.items)).toList)

namespace BaseMessageDictionaryConverter

/-- `to_dict(message)` of what a human or the model says. -/
def historyDict (origin : List Members) (message : BaseMessage) : Except PyError ChatMessage :=
  match textValue message.content with
  | .error e => .error e
  | .ok .null =>
      .ok ⟨ChatMessageType.fromMessage message, some origin, none, none, none, none, none⟩
  | .ok (.str text) =>
      .ok ⟨ChatMessageType.fromMessage message, some origin, some text, none, none, none, none⟩
  -- what is no text raises where its braces are to be escaped
  | .ok _ => .error .attributeError

end BaseMessageDictionaryConverter

/-- What `write_message` adds to a chat history. -/
def recorded (message : BaseMessage) : Option BaseMessage :=
  if BaseMessageDictionaryConverter.isRelevantToChatHistory message then
    match message with
    | .agentToolResult content _ => some (.ai content)
    | .system _ => none
    | message => some message
  else none

theorem LangChainRunContext.writeMessage_eq (chatHistory : List BaseMessage)
    (message : BaseMessage) :
    writeMessage chatHistory message = chatHistory ++ (recorded message).toList := by
  unfold writeMessage recorded
  cases message <;> simp [BaseMessageDictionaryConverter.isRelevantToChatHistory]

theorem fromMessage_recorded {message kept : BaseMessage} (h : recorded message = some kept) :
    ChatMessageType.fromMessage kept ≠ .system := by
  unfold recorded at h
  split at h
  case isTrue hrelevant =>
      cases message with
      | system content => cases h
      | human content => cases h; simp [ChatMessageType.fromMessage]
      | ai content => cases h; simp [ChatMessageType.fromMessage]
      | tool content => cases hrelevant
      | agent content struct => cases hrelevant
      | agentFramework content => cases hrelevant
      | agentToolResult content origin => cases h; simp [ChatMessageType.fromMessage]
      | agentProgress content struct => cases hrelevant
  case isFalse hrelevant => cases h

end NoraFleet.Messages

namespace NoraFleet.Chat

open Base Messages
open Base.Json (Members)
open LangChainRunContext (runInputs updateFromChatContext)

/-- What a network has for its front man. -/
structure FrontManSpec where
  name : PyStr
  instructions : PyStr
  maxMessageHistory : Json

/-- `get_origin()` of the front man. -/
def FrontManSpec.origin (spec : FrontManSpec) : List Members :=
  [[(str "tool", .str spec.name), (str "instantiation_index", .int 1)]]

/-- It is the first of a session that has its origin made. -/
theorem FrontManSpec.origin_eq (spec : FrontManSpec) :
    (Origination.addSpecNameToOrigin .empty (some []) (some spec.name)).2 =
      spec.origin.map .obj := rfl

/-! ## Requests -/

/-- What happens to the chat history in a run. -/
inductive HistoryStep where
  -- a message is written to the front man's journal
  | write (message : BaseMessage)
  -- `abefore_model` of a `NoraFleetSummarizationMiddleware` keeps a summary and newer messages
  | condense (messages : List BaseMessage)

/-- The chat history after a step. -/
def HistoryStep.apply (chatHistory : List BaseMessage) : HistoryStep → List BaseMessage
  | .write message => LangChainRunContext.writeMessage chatHistory message
  | .condense messages => messages

section Requests

variable (urls : Urls.NetlocCheck) (check : MessageCheck) (spec : FrontManSpec)

/-- The chat history of the front man, once its resources are created. Without one, its
instructions are written to its journal. -/
def setUp (chatContext : Json) : Except PyError (List BaseMessage) :=
  match updateFromChatContext urls check (.arr (spec.origin.map .obj)) [] chatContext with
  | .error e => .error e
  | .ok chatHistory =>
      match Origination.getFullNameFromOrigin urls (.arr (spec.origin.map .obj)) with
      | .error e => .error e
      | .ok _ =>
          if chatHistory.isEmpty then
            .ok (LangChainRunContext.writeMessage chatHistory (.system (.str spec.instructions)))
          else .ok chatHistory

/-- The messages that `wait_on_run` gives to the agent. -/
def modelInputs (chatContext : Json) (userInput : PyStr) : Except PyError (List BaseMessage) :=
  match setUp urls check spec chatContext with
  | .error e => .error e
  | .ok chatHistory =>
      match check (.human (.str userInput)) with
      | some e => .error e
      | none => .ok (runInputs chatHistory (.str userInput))

/-- `chat(user_input)`: the dictionaries of the chat history after a run. -/
def chat (chatContext : Json) (userInput : PyStr) (steps : List HistoryStep) :
    Except PyError (List ChatMessage) :=
  match setUp urls check spec chatContext with
  | .error e => .error e
  | .ok chatHistory =>
      match check (.human (.str userInput)) with
      | some e => .error e
      | none =>
          ((HistoryStep.write (.human (.str userInput)) :: steps).foldl HistoryStep.apply
            chatHistory).mapM (BaseMessageDictionaryConverter.historyDict spec.origin)

/-- What `chat` has for one of `PATIENCE_ERRORS`. -/
def patienceMessage : ChatMessage :=
  ⟨.agentFramework, some spec.origin, some (str "Patience, please. I'm working on it."), some [],
    none, none, none⟩

/-- `chat(user_input)`, where the run raises one of these. -/
def chatImpatiently (chatContext : Json) : Except PyError (List ChatMessage) :=
  (setUp urls check spec chatContext).map fun _ => [patienceMessage spec]

/-- A chat context that has these messages. -/
def contextOf (messages : List ChatMessage) : Members :=
  [(str "chat_histories", .arr [.obj [
    (str "origin", .arr (spec.origin.map .obj)),
    (str "messages", .arr (messages.map fun m => .obj m.sent))]])]

/-- `prepare_chat_context(chat_message_history)`. -/
def prepareChatContext (chatMessageHistory : List ChatMessage) : Except PyError Members :=
  match ChatHistoryMessageProcessor.create spec.maxMessageHistory with
  | .error e => .error e
  | .ok processor =>
      (ChatHistoryMessageProcessor.processMessages processor chatMessageHistory).map
        fun processed =>
        contextOf spec processed.messageHistory

end Requests

/-! ## Turns -/

section Turns

variable (loads : RepairLoads) (messageProcessor : Option (List Json))

/-- What journals write apart from the last message of a request: no chat context has anything
in it. -/
structure Streamed where
  writes : List MessageJournal.Write
  withoutContext : ∀ write ∈ writes, write.message.chatContext.getD [] = []

/-- What a request streams that comes to its end: its last message can be sent. -/
structure Outgoing extends Streamed where
  answer : PyStr
  slyData : Option SlyData
  struct : Option Members
  sent : ∀ chatContext : Members, ∃ m, MessageJournal.processed loads messageProcessor
    ⟨.agentFramework, none, some answer, some chatContext, none, struct, slyData⟩ = .ok m

/-- The content of a message has a text, or nothing to read one from. -/
def Readable (message : BaseMessage) : Prop :=
  BaseMessageDictionaryConverter.textValue message.content = .ok .null ∨
    ∃ text, BaseMessageDictionaryConverter.textValue message.content = .ok (.str text)

/-- The messages that a step puts into the chat history can be read, and the instructions are
not among those that are kept with a summary. -/
def HistoryStep.Readable : HistoryStep → Prop
  | .write message => ∀ kept, recorded message = some kept → Chat.Readable kept
  | .condense messages => ∀ message ∈ messages, Chat.Readable message ∧
      ChatMessageType.fromMessage message ≠ .system

/-- What a run does to the chat history, of which everything can be read. -/
structure FrontManRun where
  steps : List HistoryStep
  readable : ∀ step ∈ steps, step.Readable

/-- What becomes of a request. -/
inductive Turn where
  -- the run ends, and its answer is sent
  | completed (userInput : PyStr) (run : FrontManRun) (outgoing : Outgoing loads messageProcessor)
  -- the run raises one of `PATIENCE_ERRORS`, and the answer asks for patience
  | impatient (outgoing : Outgoing loads messageProcessor)
  -- all other exceptions, those that are answered too, and events that are acknowledged
  | broken (streamed : Streamed)

end Turns

section Exchanges

variable (urls : Urls.NetlocCheck) (check : MessageCheck) (loads : RepairLoads)
  (messageFilter : MessageFilter) (messageProcessor : Option (List Json)) (spec : FrontManSpec)

/-- What arrives of a request, once it is clear what its chat context is to be. -/
def respond (outgoing : Outgoing loads messageProcessor) :
    Except PyError Members → List ChatMessage
  | .error _ => MessageJournal.streamOf loads messageFilter messageProcessor outgoing.writes
  | .ok chatContext =>
      MessageJournal.streamOf loads messageFilter messageProcessor
        (DataDrivenChatSession.endedBy
          (AgentFrameworkMessage.make outgoing.answer (some chatContext) outgoing.slyData
            outgoing.struct) outgoing.writes)

/-- `streaming_chat(request_dict)`. -/
def streamingChat (chatContext : Json) : Turn loads messageProcessor → List ChatMessage
  | .completed userInput run outgoing =>
      respond loads messageFilter messageProcessor outgoing
        ((chat urls check spec chatContext userInput run.steps).bind (prepareChatContext spec))
  | .impatient outgoing =>
      respond loads messageFilter messageProcessor outgoing
        ((chatImpatiently urls check spec chatContext).bind (prepareChatContext spec))
  | .broken streamed => MessageJournal.streamOf loads messageFilter messageProcessor streamed.writes

/-- The chat context of a request, of `formulate_chat_request`: one with nothing in it is left
out. -/
def requested (chatContext : Members) : Json :=
  match chatContext with
  | [] => .null
  | member :: rest => .obj (member :: rest)

/-- `get_chat_context()` of the client's processor, after the responses. -/
def reported (chatContext : Members) (chatResponses : List ChatMessage) : Members :=
  match BasicMessageProcessor.report loads chatResponses with
  | .ok report => report.chatContext
  | .error _ => chatContext

/-- The chat context of a client after the responses, of `process_once`. Without any, it is as
it was. -/
def received (chatContext : Members) (chatResponses : List ChatMessage) : Members :=
  if chatResponses.isEmpty then chatContext else reported loads chatContext chatResponses

/-- `process_once(state)`, as far as the chat context goes. -/
def processOnce (chatContext : Members) (turn : Turn loads messageProcessor) : Members :=
  received loads chatContext
    (streamingChat urls check loads messageFilter messageProcessor spec
      (requested chatContext) turn)

end Exchanges

/-! ## What is remembered -/

/-- What a human or the model says. -/
inductive Remark where
  | human (text : PyStr)
  | ai (text : PyStr)

namespace Remark

/-- Its text with the braces escaped. -/
def escape : Remark → Remark
  | .human text => .human (ChatHistoryMessageProcessor.escapeText text)
  | .ai text => .ai (ChatHistoryMessageProcessor.escapeText text)

/-- As the model reads it. -/
def message : Remark → BaseMessage
  | .human text => .human (.str text)
  | .ai text => .ai (.str text)

/-- As a chat context has it. -/
def entry (spec : FrontManSpec) : Remark → ChatMessage
  | .human text => ⟨.human, some spec.origin, some text, none, none, none, none⟩
  | .ai text => ⟨.ai, some spec.origin, some text, none, none, none, none⟩

end Remark

/-- The text that is handed out of a content. -/
def textIn (content : Json) : Option PyStr :=
  match BaseMessageDictionaryConverter.textValue content with
  | .ok (.str text) => some text
  | _ => none

/-- What a message in a chat history says. -/
def remarkOf : BaseMessage → Option Remark
  | .human content => (textIn content).map .human
  | .ai content => (textIn content).map .ai
  | _ => none

/-- What was said, after a step of a run. The results of tools are said by the model. -/
def hearStep (remarks : List Remark) : HistoryStep → List Remark
  | .write message => remarks ++ ((recorded message).bind remarkOf).toList
  | .condense messages => messages.filterMap remarkOf

/-- A maximum from which on the history is trimmed. -/
def trims : Option ℤ → Bool
  | none => false
  | some n => decide (1 < n)

/-- The history that is kept: all of it, or the first message and the newest of the others. -/
def keepOf {α : Type*} : Option ℤ → List α → List α
  | none, history => history
  | some n, history => if 1 < n then headAndNewest n.toNat history else history

/-- What is remembered of all that was said. -/
def remembered (maximum : Option ℤ) (remarks : List Remark) : List Remark :=
  keepOf maximum (remarks.map Remark.escape)

section Hearing

variable (loads : RepairLoads) (messageFilter : MessageFilter)
  (messageProcessor : Option (List Json)) (maximum : Option ℤ)

/-- All is forgotten by a turn that breaks, unless nothing is streamed. -/
def heardBroken (remarks : List Remark) (writes : List MessageJournal.Write) : List Remark :=
  if (MessageJournal.streamOf loads messageFilter messageProcessor writes).isEmpty then remarks
  else []

/-- What there is to be remembered after a turn. A plea for patience is not, and where the
history is trimmed there has to be something that was said, or else the turn breaks. -/
def hear (remarks : List Remark) : Turn loads messageProcessor → List Remark
  | .completed userInput run outgoing =>
      let heard := run.steps.foldl hearStep (remarks ++ [.human userInput])
      if trims maximum && heard.isEmpty then
        heardBroken loads messageFilter messageProcessor remarks outgoing.writes
      else heard
  | .impatient outgoing =>
      if trims maximum then
        heardBroken loads messageFilter messageProcessor remarks outgoing.writes
      else []
  | .broken streamed => heardBroken loads messageFilter messageProcessor remarks streamed.writes

end Hearing

/-! ### What is said in a run -/

/-- A chat history says what was said: its messages can be read, and none of them instructs. -/
structure Tells (chatHistory : List BaseMessage) (remarks : List Remark) : Prop where
  readable : ∀ message ∈ chatHistory, Readable message ∧
    ChatMessageType.fromMessage message ≠ .system
  remarks : chatHistory.filterMap remarkOf = remarks

theorem tells_message (remarks : List Remark) : Tells (remarks.map Remark.message) remarks where
  readable message hmessage := by
    obtain ⟨remark, -, rfl⟩ := List.mem_map.mp hmessage
    cases remark with
    | human text => exact ⟨.inr ⟨text, rfl⟩, by simp [Remark.message, ChatMessageType.fromMessage]⟩
    | ai text => exact ⟨.inr ⟨text, rfl⟩, by simp [Remark.message, ChatMessageType.fromMessage]⟩
  remarks := by
    have hremark : remarkOf ∘ Remark.message = some := by
      funext remark
      cases remark <;> rfl
    rw [List.filterMap_map, hremark, List.filterMap_some]

/-- A step of a run. -/
theorem Tells.apply {chatHistory : List BaseMessage} {remarks : List Remark}
    (h : Tells chatHistory remarks) {step : HistoryStep} (hstep : step.Readable) :
    Tells (step.apply chatHistory) (hearStep remarks step) := by
  cases step with
  | write message =>
      show Tells (LangChainRunContext.writeMessage chatHistory message) _
      rw [LangChainRunContext.writeMessage_eq]
      constructor
      · intro kept hkept
        rcases List.mem_append.mp hkept with hold | hnew
        · exact h.readable kept hold
        · have hrecorded := Option.mem_toList.mp hnew
          exact ⟨hstep kept hrecorded, fromMessage_recorded hrecorded⟩
      · rw [List.filterMap_append, h.remarks]
        show _ = remarks ++ ((recorded message).bind remarkOf).toList
        cases recorded message with
        | none => rfl
        | some kept => cases hkept : remarkOf kept <;> simp [hkept]
  | condense messages => exact ⟨hstep, rfl⟩

/-- All steps of a run. -/
theorem Tells.foldl {chatHistory : List BaseMessage} {remarks : List Remark}
    (h : Tells chatHistory remarks) {steps : List HistoryStep}
    (hsteps : ∀ step ∈ steps, step.Readable) :
    Tells (steps.foldl HistoryStep.apply chatHistory) (steps.foldl hearStep remarks) := by
  induction steps generalizing chatHistory remarks with
  | nil => exact h
  | cons step rest ih =>
      rw [List.forall_mem_cons] at hsteps
      exact ih (h.apply hsteps.1) hsteps.2

/-- A run adds to what was said, or there is only what it leaves. -/
theorem foldl_hearStep_cases (steps : List HistoryStep) :
    (∃ new, ∀ remarks, steps.foldl hearStep remarks = remarks ++ new) ∨
      ∃ left, ∀ remarks, steps.foldl hearStep remarks = left := by
  induction steps with
  | nil => exact .inl ⟨[], fun remarks => (List.append_nil remarks).symm⟩
  | cons step rest ih =>
      rcases ih with ⟨new, hnew⟩ | ⟨left, hleft⟩
      · cases step with
        | write message =>
            left
            refine ⟨((recorded message).bind remarkOf).toList ++ new, fun remarks => ?_⟩
            rw [List.foldl_cons, hnew]
            exact List.append_assoc _ _ _
        | condense messages =>
            right
            exact ⟨messages.filterMap remarkOf ++ new, fun remarks => hnew _⟩
      · right
        exact ⟨left, fun remarks => hleft _⟩

/-! ### Keeping -/

/-- A history is trimmed, or all of it is kept. -/
theorem keepOf_cases (α : Type*) (maximum : Option ℤ) :
    (∃ n, maximum = some n ∧ 1 < n ∧
      (keepOf maximum : List α → List α) = headAndNewest n.toNat) ∨
    (trims maximum = false ∧ (keepOf maximum : List α → List α) = id) := by
  cases maximum with
  | none => exact .inr ⟨rfl, rfl⟩
  | some n =>
      by_cases hn : 1 < n
      · exact .inl ⟨n, rfl, hn, funext fun history => if_pos hn⟩
      · exact .inr ⟨decide_eq_false hn, funext fun history => if_neg hn⟩

theorem map_keepOf {α β : Type*} (maximum : Option ℤ) (change : α → β) (history : List α) :
    (keepOf maximum history).map change = keepOf maximum (history.map change) := by
  cases maximum with
  | none => rfl
  | some n =>
      unfold keepOf
      dsimp only
      rw [apply_ite (List.map change), map_headAndNewest]

theorem retains_keepOf {α : Type*} (maximum : Option ℤ) :
    Retains (keepOf maximum : List α → List α) := by
  rcases keepOf_cases α maximum with ⟨n, -, -, hkeep⟩ | ⟨-, hkeep⟩
  · rw [hkeep]
    exact retains_headAndNewest n.toNat
  · rw [hkeep]
    exact retains_id

theorem Remark.escape_escape (remark : Remark) : remark.escape.escape = remark.escape := by
  cases remark with
  | human text =>
      exact congrArg Remark.human (ChatHistoryMessageProcessor.escapeText_escapeText text)
  | ai text => exact congrArg Remark.ai (ChatHistoryMessageProcessor.escapeText_escapeText text)

theorem retains_remembered (maximum : Option ℤ) : Retains (remembered maximum) :=
  (retains_keepOf maximum).map Remark.escape_escape (map_keepOf maximum Remark.escape)

theorem remembered_nil (maximum : Option ℤ) : remembered maximum [] = [] := by
  unfold remembered
  rcases keepOf_cases Remark maximum with ⟨n, -, -, hkeep⟩ | ⟨-, hkeep⟩
  · rw [hkeep]
    rfl
  · rw [hkeep]
    rfl

theorem remembered_eq_nil_iff (maximum : Option ℤ) (remarks : List Remark) :
    remembered maximum remarks = [] ↔ remarks = [] := by
  constructor
  · intro h
    unfold remembered at h
    rcases keepOf_cases Remark maximum with ⟨n, -, -, hkeep⟩ | ⟨-, hkeep⟩
    · rw [hkeep] at h
      cases remarks with
      | nil => rfl
      | cons remark rest => cases h
    · rw [hkeep] at h
      exact List.map_eq_nil_iff.mp h
  · rintro rfl
    exact remembered_nil maximum

/-- What is remembered after a run does not depend on what was forgotten before it. -/
theorem remembered_foldl_hearStep (maximum : Option ℤ) (remarks : List Remark) (remark : Remark)
    (steps : List HistoryStep) :
    remembered maximum (steps.foldl hearStep (remembered maximum remarks ++ [remark])) =
      remembered maximum (steps.foldl hearStep (remarks ++ [remark])) := by
  rcases foldl_hearStep_cases steps with ⟨new, hnew⟩ | ⟨left, hleft⟩
  · rw [hnew, hnew, List.append_assoc, List.append_assoc, retains_remembered]
  · rw [hleft, hleft]

theorem length_remembered_le {n : ℤ} (hn : 1 < n) (remarks : List Remark) :
    (remembered (some n) remarks).length ≤ n.toNat + 1 := by
  have hkeep : remembered (some n) remarks =
      headAndNewest n.toNat (remarks.map Remark.escape) := if_pos hn
  rw [hkeep]
  exact length_headAndNewest_le n.toNat _

/-! ### What is handed out -/

section HandedOut

variable (spec : FrontManSpec)

/-- The dictionary of a message that can be read. -/
def dictOf (message : BaseMessage) : ChatMessage :=
  ⟨ChatMessageType.fromMessage message, some spec.origin, textIn message.content, none, none, none,
    none⟩

theorem historyDict_of_readable {message : BaseMessage} (h : Readable message) :
    BaseMessageDictionaryConverter.historyDict spec.origin message = .ok (dictOf spec message) := by
  unfold BaseMessageDictionaryConverter.historyDict dictOf textIn
  rcases h with hnull | ⟨text, htext⟩
  · rw [hnull]
  · rw [htext]

/-- What is handed out of a message is what it says, with the braces escaped. -/
theorem escapedOf_dictOf {message : BaseMessage}
    (hsystem : ChatMessageType.fromMessage message ≠ .system) :
    ChatHistoryMessageProcessor.escapedOf (dictOf spec message) =
      (remarkOf message).map fun remark => remark.escape.entry spec := by
  have hspoken : ∀ content type, (type = .human ∨ type = .ai) →
      ChatHistoryMessageProcessor.escapedOf
        ⟨type, some spec.origin, textIn content, none, none, none, none⟩ =
      (textIn content).map fun text => ⟨type, some spec.origin,
        some (ChatHistoryMessageProcessor.escapeText text), none, none, none, none⟩ := by
    intro content type htype
    unfold ChatHistoryMessageProcessor.escapedOf ChatHistoryMessageProcessor.escapeMessage
    rw [if_pos (by rcases htype with rfl | rfl <;> rfl)]
  cases message with
  | human content =>
      show ChatHistoryMessageProcessor.escapedOf ⟨.human, _, textIn content, _, _, _, _⟩ = _
      rw [hspoken content .human (.inl rfl), remarkOf, Option.map_map]
      rfl
  | ai content =>
      show ChatHistoryMessageProcessor.escapedOf ⟨.ai, _, textIn content, _, _, _, _⟩ = _
      rw [hspoken content .ai (.inr rfl), remarkOf, Option.map_map]
      rfl
  | system content => exact absurd rfl hsystem
  -- the others cannot be ingested again
  | tool content => rfl
  | agent content struct => rfl
  | agentFramework content => rfl
  | agentToolResult content origin => rfl
  | agentProgress content struct => rfl

/-- Where no message is of the system, what is handed out is the first of the messages that
say something, and the newest of the others. -/
theorem processMessages_of_unsystematic (maximum : Option ℤ) {messages : List ChatMessage}
    (hsystem : ∀ m ∈ messages, ChatHistoryMessageProcessor.isSystem m = false)
    (hsome : trims maximum = true →
      messages.filterMap ChatHistoryMessageProcessor.escapedOf ≠ []) :
    (ChatHistoryMessageProcessor.processMessages { maxMessageHistory := maximum } messages).map
        ChatHistoryMessageProcessor.messageHistory =
      .ok (keepOf maximum (messages.filterMap ChatHistoryMessageProcessor.escapedOf)) := by
  have hkept := ChatHistoryMessageProcessor.kept_of_not_isSystem hsystem
  rcases keepOf_cases ChatMessage maximum with ⟨n, rfl, hn, hkeep⟩ | ⟨htrims, hkeep⟩
  · rw [ChatHistoryMessageProcessor.processMessages_eq n hn, hkept, hkeep]
    cases hmessages : messages.filterMap ChatHistoryMessageProcessor.escapedOf with
    | nil => exact absurd hmessages (hsome (decide_eq_true hn))
    | cons first rest => rfl
  · obtain ⟨hhistory, hmax⟩ := ChatHistoryMessageProcessor.foldl_processMessage
      { maxMessageHistory := maximum } messages rfl
    rw [hkept, List.nil_append] at hhistory
    unfold ChatHistoryMessageProcessor.processMessages
    dsimp only
    rw [hmax, hkeep]
    cases maximum with
    | none => exact congrArg Except.ok hhistory
    | some n =>
        have hn : n ≤ 1 := not_lt.mp (of_decide_eq_false htrims)
        dsimp only
        rw [if_pos hn]
        exact congrArg Except.ok hhistory

/-- The chat context that is made of these. -/
theorem prepareChatContext_of_unsystematic {maximum : Option ℤ}
    (hmax : ChatHistoryMessageProcessor.maxOf spec.maxMessageHistory = .ok maximum)
    {messages : List ChatMessage}
    (hsystem : ∀ m ∈ messages, ChatHistoryMessageProcessor.isSystem m = false)
    (hsome : trims maximum = true →
      messages.filterMap ChatHistoryMessageProcessor.escapedOf ≠ []) :
    prepareChatContext spec messages = .ok (contextOf spec
      (keepOf maximum (messages.filterMap ChatHistoryMessageProcessor.escapedOf))) := by
  obtain ⟨processed, hprocessed, hhistory⟩ :=
    exists_of_map_eq_ok (processMessages_of_unsystematic maximum hsystem hsome)
  unfold prepareChatContext ChatHistoryMessageProcessor.create
  rw [hmax]
  show (ChatHistoryMessageProcessor.processMessages { maxMessageHistory := maximum } messages).map
    (fun processed => contextOf spec processed.messageHistory) = _
  rw [hprocessed]
  exact congrArg (fun history => Except.ok (contextOf spec history)) hhistory

/-- A history of which nothing can be handed out cannot be trimmed. -/
theorem prepareChatContext_raises {maximum : Option ℤ}
    (hmax : ChatHistoryMessageProcessor.maxOf spec.maxMessageHistory = .ok maximum)
    (htrims : trims maximum = true) {messages : List ChatMessage}
    (hkept : ChatHistoryMessageProcessor.kept messages = []) :
    ∃ e, prepareChatContext spec messages = .error e := by
  rcases keepOf_cases ChatMessage maximum with ⟨n, rfl, hn, -⟩ | ⟨hkeeps, -⟩
  · have hprocessed := ChatHistoryMessageProcessor.processMessages_eq n hn messages
    rw [hkept] at hprocessed
    unfold prepareChatContext ChatHistoryMessageProcessor.create
    rw [hmax]
    show ∃ e, (ChatHistoryMessageProcessor.processMessages { maxMessageHistory := some n }
      messages).map (fun processed => contextOf spec processed.messageHistory) = .error e
    cases hout : ChatHistoryMessageProcessor.processMessages { maxMessageHistory := some n }
        messages with
    | error e => exact ⟨e, rfl⟩
    | ok processed =>
        rw [hout] at hprocessed
        cases hprocessed
  · rw [htrims] at hkeeps
    cases hkeeps

end HandedOut

/-! ### What is read again -/

section ReadAgain

variable {urls : Urls.NetlocCheck} {check : MessageCheck} (spec : FrontManSpec)

/-- The dictionary of what is said is the one of its message. -/
theorem toJsonDict_message (remark : Remark) :
    BaseMessageDictionaryConverter.toJsonDict (fun _ _ => .null) (.arr (spec.origin.map .obj))
      remark.message = .ok (remark.entry spec).sent := by
  cases remark <;> rfl

/-- A message of a chat context is read as what it says. -/
theorem fromDict_entry (htexts : BaseMessageDictionaryConverter.AcceptsText check)
    (remark : Remark) :
    BaseMessageDictionaryConverter.fromDict check true (.obj (remark.entry spec).sent) =
      .ok (some remark.message) := by
  have htype : ∀ type : ChatMessageType, (remark.entry spec).type = type →
      ChatMessageType.fromResponseType
        (BaseMessageDictionaryConverter.field (remark.entry spec).sent "type") = .ok type := by
    rintro type rfl
    unfold ChatMessage.sent
    rw [BaseMessageDictionaryConverter.field_type, ChatMessageType.fromResponseType_value]
  have htext : ∀ text, remark.message.content = .str text →
      BaseMessageDictionaryConverter.field (remark.entry spec).sent "text" = .str text := by
    intro text hcontent
    refine BaseMessageDictionaryConverter.field_text ?_ (toJsonDict_message spec remark)
    rw [hcontent]
    rfl
  cases remark with
  | human text =>
      rw [BaseMessageDictionaryConverter.fromDict_obj (htype .human rfl)]
      show BaseMessage.make check (.human _) = _
      rw [htext text rfl]
      exact BaseMessageDictionaryConverter.make_eq_ok.mpr ⟨htexts _ text rfl rfl, rfl⟩
  | ai text =>
      rw [BaseMessageDictionaryConverter.fromDict_obj (htype .ai rfl)]
      show BaseMessage.make check (.ai _) = _
      rw [htext text rfl]
      exact BaseMessageDictionaryConverter.make_eq_ok.mpr ⟨htexts _ text rfl rfl, rfl⟩

/-- The messages of a chat context are read as what they say. -/
theorem convertMessages_entries
    (htexts : BaseMessageDictionaryConverter.AcceptsText check)
    (remarks : List Remark) :
    LangChainRunContext.convertMessages check
        (remarks.map fun remark => .obj (remark.entry spec).sent) =
      .ok (remarks.map Remark.message) := by
  have hmap : (remarks.map fun remark => Json.obj (remark.entry spec).sent).mapM
      (BaseMessageDictionaryConverter.fromDict check true) =
      .ok (remarks.map fun remark => some remark.message) := by
    rw [List.mapM_map]
    exact mapM_eq_ok_map fun remark _ => fromDict_entry spec htexts remark
  unfold LangChainRunContext.convertMessages
  rw [hmap]
  show Except.ok (List.filterMap id (remarks.map fun remark => some remark.message)) = _
  rw [List.filterMap_map]
  exact congrArg Except.ok (congrFun List.filterMap_eq_map remarks)

/-- The front man finds its messages in a chat context that was made for it. -/
theorem updateFromChatContext_contextOf
    (htexts : BaseMessageDictionaryConverter.AcceptsText check)
    {name : Option PyStr}
    (hname : Origination.getFullNameFromOrigin urls (.arr (spec.origin.map .obj)) = .ok name)
    (remarks : List Remark) :
    updateFromChatContext urls check (.arr (spec.origin.map .obj)) []
        (.obj (contextOf spec (remarks.map (Remark.entry spec)))) =
      .ok (remarks.map Remark.message) := by
  let history : Members := [
    (str "origin", .arr (spec.origin.map .obj)),
    (str "messages", .arr (remarks.map fun remark => .obj (remark.entry spec).sent))]
  have hhistories : LangChainRunContext.getOrEmpty
      (contextOf spec (remarks.map (Remark.entry spec))) "chat_histories" =
        .arr [.obj history] := by
    unfold LangChainRunContext.getOrEmpty contextOf
    rw [Json.lookup_cons, if_pos rfl, List.map_map]
    rfl
  have horigin : LangChainRunContext.getOrEmpty history "origin" =
      .arr (spec.origin.map .obj) := by
    unfold LangChainRunContext.getOrEmpty
    rw [Json.lookup_cons, if_pos rfl]
    rfl
  have hmessages : LangChainRunContext.getOrEmpty history "messages" =
      .arr (remarks.map fun remark => .obj (remark.entry spec).sent) := by
    have hne : ¬str "origin" = str "messages" := by decide
    unfold LangChainRunContext.getOrEmpty
    rw [Json.lookup_cons, if_neg hne, Json.lookup_cons, if_pos rfl]
    rfl
  rw [updateFromChatContext, hname]
  dsimp only
  rw [hhistories]
  show LangChainRunContext.searchHistories urls check name [] [.obj history] = _
  rw [LangChainRunContext.searchHistories_of_ours (by rw [horigin, hname]), hmessages]
  cases remarks with
  | nil => rfl
  | cons remark rest => exact convertMessages_entries spec htexts (remark :: rest)

end ReadAgain

/-! ### What arrives at the client -/

section Arriving

variable {loads : RepairLoads} {messageFilter : MessageFilter}
  {messageProcessor : Option (List Json)}

/-- Nothing that is put on the queue of such a write has anything in its chat context. -/
theorem chatContext_of_put {write : MessageJournal.Write} {m : ChatMessage}
    (hwrite : write.message.chatContext.getD [] = [])
    (hput : MessageJournal.put loads messageFilter messageProcessor write = some m) :
    m.chatContext.getD [] = [] := by
  unfold MessageJournal.put at hput
  cases hout : MessageJournal.writeMessage loads messageFilter messageProcessor write.message
      write.origin with
  | error e =>
      rw [hout] at hput
      cases hput
  | ok out =>
      rw [hout] at hput
      obtain rfl : out = some m := hput
      unfold MessageJournal.writeMessage BaseMessageDictionaryConverter.toDict at hout
      cases htext : BaseMessageDictionaryConverter.textOf write.message.content with
      | error e =>
          rw [htext] at hout
          cases hout
      | ok text =>
          rw [htext] at hout
          dsimp only at hout
          split at hout
          case isTrue hallow =>
              obtain ⟨sent, hsent, hsame⟩ := exists_of_map_eq_ok hout
              obtain rfl := Option.some.inj hsame
              rw [(MessageJournal.processed_keeps hsent).1]
              exact hwrite
          case isFalse hallow => cases hout

/-- Messages with nothing in their chat contexts leave nothing in the client's. -/
theorem foldl_withoutContext {stream : List ChatMessage}
    (h : ∀ m ∈ stream, m.chatContext.getD [] = []) {processor : ChatContextMessageProcessor}
    (hprocessor : processor.chatContext = []) :
    (stream.foldl ChatContextMessageProcessor.processMessage processor).chatContext = [] := by
  induction stream generalizing processor with
  | nil => exact hprocessor
  | cons m rest ih =>
      rw [List.forall_mem_cons] at h
      rw [List.foldl_cons]
      apply ih h.2
      unfold ChatContextMessageProcessor.processMessage
      split
      case isTrue hallow =>
          show m.chatContext.getD processor.chatContext = []
          rw [hprocessor]
          exact h.1
      case isFalse hallow => exact hprocessor

/-- The client's chat context has nothing in it after a request without a last message, if
something arrives. -/
theorem received_streamed (streamed : Streamed) (chatContext : Members) :
    received loads chatContext
        (MessageJournal.streamOf loads messageFilter messageProcessor streamed.writes) =
      if (MessageJournal.streamOf loads messageFilter messageProcessor
        streamed.writes).isEmpty then chatContext else [] := by
  have hnone : ∀ m ∈ MessageJournal.streamOf loads messageFilter messageProcessor streamed.writes,
      m.chatContext.getD [] = [] := by
    intro m hm
    obtain ⟨write, hwrite, hput⟩ := List.mem_filterMap.mp hm
    exact chatContext_of_put (streamed.withoutContext write hwrite) hput
  unfold received reported BasicMessageProcessor.report
  rw [BasicMessageProcessor.processMessages_eq]
  congr 1
  exact foldl_withoutContext hnone rfl

/-- The client's chat context is the one of the last message. -/
theorem received_respond
    (hfilter : messageFilter = MinimalMessageFilter.allowMessage ∨
      messageFilter = MaximalMessageFilter.allowMessage)
    (outgoing : Outgoing loads messageProcessor) (chatContext last : Members) :
    received loads chatContext
      (respond loads messageFilter messageProcessor outgoing (.ok last)) = last := by
  obtain ⟨m, hm⟩ := outgoing.sent last
  obtain ⟨hkept, hsome⟩ := MessageJournal.processed_keeps hm
  obtain ⟨text, htext⟩ := Option.isSome_iff_exists.mp (hsome rfl)
  have hfinal := @MessageJournal.put_final loads messageProcessor messageFilter hfilter
    outgoing.answer (some last) outgoing.slyData outgoing.struct
  rw [Option.getD_some, hm] at hfinal
  have hstream : respond loads messageFilter messageProcessor outgoing (.ok last) =
      MessageJournal.streamOf loads messageFilter messageProcessor outgoing.writes ++ [m] := by
    show MessageJournal.streamOf loads messageFilter messageProcessor (_ ++ [_]) = _
    unfold MessageJournal.streamOf
    rw [List.filterMap_append]
    congr 1
    rw [List.filterMap_cons_some (b := m)]
    · rfl
    · show (MessageJournal.writeMessage loads messageFilter messageProcessor _ none).toOption.join
        = some m
      rw [hfinal]
      rfl
  have hreport : ∀ stream, BasicMessageProcessor.report loads (stream ++ [m]) =
      .ok ⟨some text, m.struct, m.slyData.or (BasicMessageProcessor.slyDataOf stream), last⟩ := by
    intro stream
    apply BasicMessageProcessor.report_append_last loads (by rw [hkept]) (by rw [hkept]) htext
    rw [hkept]
  rw [hstream]
  unfold received reported
  rw [if_neg (by simp), hreport]

end Arriving

/-! ## One turn after the other -/

section Exchange

variable {urls : Urls.NetlocCheck} {check : MessageCheck} {loads : RepairLoads}
  {messageFilter : MessageFilter} {messageProcessor : Option (List Json)} {spec : FrontManSpec}
  {maximum : Option ℤ} {name : Option PyStr}

/-- What the front man reads of a chat context is what is remembered of what was said. -/
def Remembers (urls : Urls.NetlocCheck) (check : MessageCheck) (spec : FrontManSpec)
    (maximum : Option ℤ) (chatContext : Members) (remarks : List Remark) : Prop :=
  updateFromChatContext urls check (.arr (spec.origin.map .obj)) [] (requested chatContext) =
    .ok ((remembered maximum remarks).map Remark.message)

/-- The instructions are in no chat history. -/
theorem Remembers.setUp {chatContext : Members} {remarks : List Remark}
    (h : Remembers urls check spec maximum chatContext remarks)
    (hname : Origination.getFullNameFromOrigin urls (.arr (spec.origin.map .obj)) = .ok name) :
    Chat.setUp urls check spec (requested chatContext) =
      .ok ((remembered maximum remarks).map Remark.message) := by
  unfold Chat.setUp
  rw [h, hname]
  dsimp only
  split
  case isTrue hempty =>
      rw [LangChainRunContext.writeMessage_eq]
      exact congrArg Except.ok (List.append_nil _)
  case isFalse hsome => rfl

/-- What a chat hands out is what is remembered, with what is said now. -/
theorem Remembers.chat {chatContext : Members} {remarks : List Remark}
    (h : Remembers urls check spec maximum chatContext remarks)
    (htexts : BaseMessageDictionaryConverter.AcceptsText check)
    (hname : Origination.getFullNameFromOrigin urls (.arr (spec.origin.map .obj)) = .ok name)
    (userInput : PyStr) (run : FrontManRun) :
    ∃ messages, Chat.chat urls check spec (requested chatContext) userInput run.steps =
        .ok messages ∧
      (∀ m ∈ messages, ChatHistoryMessageProcessor.isSystem m = false) ∧
      messages.filterMap ChatHistoryMessageProcessor.escapedOf =
        ((run.steps.foldl hearStep (remembered maximum remarks ++ [.human userInput])).map
          Remark.escape).map (Remark.entry spec) := by
  have hwrite : (HistoryStep.write (.human (.str userInput))).Readable := by
    rintro kept hkept
    obtain rfl := Option.some.inj hkept
    exact .inr ⟨userInput, rfl⟩
  have htells := (tells_message (remembered maximum remarks)).foldl
    (List.forall_mem_cons.mpr ⟨hwrite, run.readable⟩)
  generalize hhistory : (HistoryStep.write (.human (.str userInput)) :: run.steps).foldl
    HistoryStep.apply ((remembered maximum remarks).map Remark.message) = chatHistory at htells
  refine ⟨chatHistory.map (dictOf spec), ?_, ?_, ?_⟩
  · unfold Chat.chat
    rw [h.setUp hname, htexts (.human (.str userInput)) userInput rfl rfl]
    dsimp only
    rw [hhistory]
    apply mapM_eq_ok_map
    intro message hmessage
    exact historyDict_of_readable spec (htells.readable message hmessage).1
  · intro m hm
    obtain ⟨message, hmessage, rfl⟩ := List.mem_map.mp hm
    exact decide_eq_false (htells.readable message hmessage).2
  · have hheard : run.steps.foldl hearStep (remembered maximum remarks ++ [.human userInput]) =
        chatHistory.filterMap remarkOf := htells.remarks.symm
    rw [hheard, List.filterMap_map, List.map_map, List.map_filterMap]
    apply List.filterMap_congr
    intro message hmessage
    exact escapedOf_dictOf spec (htells.readable message hmessage).2

theorem remembers_nil : Remembers urls check spec maximum [] [] := by
  unfold Remembers
  rw [remembered_nil]
  rfl

/-- A chat context that was made of what is remembered. -/
theorem remembers_contextOf
    (htexts : BaseMessageDictionaryConverter.AcceptsText check)
    (hname : Origination.getFullNameFromOrigin urls (.arr (spec.origin.map .obj)) = .ok name)
    (remarks : List Remark) :
    Remembers urls check spec maximum
      (contextOf spec ((remembered maximum remarks).map (Remark.entry spec))) remarks :=
  updateFromChatContext_contextOf spec htexts hname (remembered maximum remarks)

/-- After a turn that breaks, all is forgotten or all is as it was. -/
theorem Remembers.broken {chatContext : Members} {remarks : List Remark}
    (h : Remembers urls check spec maximum chatContext remarks) (streamed : Streamed) :
    Remembers urls check spec maximum
      (received loads chatContext
        (MessageJournal.streamOf loads messageFilter messageProcessor streamed.writes))
      (heardBroken loads messageFilter messageProcessor remarks streamed.writes) := by
  rw [received_streamed]
  unfold heardBroken
  split
  case isTrue hempty => exact h
  case isFalse hsome => exact remembers_nil

/-- One turn: what is remembered after it is what there is to be remembered. -/
theorem Remembers.exchange {chatContext : Members} {remarks : List Remark}
    (h : Remembers urls check spec maximum chatContext remarks)
    (htexts : BaseMessageDictionaryConverter.AcceptsText check)
    (hname : Origination.getFullNameFromOrigin urls (.arr (spec.origin.map .obj)) = .ok name)
    (hmax : ChatHistoryMessageProcessor.maxOf spec.maxMessageHistory = .ok maximum)
    (hfilter : messageFilter = MinimalMessageFilter.allowMessage ∨
      messageFilter = MaximalMessageFilter.allowMessage)
    (turn : Turn loads messageProcessor) :
    Remembers urls check spec maximum
      (processOnce urls check loads messageFilter messageProcessor spec chatContext turn)
      (hear loads messageFilter messageProcessor maximum remarks turn) := by
  unfold processOnce
  cases turn with
  | completed userInput run outgoing =>
      obtain ⟨messages, hchat, hsystem, hhanded⟩ := h.chat htexts hname userInput run
      show Remembers urls check spec maximum (received loads chatContext
        (respond loads messageFilter messageProcessor outgoing
          ((Chat.chat urls check spec (requested chatContext) userInput run.steps).bind
            (prepareChatContext spec))))
        (if (trims maximum && (run.steps.foldl hearStep
          (remarks ++ [.human userInput])).isEmpty) = true then _ else _)
      rw [hchat]
      show Remembers urls check spec maximum (received loads chatContext
        (respond loads messageFilter messageProcessor outgoing
          (prepareChatContext spec messages))) _
      -- the chat has handed out something exactly if something was said
      have hempty : messages.filterMap ChatHistoryMessageProcessor.escapedOf = [] ↔
          run.steps.foldl hearStep (remarks ++ [.human userInput]) = [] := by
        rw [hhanded, List.map_eq_nil_iff, List.map_eq_nil_iff,
          ← remembered_eq_nil_iff maximum, remembered_foldl_hearStep, remembered_eq_nil_iff]
      split
      case isTrue hnothing =>
          rw [Bool.and_eq_true, List.isEmpty_iff, ← hempty] at hnothing
          rw [← ChatHistoryMessageProcessor.kept_of_not_isSystem hsystem] at hnothing
          obtain ⟨e, hraises⟩ := prepareChatContext_raises spec hmax hnothing.1 hnothing.2
          rw [hraises]
          exact h.broken outgoing.toStreamed
      case isFalse hsomething =>
          have hsome : trims maximum = true →
              messages.filterMap ChatHistoryMessageProcessor.escapedOf ≠ [] := by
            intro htrims hnone
            apply hsomething
            rw [Bool.and_eq_true, List.isEmpty_iff]
            exact ⟨htrims, hempty.mp hnone⟩
          have hkept : keepOf maximum (messages.filterMap ChatHistoryMessageProcessor.escapedOf) =
              (remembered maximum (run.steps.foldl hearStep
                (remarks ++ [.human userInput]))).map (Remark.entry spec) := by
            rw [hhanded, ← map_keepOf, ← remembered_foldl_hearStep]
            rfl
          rw [prepareChatContext_of_unsystematic spec hmax hsystem hsome, hkept,
            received_respond hfilter]
          exact remembers_contextOf htexts hname _
  | impatient outgoing =>
      have hchat : chatImpatiently urls check spec (requested chatContext) =
          .ok [patienceMessage spec] := by
        unfold chatImpatiently
        rw [h.setUp hname]
        rfl
      show Remembers urls check spec maximum (received loads chatContext
        (respond loads messageFilter messageProcessor outgoing
          ((chatImpatiently urls check spec (requested chatContext)).bind
            (prepareChatContext spec)))) (if trims maximum = true then _ else _)
      rw [hchat]
      show Remembers urls check spec maximum (received loads chatContext
        (respond loads messageFilter messageProcessor outgoing
          (prepareChatContext spec [patienceMessage spec]))) _
      split
      case isTrue htrims =>
          obtain ⟨e, hraises⟩ := prepareChatContext_raises spec hmax htrims
            (show ChatHistoryMessageProcessor.kept [patienceMessage spec] = [] from rfl)
          rw [hraises]
          exact h.broken outgoing.toStreamed
      case isFalse hkeeps =>
          have hsystem : ∀ m ∈ [patienceMessage spec],
              ChatHistoryMessageProcessor.isSystem m = false := by
            intro m hm
            obtain rfl := List.mem_singleton.mp hm
            rfl
          have hempty : keepOf maximum ([] : List ChatMessage) =
              (remembered maximum []).map (Remark.entry spec) :=
            (map_keepOf maximum (Remark.entry spec) []).symm
          rw [prepareChatContext_of_unsystematic spec hmax hsystem
              fun htrims => absurd htrims hkeeps,
            received_respond hfilter]
          show Remembers urls check spec maximum (contextOf spec (keepOf maximum [])) []
          rw [hempty]
          exact remembers_contextOf htexts hname []
  | broken streamed => exact h.broken streamed

/-- However many turns there were, what is remembered is what there is to be remembered. -/
theorem Remembers.foldl {chatContext : Members} {remarks : List Remark}
    (h : Remembers urls check spec maximum chatContext remarks)
    (htexts : BaseMessageDictionaryConverter.AcceptsText check)
    (hname : Origination.getFullNameFromOrigin urls (.arr (spec.origin.map .obj)) = .ok name)
    (hmax : ChatHistoryMessageProcessor.maxOf spec.maxMessageHistory = .ok maximum)
    (hfilter : messageFilter = MinimalMessageFilter.allowMessage ∨
      messageFilter = MaximalMessageFilter.allowMessage)
    (turns : List (Turn loads messageProcessor)) :
    Remembers urls check spec maximum
      (turns.foldl (processOnce urls check loads messageFilter messageProcessor spec) chatContext)
      (turns.foldl (hear loads messageFilter messageProcessor maximum) remarks) := by
  induction turns generalizing chatContext remarks with
  | nil => exact h
  | cons turn rest ih => exact ih (h.exchange htexts hname hmax hfilter turn)

end Exchange

/-- **A model reads what was said in the conversation**, turn after turn: all that the user and
the model have said since the last turn that broke, and what a summary has left of it, in this
order and with the braces escaped once. With a maximum it is the first remark and the newest of
the others, however often the history was trimmed on the way. -/
theorem conversation_remembered (urls : Urls.NetlocCheck) (check : MessageCheck)
    (loads : RepairLoads) (messageFilter : MessageFilter) (messageProcessor : Option (List Json))
    (spec : FrontManSpec) (maximum : Option ℤ) (name : Option PyStr)
    (htexts : BaseMessageDictionaryConverter.AcceptsText check)
    (hname : Origination.getFullNameFromOrigin urls (.arr (spec.origin.map .obj)) = .ok name)
    (hmax : ChatHistoryMessageProcessor.maxOf spec.maxMessageHistory = .ok maximum)
    (hfilter : messageFilter = MinimalMessageFilter.allowMessage ∨
      messageFilter = MaximalMessageFilter.allowMessage)
    (turns : List (Turn loads messageProcessor)) (userInput : PyStr) :
    modelInputs urls check spec (requested (turns.foldl
        (processOnce urls check loads messageFilter messageProcessor spec) [])) userInput =
      .ok ((remembered maximum (turns.foldl
        (hear loads messageFilter messageProcessor maximum) [])).map Remark.message ++
          [.human (.str userInput)]) ∧
    ∀ n, maximum = some n → 1 < n →
      (remembered maximum (turns.foldl
        (hear loads messageFilter messageProcessor maximum) [])).length ≤ n.toNat + 1 := by
  have hremembers : Remembers urls check spec maximum _ _ :=
    remembers_nil.foldl htexts hname hmax hfilter turns
  constructor
  · unfold modelInputs
    rw [hremembers.setUp hname, htexts (.human (.str userInput)) userInput rfl rfl]
    rfl
  · rintro n rfl hn
    exact length_remembered_le hn _

/-- A front man that remembers two messages beside the first. -/
def forgetfulFrontMan : FrontManSpec := ⟨str "music_nerd", str "Talk about music.", .int 2⟩

/-- A turn in which the user says something and the model answers. -/
def answeredTurn (loads : RepairLoads) (userInput answer : String) : Turn loads none :=
  .completed (str userInput)
    ⟨[.write (.ai (.str (str answer)))], by
      intro step hstep
      obtain rfl := List.mem_singleton.mp hstep
      rintro kept hkept
      obtain rfl := Option.some.inj hkept
      exact .inr ⟨str answer, rfl⟩⟩
    ⟨⟨[], by intro write hwrite; cases hwrite⟩, str answer, none, none, fun _ => ⟨_, rfl⟩⟩

/-- A turn that says why it broke. -/
def brokenTurn (loads : RepairLoads) : Turn loads none :=
  .broken ⟨[⟨AgentFrameworkMessage.make (str "No key") none none none, none⟩], by
    intro write hwrite
    obtain rfl := List.mem_singleton.mp hwrite
    rfl⟩

/-- What a model reads after two turns with braces, of which one broke, and two others. -/
theorem conversation_remembered_trimmed :
    modelInputs (fun _ => true) (fun _ => none) forgetfulFrontMan
        (requested ([answeredTurn DataDrivenChatSession.loadsEmptyDict "A" "B",
          brokenTurn DataDrivenChatSession.loadsEmptyDict,
          answeredTurn DataDrivenChatSession.loadsEmptyDict "C \x7b" "D",
          answeredTurn DataDrivenChatSession.loadsEmptyDict "E" "F \x7d",
          answeredTurn DataDrivenChatSession.loadsEmptyDict "G" "H"].foldl
            (processOnce (fun _ => true) (fun _ => none) DataDrivenChatSession.loadsEmptyDict
              MinimalMessageFilter.allowMessage none forgetfulFrontMan) [])) (str "I") =
      .ok [.human (.str (str "C \x7b\x7b")), .human (.str (str "G")), .ai (.str (str "H")),
        .human (.str (str "I"))] :=
  (conversation_remembered (fun _ => true) (fun _ => none) DataDrivenChatSession.loadsEmptyDict
    MinimalMessageFilter.allowMessage none forgetfulFrontMan (some 2) (some (str "music_nerd"))
    (fun _ _ _ _ => rfl) rfl rfl (.inl rfl) _ (str "I")).1.trans rfl

end NoraFleet.Chat
