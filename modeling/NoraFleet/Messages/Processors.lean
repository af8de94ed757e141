import Mathlib
import NoraFleet.Messages.ChatMessages
import NoraFleet.Messages.SlyDataRedactor
import NoraFleet.Messages.StructureParsers

/-!
# Message filters and processors

What a client keeps of the messages that a chat sends it. Each processor looks at the
messages that its filter lets through: the answer and its structure come from the last
message of the front man that has any, and the chat context from the last message of
the framework that has one. A front man's origin is the only one of length one.

* `BasicMessageProcessor.processMessages_eq` — the parts of a basic processor run side
  by side, and none of them raises;
* `BasicMessageProcessor.report_append_last` — what is reported once a last message of
  the framework has been read.
-/

namespace NoraFleet.Messages

open Base
open Base.Json (Members)

/-- The dictionary of a chat message. -/
structure ChatMessage where
  type : ChatMessageType
  origin : Option (List Members)
  text : Option PyStr
  chatContext : Option Members
  toolResultOrigin : Option (List Members)
  struct : Option Members
  slyData : Option SlyData

/-- The keys of a message's dictionary. -/
def ChatMessage.keys (m : ChatMessage) : List PyStr :=
  [str "type"] ++ (m.origin.map fun _ => str "origin").toList ++
    (m.text.map fun _ => str "text").toList ++
    (m.chatContext.map fun _ => str "chat_context").toList ++
    (m.toolResultOrigin.map fun _ => str "tool_result_origin").toList ++
    (m.struct.map fun _ => str "structure").toList ++
    (m.slyData.map fun _ => str "sly_data").toList

/-- The origin is not deeper than a front man's. -/
def ChatMessage.fromFrontMan (m : ChatMessage) : Bool :=
  match m.origin with
  | none => true
  | some origin => decide (origin.length ≤ 1)

/-! ## Filters -/

/-- `allow_message(chat_message_dict, message_type)`. -/
abbrev MessageFilter := ChatMessage → Bool

/-- `AnswerMessageFilter.allow_message`. -/
def AnswerMessageFilter.allowMessage : MessageFilter := fun m =>
  (m.type = .ai || m.type = .agentFramework) && m.fromFrontMan &&
    (m.text.isSome || m.struct.isSome)

/-- `ChatContextMessageFilter.allow_message`. -/
def ChatContextMessageFilter.allowMessage : MessageFilter := fun m =>
  m.type = .agentFramework && m.chatContext.isSome

/-- `TokenAccountingMessageFilter.allow_message`. -/
def TokenAccountingMessageFilter.allowMessage : MessageFilter := fun m =>
  m.type = .agent && m.fromFrontMan &&
    match m.struct with
    | none => false
    | some struct =>
        match Json.lookup struct (str "total_tokens") with
        | none => false
        | some .null => false
        | some _ => true

/-- `CompoundMessageFilter.allow_message`. -/
def CompoundMessageFilter.allowMessage (filters : List MessageFilter) : MessageFilter := fun m =>
  filters.any fun oneFilter => oneFilter m

/-- `MinimalMessageFilter.allow_message`. -/
def MinimalMessageFilter.allowMessage : MessageFilter :=
  CompoundMessageFilter.allowMessage [ChatContextMessageFilter.allowMessage]

/-- `MaximalMessageFilter.allow_message`: some key is not empty. -/
def MaximalMessageFilter.allowMessage : MessageFilter := fun m =>
  m.keys.any fun key => !key.isEmpty

@[simp] theorem MinimalMessageFilter.allowMessage_eq :
    MinimalMessageFilter.allowMessage = ChatContextMessageFilter.allowMessage := by
  funext m
  show [ChatContextMessageFilter.allowMessage].any (fun oneFilter => oneFilter m) = _
  simp only [List.any_cons, List.any_nil, Bool.or_false]

@[simp] theorem MaximalMessageFilter.allowMessage_eq (m : ChatMessage) :
    MaximalMessageFilter.allowMessage m = true := by
  apply List.any_eq_true.mpr
  refine ⟨str "type", ?_, rfl⟩
  simp [ChatMessage.keys]

/-! ## Processors -/

/-- `AnswerMessageProcessor`. -/
structure AnswerMessageProcessor where
  answer : Option PyStr := none
  struct : Option Members := none
  answerOrigin : Option (List Members) := none

namespace AnswerMessageProcessor

/-- Record what a message has. -/
def record (processor : AnswerMessageProcessor) (m : ChatMessage) : AnswerMessageProcessor where
  answer := m.text.or processor.answer
  struct := m.struct.or processor.struct
  answerOrigin := m.origin.or processor.answerOrigin

/-- Parse structure from the first available format in the text. -/
def parse (loads : RepairLoads) (structureFormats : List Json)
    (processor : AnswerMessageProcessor) (text : PyStr) : Except PyError AnswerMessageProcessor :=
  match FirstAvailableStructureParser.parseStructure loads text structureFormats with
  | .error e => .error e
  | .ok none => .ok { processor with struct := none }
  | .ok (some (struct, remainder)) =>
      .ok { processor with struct := some struct, answer := some remainder }

/-- `process_message(chat_message_dict, message_type)`. -/
def processMessage (loads : RepairLoads) (structureFormats : List Json)
    (processor : AnswerMessageProcessor) (m : ChatMessage) :
    Except PyError AnswerMessageProcessor :=
  if AnswerMessageFilter.allowMessage m then
    match m.struct, m.text with
    | none, some text => parse loads structureFormats (processor.record m) text
    | _, _ => .ok (processor.record m)
  else .ok processor

/-- `process_messages(chat_message_dicts)`. -/
def processMessages (loads : RepairLoads) (structureFormats : List Json) :
    AnswerMessageProcessor → List ChatMessage → Except PyError AnswerMessageProcessor :=
  List.foldlM (processMessage loads structureFormats)

/-- What a message does to a processor that parses nothing. -/
def keep (processor : AnswerMessageProcessor) (m : ChatMessage) : AnswerMessageProcessor :=
  if AnswerMessageFilter.allowMessage m then
    { processor.record m with
      struct := if m.text.isSome then m.struct else (processor.record m).struct }
  else processor

theorem processMessage_nil (loads : RepairLoads) (processor : AnswerMessageProcessor)
    (m : ChatMessage) : processMessage loads [] processor m = .ok (keep processor m) := by
  unfold processMessage keep
  split
  case isFalse hfilter => rfl
  case isTrue hfilter =>
      cases hs : m.struct with
      | some struct => cases ht : m.text <;> simp [record, hs]
      | none =>
          cases ht : m.text with
          | none => simp
          | some text => simp [parse]

end AnswerMessageProcessor

/-- `ChatContextMessageProcessor`. -/
structure ChatContextMessageProcessor where
  chatContext : Members := []
  slyData : Option SlyData := none

/-- `process_message(chat_message_dict, message_type)`. -/
def ChatContextMessageProcessor.processMessage (processor : ChatContextMessageProcessor)
    (m : ChatMessage) : ChatContextMessageProcessor :=
  if ChatContextMessageFilter.allowMessage m then
    ⟨m.chatContext.getD processor.chatContext, m.slyData.or processor.slyData⟩
  else processor

/-- Messages that the filter stops make no difference. -/
theorem ChatContextMessageProcessor.foldl_filter (processor : ChatContextMessageProcessor)
    (stream : List ChatMessage) :
    (stream.filter ChatContextMessageFilter.allowMessage).foldl
      ChatContextMessageProcessor.processMessage processor =
      stream.foldl ChatContextMessageProcessor.processMessage processor := by
  induction stream generalizing processor with
  | nil => rfl
  | cons m stream ih =>
      by_cases hallow : ChatContextMessageFilter.allowMessage m = true
      · rw [List.filter_cons_of_pos hallow, List.foldl_cons, List.foldl_cons, ih]
      · have hsame : processor.processMessage m = processor := if_neg hallow
        rw [List.filter_cons_of_neg hallow, List.foldl_cons, hsame, ih]

/-- `TokenAccountingMessageProcessor`. -/
structure TokenAccountingMessageProcessor where
  tokenAccounting : Option Members := none

/-- `process_message(chat_message_dict, message_type)`. -/
def TokenAccountingMessageProcessor.processMessage (processor : TokenAccountingMessageProcessor)
    (m : ChatMessage) : TokenAccountingMessageProcessor :=
  if TokenAccountingMessageFilter.allowMessage m then ⟨m.struct.or processor.tokenAccounting⟩
  else processor

/-- `BasicMessageProcessor`, without further processors. -/
structure BasicMessageProcessor where
  answer : AnswerMessageProcessor := {}
  chatContext : ChatContextMessageProcessor := {}
  tokenAccounting : TokenAccountingMessageProcessor := {}

namespace BasicMessageProcessor

variable (loads : RepairLoads)

/-- `process_message(chat_message_dict)`: the answer first, then the chat context, then
the token accounting. The answer is looked for without any formats. -/
def processMessage (processor : BasicMessageProcessor) (m : ChatMessage) :
    Except PyError BasicMessageProcessor :=
  match processor.answer.processMessage loads [] m with
  | .error e => .error e
  | .ok answer =>
      .ok ⟨answer, processor.chatContext.processMessage m,
        processor.tokenAccounting.processMessage m⟩

/-- The messages of a stream, one after the other. -/
def processMessages (processor : BasicMessageProcessor) (stream : List ChatMessage) :
    Except PyError BasicMessageProcessor :=
  stream.foldlM (processMessage loads) processor

/-- `get_answer()`. -/
def getAnswer (processor : BasicMessageProcessor) : Option PyStr := processor.answer.answer

/-- `get_structure()`. -/
def getStructure (processor : BasicMessageProcessor) : Option Members := processor.answer.struct

/-- `get_chat_context()`. -/
def getChatContext (processor : BasicMessageProcessor) : Members :=
  processor.chatContext.chatContext

/-- `get_sly_data()`. -/
def getSlyData (processor : BasicMessageProcessor) : Option SlyData :=
  processor.chatContext.slyData

/-- The parts run side by side, and none of them raises. -/
theorem processMessages_eq (processor : BasicMessageProcessor) (stream : List ChatMessage) :
    processor.processMessages loads stream =
      .ok ⟨stream.foldl AnswerMessageProcessor.keep processor.answer,
        stream.foldl ChatContextMessageProcessor.processMessage processor.chatContext,
        stream.foldl TokenAccountingMessageProcessor.processMessage processor.tokenAccounting⟩ := by
  induction stream generalizing processor with
  | nil => rfl
  | cons m stream ih =>
      have hstep : processMessage loads processor m =
          .ok ⟨processor.answer.keep m, processor.chatContext.processMessage m,
            processor.tokenAccounting.processMessage m⟩ := by
        simp only [processMessage, AnswerMessageProcessor.processMessage_nil]
      have htail := ih ⟨processor.answer.keep m, processor.chatContext.processMessage m,
        processor.tokenAccounting.processMessage m⟩
      unfold processMessages at htail ⊢
      rw [List.foldlM_cons, hstep]
      exact htail

/-- What a client asks a processor for. -/
structure Report where
  answer : Option PyStr
  struct : Option Members
  slyData : Option SlyData
  chatContext : Members

/-- What a processor reports that is fed with a stream. -/
def report (stream : List ChatMessage) : Except PyError Report :=
  (processMessages loads {} stream).map fun processor =>
    ⟨processor.getAnswer, processor.getStructure, processor.getSlyData, processor.getChatContext⟩

/-- The sly data of the messages that have a chat context. -/
def slyDataOf (stream : List ChatMessage) : Option SlyData :=
  (stream.foldl ChatContextMessageProcessor.processMessage {}).slyData

theorem slyDataOf_filter (stream : List ChatMessage) :
    slyDataOf (stream.filter ChatContextMessageFilter.allowMessage) = slyDataOf stream := by
  unfold slyDataOf
  rw [ChatContextMessageProcessor.foldl_filter]

/-- A last message of the framework, which has a text and a chat context but no origin,
says everything but the sly data. -/
theorem report_append_last {last : ChatMessage} {text : PyStr} {chatContext : Members}
    (htype : last.type = .agentFramework) (horigin : last.origin = none)
    (htext : last.text = some text) (hcontext : last.chatContext = some chatContext)
    (stream : List ChatMessage) :
    report loads (stream ++ [last]) =
      .ok ⟨some text, last.struct, last.slyData.or (slyDataOf stream), chatContext⟩ := by
  have hanswer : AnswerMessageFilter.allowMessage last = true := by
    simp [AnswerMessageFilter.allowMessage, ChatMessage.fromFrontMan, htype, horigin, htext]
  have hallow : ChatContextMessageFilter.allowMessage last = true := by
    simp [ChatContextMessageFilter.allowMessage, htype, hcontext]
  unfold report
  rw [processMessages_eq]
  simp only [List.foldl_append, List.foldl_cons, List.foldl_nil, Except.map, getAnswer,
    getStructure, getSlyData, getChatContext]
  rw [AnswerMessageProcessor.keep, if_pos hanswer, ChatContextMessageProcessor.processMessage,
    if_pos hallow]
  simp [AnswerMessageProcessor.record, htext, hcontext, slyDataOf]

end BasicMessageProcessor

end NoraFleet.Messages
