import Mathlib
import NoraFleet.Messages.Processors

/-!
# The messages of a chat on their way to a client

A journal turns each message that is written to it into a dictionary, which its filter
stops or lets through. Where the front man asks for structure, it is taken out of the
text of the framework's messages before they are sent. A chat ends with a message of
the framework that says everything a client asks for, so that the filter makes no
difference to what the client finds.

* `streamOf_minimal` — the minimal stream is the part of the maximal one that has chat
  contexts;
* `Settled.processMessages` — an answer without structure has none left to be found;
* `same_report` — what the filters report, and what a completed chat does.
-/

namespace NoraFleet.Messages

open Base
open Base.Json (Members)

/-- A part of a message's content: a text, or a dictionary that may have one. -/
inductive ContentBlock where
  | str (text : PyStr)
  | dict (text : Option PyStr)

/-- The content of a message. -/
inductive Content where
  | text (text : PyStr)
  | blocks (blocks : List ContentBlock)

/-- A message that is written to a journal: the type that its class stands for, and the
attributes that a dictionary is made of, where the class has them. -/
structure SourceMessage where
  type : ChatMessageType
  content : Content
  chatContext : Option Members
  toolResultOrigin : Option (List Members)
  struct : Option Members
  slyData : Option SlyData

/-- `AgentFrameworkMessage(content, chat_context, sly_data, structure)`. A chat context
that is not given is empty, so that the minimal filter does not stop the message. -/
def AgentFrameworkMessage.make (content : PyStr) (chatContext : Option Members)
    (slyData : Option SlyData) (struct : Option Members) : SourceMessage where
  type := .agentFramework
  content := .text content
  chatContext := some (chatContext.getD [])
  toolResultOrigin := none
  struct := struct
  slyData := slyData

namespace BaseMessageDictionaryConverter

/-- The text that a dictionary has for a message's content. A list stands for its first
block, which has to be a dictionary. -/
def textOf : Content → Except PyError (Option PyStr)
  | .text text => .ok (some text)
  | .blocks [] => .ok none
  | .blocks (.dict text :: _) => .ok (some (text.getD []))
  | .blocks (.str _ :: _) => .error .attributeError

/-- `to_dict(message)`. -/
def toDict (origin : Option (List Members)) (message : SourceMessage) :
    Except PyError ChatMessage :=
  match textOf message.content with
  | .error e => .error e
  | .ok text =>
      .ok ⟨message.type, origin, text, message.chatContext, message.toolResultOrigin,
        message.struct, message.slyData⟩

end BaseMessageDictionaryConverter

namespace StructureMessageProcessor

/-- What the structure that is found in a text does to the message. -/
def extract (loads : RepairLoads) (structureFormats : List Json) (m : ChatMessage)
    (text : PyStr) : Except PyError ChatMessage :=
  match FirstAvailableStructureParser.parseStructure loads text structureFormats with
  | .error e => .error e
  | .ok none => .ok m
  | .ok (some (struct, remainder)) => .ok { m with text := some remainder, struct := some struct }

/-- `process_message(chat_message_dict, message_type)`. -/
def processMessage (loads : RepairLoads) (structureFormats : List Json) (m : ChatMessage) :
    Except PyError ChatMessage :=
  if m.type ≠ .agentFramework then .ok m
  else match m.struct, m.text with
    | none, some text => if text = [] then .ok m else extract loads structureFormats m text
    | _, _ => .ok m

/-- Only the text and the structure are changed, and a text stays a text. -/
theorem processMessage_keeps {loads : RepairLoads} {structureFormats : List Json}
    {m m' : ChatMessage} (h : processMessage loads structureFormats m = .ok m') :
    m' = { m with text := m'.text, struct := m'.struct } ∧ (m.text.isSome → m'.text.isSome) := by
  unfold processMessage at h
  split at h
  case isTrue htype =>
      cases h
      exact ⟨rfl, id⟩
  case isFalse htype =>
      split at h
      case h_2 => cases h; exact ⟨rfl, id⟩
      case h_1 text hstruct htext =>
          split at h
          case isTrue hempty => cases h; exact ⟨rfl, id⟩
          case isFalse hempty =>
              unfold extract at h
              split at h
              case h_1 e hparse => cases h
              case h_2 hparse => cases h; exact ⟨rfl, id⟩
              case h_3 struct remainder hparse =>
                  cases h
                  exact ⟨rfl, fun _ => rfl⟩

end StructureMessageProcessor

/-- `create_outgoing_message_processor(agent_network)`, of the setting of the front man:
the formats that the processor looks for, if there is one. -/
def QueueFilter.createOutgoingMessageProcessor : Json → Except PyError (Option (List Json))
  | .null => .ok none
  | structureFormats => (formatsOf structureFormats).map some

namespace MessageJournal

variable (loads : RepairLoads) (messageFilter : MessageFilter)
  (messageProcessor : Option (List Json))

/-- What the processor of a journal makes of a dictionary, if there is one. -/
def processed (m : ChatMessage) : Except PyError ChatMessage :=
  match messageProcessor with
  | none => .ok m
  | some structureFormats => StructureMessageProcessor.processMessage loads structureFormats m

/-- `write_message(message, origin)`: the dictionary that is put on the queue, if any. -/
def writeMessage (message : SourceMessage) (origin : Option (List Members)) :
    Except PyError (Option ChatMessage) :=
  match BaseMessageDictionaryConverter.toDict origin message with
  | .error e => .error e
  | .ok m =>
      if messageFilter m then (processed loads messageProcessor m).map some else .ok none

/-- A message that is written, and its origin. -/
structure Write where
  message : SourceMessage
  origin : Option (List Members)

/-- What a write puts on the queue. One that raises puts nothing there. -/
def put (write : Write) : Option ChatMessage :=
  (writeMessage loads messageFilter messageProcessor write.message write.origin).toOption.join

/-- What is put on the queue, one write after the other. -/
def streamOf (writes : List Write) : List ChatMessage :=
  writes.filterMap (put loads messageFilter messageProcessor)

variable {loads messageFilter messageProcessor}

theorem processed_keeps {m m' : ChatMessage} (h : processed loads messageProcessor m = .ok m') :
    m' = { m with text := m'.text, struct := m'.struct } ∧ (m.text.isSome → m'.text.isSome) := by
  unfold processed at h
  split at h
  case h_1 => cases h; exact ⟨rfl, id⟩
  case h_2 structureFormats => exact StructureMessageProcessor.processMessage_keeps h

/-- What is changed on the way out is nothing that the minimal filter looks at. -/
theorem allowMessage_processed {m m' : ChatMessage}
    (h : processed loads messageProcessor m = .ok m') :
    ChatContextMessageFilter.allowMessage m' = ChatContextMessageFilter.allowMessage m := by
  rw [(processed_keeps h).1]
  rfl

theorem put_minimal (write : Write) :
    put loads MinimalMessageFilter.allowMessage messageProcessor write =
      (put loads MaximalMessageFilter.allowMessage messageProcessor write).filter
        ChatContextMessageFilter.allowMessage := by
  unfold put writeMessage
  cases hdict : BaseMessageDictionaryConverter.toDict write.origin write.message with
  | error e => rfl
  | ok m =>
      simp only [MinimalMessageFilter.allowMessage_eq, MaximalMessageFilter.allowMessage_eq,
        if_true]
      cases hout : processed loads messageProcessor m with
      | error e => split <;> rfl
      | ok m' =>
          have hsame := allowMessage_processed hout
          by_cases hallow : ChatContextMessageFilter.allowMessage m = true
          · rw [if_pos hallow]
            simp [Except.map, Except.toOption, Option.filter, hsame, hallow]
          · rw [if_neg hallow]
            simp [Except.map, Except.toOption, Option.filter, hsame, hallow]

/-- The minimal filter sends the messages of the maximal one that have chat contexts. -/
theorem streamOf_minimal (writes : List Write) :
    streamOf loads MinimalMessageFilter.allowMessage messageProcessor writes =
      (streamOf loads MaximalMessageFilter.allowMessage messageProcessor writes).filter
        ChatContextMessageFilter.allowMessage := by
  unfold streamOf
  rw [List.filter_filterMap]
  apply List.filterMap_congr
  intro write hwrite
  exact put_minimal write

/-- The final message passes the minimal filter, and what arrives of it has a text. -/
theorem put_final {filter : MessageFilter}
    (hfilter : filter = MinimalMessageFilter.allowMessage ∨
      filter = MaximalMessageFilter.allowMessage)
    (content : PyStr) (chatContext : Option Members) (slyData : Option SlyData)
    (struct : Option Members) :
    writeMessage loads filter messageProcessor
        (AgentFrameworkMessage.make content chatContext slyData struct) none =
      (processed loads messageProcessor ⟨.agentFramework, none, some content,
        some (chatContext.getD []), none, struct, slyData⟩).map some := by
  show (if filter _ then _ else _) = _
  apply if_pos
  rcases hfilter with rfl | rfl
  · rw [MinimalMessageFilter.allowMessage_eq]
    rfl
  · exact MaximalMessageFilter.allowMessage_eq _

end MessageJournal

/-! ## The answer of a completed chat -/

/-- An answer without a structure has none left to be found in it. -/
def AnswerMessageProcessor.Settled (loads : RepairLoads) (structureFormats : List Json)
    (processor : AnswerMessageProcessor) : Prop :=
  processor.struct = none → ∀ answer, processor.answer = some answer →
    FirstAvailableStructureParser.parseStructure loads answer structureFormats = .ok none

namespace AnswerMessageProcessor

variable {loads : RepairLoads} {structureFormats : List Json}

theorem settled_parse {processor after : AnswerMessageProcessor} {text : PyStr}
    (hanswer : processor.answer = some text)
    (h : parse loads structureFormats processor text = .ok after) :
    after.Settled loads structureFormats := by
  intro hstruct answer hafter
  unfold parse at h
  split at h
  case h_1 e hparse => cases h
  case h_2 hparse =>
      cases h
      have hsame : text = answer := Option.some.inj (hanswer.symm.trans hafter)
      rw [← hsame]
      exact hparse
  case h_3 struct remainder hparse =>
      cases h
      cases hstruct

theorem settled_record {processor : AnswerMessageProcessor} {m : ChatMessage}
    (hs : processor.Settled loads structureFormats) (htext : m.text = none ∨ m.struct.isSome) :
    (processor.record m).Settled loads structureFormats := by
  intro hstruct answer hanswer
  have hparts : m.struct = none ∧ processor.struct = none := Option.or_eq_none_iff.mp hstruct
  rcases htext with htext | hsome
  · refine hs hparts.2 answer ?_
    simpa [record, htext] using hanswer
  · rw [hparts.1] at hsome
    cases hsome

theorem Settled.processMessage {processor after : AnswerMessageProcessor} {m : ChatMessage}
    (hs : processor.Settled loads structureFormats)
    (h : processMessage loads structureFormats processor m = .ok after) :
    after.Settled loads structureFormats := by
  unfold AnswerMessageProcessor.processMessage at h
  split at h
  case isFalse hfilter =>
      cases h
      exact hs
  case isTrue hfilter =>
      split at h
      case h_1 text hstruct htext =>
          refine settled_parse ?_ h
          simp [record, htext]
      case h_2 hother =>
          cases h
          apply settled_record hs
          cases htext : m.text with
          | none => exact .inl rfl
          | some text =>
              cases hstruct : m.struct with
              | none => exact absurd htext (hother text hstruct)
              | some struct => exact .inr rfl

theorem Settled.processMessages {processor after : AnswerMessageProcessor}
    {messages : List ChatMessage} (hs : processor.Settled loads structureFormats)
    (h : AnswerMessageProcessor.processMessages loads structureFormats processor messages =
      .ok after) :
    after.Settled loads structureFormats := by
  induction messages generalizing processor with
  | nil => cases h; exact hs
  | cons m messages ih =>
      unfold AnswerMessageProcessor.processMessages at h ih
      rw [List.foldlM_cons] at h
      cases hstep : AnswerMessageProcessor.processMessage loads structureFormats processor m with
      | error e => rw [hstep] at h; cases h
      | ok next =>
          rw [hstep] at h
          exact ih (hs.processMessage hstep) h

theorem settled_initial : ({} : AnswerMessageProcessor).Settled loads structureFormats := by
  intro hstruct answer hanswer
  cases hanswer

end AnswerMessageProcessor

namespace DataDrivenChatSession

/-- The answer and the structure that `run_it` finds in the messages of a chat. -/
def answerOf (loads : RepairLoads) (structureFormats : Json) (messageList : List ChatMessage) :
    Except PyError (PyStr × Option Members) :=
  match formatsOf structureFormats with
  | .error e => .error e
  | .ok formats =>
      (AnswerMessageProcessor.processMessages loads formats {} messageList).map fun processor =>
        (processor.answer.getD [], processor.struct)

/-- The writes of a chat that ends with a message of the framework. -/
def endedBy (final : SourceMessage) (writes : List MessageJournal.Write) :
    List MessageJournal.Write :=
  writes ++ [⟨final, none⟩]

section Reports

variable (loads : RepairLoads) (processor : Option (List Json))

/-- Clients find the same, whether their filter is minimal or maximal. -/
def BothReport (writes : List MessageJournal.Write) (r : BasicMessageProcessor.Report) : Prop :=
  BasicMessageProcessor.report loads
      (MessageJournal.streamOf loads MinimalMessageFilter.allowMessage processor writes) = .ok r ∧
    BasicMessageProcessor.report loads
      (MessageJournal.streamOf loads MaximalMessageFilter.allowMessage processor writes) = .ok r

variable {loads processor}

/-- What arrives of the final message is what both filters report. -/
theorem bothReport_of_processed {content : PyStr} {chatContext : Option Members}
    {slyData : Option SlyData} {struct : Option Members} {m : ChatMessage}
    (hm : MessageJournal.processed loads processor ⟨.agentFramework, none, some content,
      some (chatContext.getD []), none, struct, slyData⟩ = .ok m)
    (writes : List MessageJournal.Write) :
    ∃ r, BothReport loads processor
        (endedBy (AgentFrameworkMessage.make content chatContext slyData struct) writes) r ∧
      r.answer = m.text ∧ r.struct = m.struct := by
  obtain ⟨hkept, htext⟩ := MessageJournal.processed_keeps hm
  obtain ⟨text, htext⟩ := Option.isSome_iff_exists.mp (htext rfl)
  -- the filter matters for what came before, and there only for what has no chat context
  have hput : ∀ filter, (filter = MinimalMessageFilter.allowMessage ∨
      filter = MaximalMessageFilter.allowMessage) →
      MessageJournal.streamOf loads filter processor
        (endedBy (AgentFrameworkMessage.make content chatContext slyData struct) writes) =
      MessageJournal.streamOf loads filter processor writes ++ [m] := by
    intro filter hfilter
    have hfinal := @MessageJournal.put_final loads processor filter hfilter content chatContext
      slyData struct
    rw [hm] at hfinal
    unfold MessageJournal.streamOf endedBy
    rw [List.filterMap_append]
    congr 1
    simp [MessageJournal.put, hfinal, Except.map, Except.toOption]
  have hreport : ∀ stream, BasicMessageProcessor.report loads (stream ++ [m]) =
      .ok ⟨some text, m.struct, m.slyData.or (BasicMessageProcessor.slyDataOf stream),
        chatContext.getD []⟩ := by
    intro stream
    apply BasicMessageProcessor.report_append_last loads (by rw [hkept]) (by rw [hkept]) htext
    rw [hkept]
  refine ⟨⟨some text, m.struct, m.slyData.or (BasicMessageProcessor.slyDataOf
    (MessageJournal.streamOf loads MaximalMessageFilter.allowMessage processor writes)),
    chatContext.getD []⟩, ⟨?_, ?_⟩, htext.symm, rfl⟩
  · rw [hput _ (.inl rfl), hreport, MessageJournal.streamOf_minimal,
      BasicMessageProcessor.slyDataOf_filter]
  · rw [hput _ (.inr rfl), hreport]

/-- Nothing more is taken out of the answer that a completed chat found. -/
theorem processed_answerOf {structureFormats : Json} {messageList : List ChatMessage}
    {content : PyStr} {struct : Option Members}
    (hprocessor : QueueFilter.createOutgoingMessageProcessor structureFormats = .ok processor)
    (hanswer : answerOf loads structureFormats messageList = .ok (content, struct))
    (chatContext : Option Members) (slyData : Option SlyData) :
    MessageJournal.processed loads processor ⟨.agentFramework, none, some content,
        chatContext, none, struct, slyData⟩ =
      .ok ⟨.agentFramework, none, some content, chatContext, none, struct, slyData⟩ := by
  unfold answerOf at hanswer
  cases processor with
  | none => rfl
  | some processorFormats =>
      have hformats : formatsOf structureFormats = .ok processorFormats := by
        cases structureFormats with
        | null => cases hprocessor
        | bool b => cases hprocessor
        | int n => cases hprocessor
        | float q => cases hprocessor
        | obj members => cases hprocessor
        | str text => cases hprocessor; rfl
        | arr items => cases hprocessor; rfl
      rw [hformats] at hanswer
      obtain ⟨found, hfound, hparts⟩ := exists_of_map_eq_ok hanswer
      have hsettled := AnswerMessageProcessor.settled_initial.processMessages hfound
      cases hparts
      show StructureMessageProcessor.processMessage loads processorFormats _ = _
      unfold StructureMessageProcessor.processMessage
      rw [if_neg (by simp)]
      cases hs : found.struct with
      | some struct => rfl
      | none =>
          cases ha : found.answer with
          | none => rfl
          | some answer =>
              show (if answer = [] then _ else _) = _
              split
              case isTrue hempty => rfl
              case isFalse hfull =>
                  unfold StructureMessageProcessor.extract
                  rw [show (some answer).getD [] = answer from rfl, hsettled hs answer ha]

end Reports

/-- The filter makes no difference to what a client finds in a chat that ends with a
message of the framework; and where that message is the one of a completed chat, the
client finds the answer and the structure that were found there. -/
theorem same_report (loads : RepairLoads) (structureFormats : Json)
    (processor : Option (List Json))
    (hprocessor : QueueFilter.createOutgoingMessageProcessor structureFormats = .ok processor)
    (writes : List MessageJournal.Write) (content : PyStr) (chatContext : Option Members)
    (slyData : Option SlyData) (struct : Option Members) :
    (∀ written, MessageJournal.writeMessage loads MaximalMessageFilter.allowMessage processor
        (AgentFrameworkMessage.make content chatContext slyData struct) none = .ok written →
      ∃ r, BothReport loads processor
        (endedBy (AgentFrameworkMessage.make content chatContext slyData struct) writes) r) ∧
    ∀ messageList, answerOf loads structureFormats messageList = .ok (content, struct) →
      ∃ r, BothReport loads processor
          (endedBy (AgentFrameworkMessage.make content chatContext slyData struct) writes) r ∧
        r.answer = some content ∧ r.struct = struct := by
  constructor
  · intro written hwritten
    rw [MessageJournal.put_final (.inr rfl)] at hwritten
    obtain ⟨m, hm, hsome⟩ := exists_of_map_eq_ok hwritten
    obtain ⟨r, hr, hparts⟩ := bothReport_of_processed hm writes
    exact ⟨r, hr⟩
  · intro messageList hanswer
    exact bothReport_of_processed
      (processed_answerOf hprocessor hanswer (some (chatContext.getD [])) slyData) writes

/-- Empty dictionaries are read, and no other text. -/
def loadsEmptyDict : RepairLoads := fun text =>
  if text = str "\x7b\x7d" then .ok (.obj []) else .error .jsonDecodeError

/-- The answer of the front man, as it is written. -/
def frontManWrite : MessageJournal.Write :=
  ⟨⟨.ai, .text (str "Hi \x7b\x7d"), none, none, none, none⟩, some [[]]⟩

/-- A chat that is acknowledged as an event, and one that ends with an empty structure. -/
theorem same_report_at_ends :
    (∃ r, BothReport loadsEmptyDict (some [.str (str "json")])
      (endedBy (AgentFrameworkMessage.make (str "Event acknowledged") none none none)
        [frontManWrite]) r) ∧
    ∃ r, BothReport loadsEmptyDict (some [.str (str "json")])
        (endedBy (AgentFrameworkMessage.make (str "Hi") none none (some [])) [frontManWrite]) r ∧
      r.answer = some (str "Hi") ∧ r.struct = some [] :=
  ⟨(same_report loadsEmptyDict (.str (str "json")) (some [.str (str "json")]) rfl [frontManWrite]
      (str "Event acknowledged") none none none).1 _ rfl,
    (same_report loadsEmptyDict (.str (str "json")) (some [.str (str "json")]) rfl [frontManWrite]
      (str "Hi") none none (some [])).2
      [⟨.ai, some [[]], some (str "Hi \x7b\x7d"), none, none, none, none⟩] rfl⟩

end DataDrivenChatSession

end NoraFleet.Messages
