import Mathlib
import NoraFleet.Messages.Processors

/-!
# Answers of tools over MCP

A tool call accumulates the stream of a chat by itself: the texts of the framework's
messages are joined, and the last one with a structure or a chat context is kept. A
client over HTTP uses a basic processor, which looks at the origins of the messages.
The two differ once a nested network's messages of the framework are forwarded.

* `accumulate_append` — what the last message adds to the accumulated stream;
* `sameAnswer_iff` — when the two find the same answer.
-/

namespace NoraFleet.Mcp

open Base NoraFleet.Messages
open Base.Json (Members)

/-- A dictionary of structured content: one of its two parts at least. -/
structure StructuredContent where
  struct : Option Members
  chatContext : Option Members

namespace McpToolsProcessor

/-- `construct_mcp_structed_content(response_dict)`. -/
def constructMcpStructedContent (m : ChatMessage) : Option StructuredContent :=
  if m.struct.isNone && m.chatContext.isNone then none else some ⟨m.struct, m.chatContext⟩

/-- `_extract_tool_response_part(response_dict)`. -/
def extractToolResponsePart (m : ChatMessage) : Option PyStr × Option StructuredContent :=
  if m.type = .agentFramework then (m.text, constructMcpStructedContent m) else (none, none)

/-- What `call_tool` accumulates. -/
structure Accumulated where
  responseText : PyStr := []
  responseStructure : Option StructuredContent := none

/-- One response of the stream. -/
def accumulateOne (accumulated : Accumulated) (m : ChatMessage) : Accumulated where
  responseText := accumulated.responseText ++ (extractToolResponsePart m).1.getD []
  responseStructure := (extractToolResponsePart m).2.or accumulated.responseStructure

/-- The loop of `call_tool` over the stream. -/
def accumulate (stream : List ChatMessage) : Accumulated := stream.foldl accumulateOne {}

/-- The structure of the accumulated content. -/
def Accumulated.struct (accumulated : Accumulated) : Option Members :=
  accumulated.responseStructure.bind StructuredContent.struct

/-- The chat context of the accumulated content. -/
def Accumulated.chatContext (accumulated : Accumulated) : Option Members :=
  accumulated.responseStructure.bind StructuredContent.chatContext

theorem accumulate_append (stream : List ChatMessage) (last : ChatMessage) :
    accumulate (stream ++ [last]) = accumulateOne (accumulate stream) last := by
  unfold accumulate
  rw [List.foldl_append, List.foldl_cons, List.foldl_nil]

end McpToolsProcessor

open McpToolsProcessor

/-- The stream of a chat, whose last message is the session's own. The framework's
messages before it were forwarded from nested networks. -/
structure EndsChat (earlier : List ChatMessage) (final : ChatMessage) : Prop where
  type : final.type = .agentFramework
  text : final.text.isSome
  origin : final.origin = none
  forwarded : ∀ m ∈ earlier, m.type = .agentFramework →
    ∃ origin, m.origin = some origin ∧ 1 < origin.length

/-- A tool call finds what a basic processor reports. -/
def SameAnswer (loads : RepairLoads) (stream : List ChatMessage) : Prop :=
  ∃ r, BasicMessageProcessor.report loads stream = .ok r ∧
    r.answer = some (accumulate stream).responseText ∧
    r.struct = (accumulate stream).struct ∧
    some r.chatContext = (accumulate stream).chatContext

/-- No message of the framework has any text. -/
def NoFrameworkText (stream : List ChatMessage) : Prop :=
  ∀ m ∈ stream, m.type = .agentFramework → m.text.getD [] = []

/-- A message of the framework with a structure or a chat context. -/
def hasContent (m : ChatMessage) : Bool :=
  m.type = .agentFramework && (m.struct.isSome || m.chatContext.isSome)

/-- The last message of the framework with a structure or a chat context has no structure. -/
def LastHasContextOnly (stream : List ChatMessage) : Prop :=
  ∃ m, stream.reverse.find? hasContent = some m ∧ m.struct = none

/-! ## The two folds -/

theorem responseText_eq_nil_iff (stream : List ChatMessage) :
    (accumulate stream).responseText = [] ↔ NoFrameworkText stream := by
  induction stream using List.reverseRecOn with
  | nil => simp [accumulate, NoFrameworkText]
  | append_singleton stream m ih =>
      rw [accumulate_append]
      simp only [accumulateOne, List.append_eq_nil_iff, ih, NoFrameworkText,
        List.mem_append, List.mem_singleton, or_imp, forall_and, forall_eq]
      apply and_congr_right
      intro hearlier
      unfold extractToolResponsePart
      by_cases htype : m.type = .agentFramework
      · simp [htype]
      · simp [htype]

/-- The content that is kept is that of the last message that has any. -/
theorem responseStructure_eq (stream : List ChatMessage) :
    (accumulate stream).responseStructure =
      (stream.reverse.find? hasContent).map fun m => ⟨m.struct, m.chatContext⟩ := by
  induction stream using List.reverseRecOn with
  | nil => rfl
  | append_singleton stream m ih =>
      rw [accumulate_append, List.reverse_append, List.reverse_singleton, List.singleton_append,
        List.find?_cons]
      unfold accumulateOne extractToolResponsePart constructMcpStructedContent
      by_cases htype : m.type = .agentFramework
      · cases hstruct : m.struct <;> cases hcontext : m.chatContext <;>
          simp [hasContent, htype, hstruct, hcontext, ih]
      · simp [hasContent, htype, ih]

/-- Where the last content has no structure, it has a chat context. -/
theorem chatContext_of_lastHasContextOnly {stream : List ChatMessage} {m : ChatMessage}
    (hm : stream.reverse.find? hasContent = some m) (hstruct : m.struct = none) :
    ∃ chatContext, m.chatContext = some chatContext := by
  have hcontent := List.find?_some hm
  simp only [hasContent, hstruct, Option.isSome_none, Bool.false_or, Bool.and_eq_true] at hcontent
  exact Option.isSome_iff_exists.mp hcontent.2

/-- The chat context that a basic processor has found so far. -/
def chatContextOf (stream : List ChatMessage) : Members :=
  (stream.foldl ChatContextMessageProcessor.processMessage {}).chatContext

theorem chatContextOf_append (stream : List ChatMessage) (m : ChatMessage) :
    chatContextOf (stream ++ [m]) =
      if m.type = .agentFramework then m.chatContext.getD (chatContextOf stream)
      else chatContextOf stream := by
  unfold chatContextOf
  rw [List.foldl_append, List.foldl_cons, List.foldl_nil,
    ChatContextMessageProcessor.processMessage]
  unfold ChatContextMessageFilter.allowMessage
  by_cases htype : m.type = .agentFramework
  · cases hcontext : m.chatContext <;> simp [htype]
  · simp [htype]

/-- Where the accumulated content has a chat context, it is the one that was found. -/
theorem chatContextOf_eq {stream : List ChatMessage} {chatContext : Members}
    (h : (accumulate stream).chatContext = some chatContext) :
    chatContextOf stream = chatContext := by
  induction stream using List.reverseRecOn with
  | nil => cases h
  | append_singleton stream m ih =>
      rw [chatContextOf_append]
      rw [accumulate_append] at h
      unfold Accumulated.chatContext accumulateOne extractToolResponsePart at h
      by_cases htype : m.type = .agentFramework
      · rw [if_pos htype] at h ⊢
        unfold constructMcpStructedContent at h
        cases hcontext : m.chatContext with
        | some found => simpa [hcontext] using h
        | none =>
            cases hstruct : m.struct with
            | some struct => simp [hcontext, hstruct] at h
            | none =>
                simp only [hcontext, hstruct, Option.isNone_none, Bool.and_self, if_true,
                  Option.none_or] at h
                exact ih h
      · rw [if_neg htype] at h ⊢
        exact ih (by simpa [Accumulated.chatContext] using h)

/-- What a basic processor reports once the session's last message has been read. -/
theorem report_final (loads : RepairLoads) {earlier : List ChatMessage} {final : ChatMessage}
    (h : EndsChat earlier final) :
    ∃ slyData, BasicMessageProcessor.report loads (earlier ++ [final]) =
      .ok ⟨final.text, final.struct, slyData, chatContextOf (earlier ++ [final])⟩ := by
  have hanswer : AnswerMessageFilter.allowMessage final = true := by
    simp [AnswerMessageFilter.allowMessage, ChatMessage.fromFrontMan, h.type, h.origin, h.text]
  obtain ⟨text, htext⟩ := Option.isSome_iff_exists.mp h.text
  refine ⟨BasicMessageProcessor.slyDataOf (earlier ++ [final]), ?_⟩
  unfold BasicMessageProcessor.report
  rw [BasicMessageProcessor.processMessages_eq]
  simp only [Except.map, BasicMessageProcessor.getAnswer, BasicMessageProcessor.getStructure,
    BasicMessageProcessor.getSlyData, BasicMessageProcessor.getChatContext, chatContextOf,
    BasicMessageProcessor.slyDataOf]
  rw [List.foldl_append, List.foldl_cons, List.foldl_nil, AnswerMessageProcessor.keep,
    if_pos hanswer]
  simp [AnswerMessageProcessor.record, htext]

/-- A tool call finds what a basic processor reports exactly if no nested network wrote
a text as the framework, and the session's last message has a chat context, as sessions
write it; without one, the last content before it has to be a chat context only, and
the last message must not have a structure. -/
theorem sameAnswer_iff (loads : RepairLoads) {earlier : List ChatMessage} {final : ChatMessage}
    (h : EndsChat earlier final) :
    SameAnswer loads (earlier ++ [final]) ↔
      NoFrameworkText earlier ∧
        (final.chatContext.isSome ∨ final.struct = none ∧ LastHasContextOnly earlier) := by
  obtain ⟨slyData, hreport⟩ := report_final loads h
  obtain ⟨text, htext⟩ := Option.isSome_iff_exists.mp h.text
  have hsame : SameAnswer loads (earlier ++ [final]) ↔
      final.text = some (accumulate (earlier ++ [final])).responseText ∧
        final.struct = (accumulate (earlier ++ [final])).struct ∧
        some (chatContextOf (earlier ++ [final])) =
          (accumulate (earlier ++ [final])).chatContext := by
    unfold SameAnswer
    simp [hreport]
  have hcontext : chatContextOf (earlier ++ [final]) =
      final.chatContext.getD (chatContextOf earlier) := by
    rw [chatContextOf_append, if_pos h.type]
  have hjoined : final.text = some (accumulate (earlier ++ [final])).responseText ↔
      NoFrameworkText earlier := by
    rw [accumulate_append, ← responseText_eq_nil_iff, htext]
    simp only [accumulateOne, extractToolResponsePart, h.type, if_true, htext, Option.getD_some,
      Option.some_inj, List.self_eq_append_left]
  rw [hsame, hjoined, hcontext, accumulate_append]
  apply and_congr_right
  intro hnone
  unfold Accumulated.struct Accumulated.chatContext accumulateOne extractToolResponsePart
    constructMcpStructedContent
  rw [if_pos h.type]
  cases hfinal : final.chatContext with
  | some chatContext => simp
  | none =>
      cases hstruct : final.struct with
      | some struct => simp
      | none =>
          simp only [Option.isNone_none, Bool.and_self, if_true, Option.none_or, Option.getD_none,
            Option.isSome_none, Bool.false_eq_true, false_or, true_and]
          rw [responseStructure_eq]
          constructor
          · rintro ⟨hlastStruct, hlastContext⟩
            cases hlast : earlier.reverse.find? hasContent with
            | none => simp [hlast] at hlastContext
            | some m =>
                rw [hlast] at hlastStruct
                exact ⟨m, hlast, hlastStruct.symm⟩
          · rintro ⟨m, hlast, hm⟩
            obtain ⟨chatContext, hcontext⟩ := chatContext_of_lastHasContextOnly hlast hm
            have hfound : (accumulate earlier).chatContext = some chatContext := by
              simp [Accumulated.chatContext, responseStructure_eq, hlast, hcontext]
            rw [hlast, chatContextOf_eq hfound]
            simp [hm, hcontext]

/-- The session's last message of a chat. -/
def plainFinal : ChatMessage :=
  ⟨.agentFramework, none, some (str "Done."), some [], none, none, none⟩

/-- A message that a nested network wrote as the framework, as it is forwarded. -/
def forwardedText : ChatMessage :=
  ⟨.agentFramework, some [[], []], some (str "Working."), some [], none, none, none⟩

/-- What an agent says to the user on the way, and a message without a text that a nested
network wrote as the framework. -/
def onTheWay : List ChatMessage :=
  [⟨.ai, some [[]], some (str "Let me see."), none, none, none, none⟩,
    ⟨.agentFramework, some [[], []], none, some [(str "nested", .bool true)], none, none, none⟩]

/-- The last message of a chat with a structure. -/
def structuredFinal : ChatMessage :=
  { plainFinal with
    text := some (str "It rains.")
    chatContext := some [(str "chat_histories", .arr [])]
    struct := some [(str "rain", .bool true)] }

/-- A tool call answers with the text, the structure and the chat context that are reported. -/
theorem sameAnswer_structured :
    SameAnswer (fun _ => .error .jsonDecodeError) (onTheWay ++ [structuredFinal]) := by
  have hends : EndsChat onTheWay structuredFinal := by
    refine ⟨rfl, rfl, rfl, ?_⟩
    intro m hm htype
    rcases List.mem_cons.mp hm with rfl | hm
    · cases htype
    · obtain rfl := List.mem_singleton.mp hm
      exact ⟨[[], []], rfl, by decide⟩
  refine (sameAnswer_iff _ hends).mpr ⟨?_, .inl rfl⟩
  intro m hm htype
  rcases List.mem_cons.mp hm with rfl | hm
  · cases htype
  · obtain rfl := List.mem_singleton.mp hm
    rfl

/-- The text that a nested network wrote is part of what a tool call answers, but not of
what a basic processor reports. -/
theorem forwardedText_joined :
    ¬ ∀ (loads : RepairLoads) (earlier : List ChatMessage) (final : ChatMessage),
      EndsChat earlier final → SameAnswer loads (earlier ++ [final]) := by
  intro hall
  have hends : EndsChat [forwardedText] plainFinal := by
    refine ⟨rfl, rfl, rfl, ?_⟩
    intro m hm htype
    rw [List.mem_singleton.mp hm]
    exact ⟨[[], []], rfl, by decide⟩
  obtain ⟨r, hreport, hanswer, hrest⟩ :=
    hall (fun _ => .error .jsonDecodeError) [forwardedText] plainFinal hends
  have hfound : BasicMessageProcessor.report (fun _ => .error .jsonDecodeError)
      ([forwardedText] ++ [plainFinal]) = .ok ⟨some (str "Done."), none, none, []⟩ := rfl
  rw [hfound] at hreport
  cases hreport
  exact absurd hanswer (by decide)

end NoraFleet.Mcp
