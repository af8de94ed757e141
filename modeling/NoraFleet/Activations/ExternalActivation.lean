import Mathlib
import NoraFleet.Base.Dumps
import NoraFleet.Messages.Processors

/-!
# Agents of other networks as tools

An external agent is called over a session, whose responses are read one by one. The
call of an asynchronous generator does nothing yet: that the agent cannot be reached
shows only when its responses are read, after the loop that would try again.

* `build_asyncGenerator` — with an asynchronous generator, the first stream is the only
  one, and what it raises is raised;
* `answersTool_iff` — when a tool call ends as it should.
-/

namespace NoraFleet.Messages

open Base
open Base.Json (Members)

/-- The name of a type. -/
def ChatMessageType.name : ChatMessageType → PyStr
  | .unknownMessageType => str "UNKNOWN_MESSAGE_TYPE"
  | .system => str "SYSTEM"
  | .human => str "HUMAN"
  | .ai => str "AI"
  | .agent => str "AGENT"
  | .agentFramework => str "AGENT_FRAMEWORK"
  | .agentToolResult => str "AGENT_TOOL_RESULT"
  | .agentProgress => str "AGENT_PROGRESS"

/-- The members of a message's dictionary that a message is made of. -/
def ChatMessage.members (m : ChatMessage) : Members :=
  [(str "type", .str m.type.name)] ++
    (m.text.map fun text => (str "text", Json.str text)).toList ++
    (m.toolResultOrigin.map fun origin =>
      (str "tool_result_origin", .arr (origin.map .obj))).toList ++
    (m.struct.map fun struct => (str "structure", .obj struct)).toList

/-- `json.dumps`, as it raises. -/
def jsonDumps (layout : Json.Layout) (room : Nat) (v : Json) : Except PyError PyStr :=
  match Json.dumps layout room v with
  | .ok text => .ok text
  | .error .valueError => .error .valueError
  | .error .recursionError => .error .recursionError

/-- `get_compiled_answer()`: the answer, and the structure behind it, if there is one. -/
def BasicMessageProcessor.getCompiledAnswer (room : Nat) (processor : BasicMessageProcessor) :
    Except PyError (Option PyStr) :=
  match processor.getStructure with
  | none => .ok processor.getAnswer
  | some struct =>
      match jsonDumps (.indented 4) room (Json.obj struct).sortKeys with
      | .error e => .error e
      | .ok stringStruct =>
          .ok (some (processor.getAnswer.getD [] ++ str "\n```json\n" ++ stringStruct ++
            str "\n```"))

end NoraFleet.Messages

namespace NoraFleet.Activations

open Base NoraFleet.Messages NoraFleet.Networks
open Base.Json (Members)

/-! ## Sessions -/

/-- What a session raises that cannot reach its agent. -/
inductive StreamError where
  | clientPayloadError
  | valueError

/-- What reading a stream gives: the responses, and what is raised after them, if
anything. A response may be without a message. -/
structure ResponseStream where
  responses : List (Option ChatMessage)
  raised : Option StreamError

/-- `chat_response.get("response", empty)`. -/
def messageOf (response : Option ChatMessage) : ChatMessage :=
  response.getD ⟨.unknownMessageType, none, none, none, none, none, none⟩

/-- A request to an external agent. -/
structure ChatRequest where
  text : PyStr
  chatContext : Option Members
  slyData : Option SlyData
  maximal : Bool

/-- What the n-th call of `session.streaming_chat(chat_request)` gives: a stream to be
read, or what the call raises. -/
abbrev StreamingChat := ChatRequest → Nat → Except StreamError ResponseStream

/-- An asynchronous generator: the call raises nothing. -/
def asyncGenerator (streams : ChatRequest → Nat → ResponseStream) : StreamingChat :=
  fun request attempt => .ok (streams request attempt)

/-! ## The activation -/

/-- `ExternalActivation`. The sly data is what the calling agent lets through, and the
origin is that of its journal. -/
structure ExternalActivation where
  agentUrl : PyStr
  arguments : Json
  slyData : Option SlyData
  allowFromDownstream : Json
  report : Bool
  chatContext : Option Members
  origin : List Members

/-- What the environment of an activation decides: how a structure in a text is read,
which messages can be made, how settings are found, and how deep documents can be
nested when they are written. -/
structure Environment where
  loads : RepairLoads
  check : MessageCheck
  extractorGet : ExtractorGet
  room : Nat

/-- What `build` raises: what the session raised, or what something else did. -/
inductive BuildError where
  | session (e : StreamError)
  | other (e : PyError)

/-- A run of `build`: the streams that it read, and the content of the message that it
returned. -/
structure BuildRun where
  iterated : List ResponseStream
  outcome : Except BuildError PyStr

/-- What the processors of an activation keep: what is reported, and the messages that
were forwarded with their origins. -/
structure Received where
  processor : BasicMessageProcessor := {}
  forwarded : List (Option BaseMessage × List Members) := []

namespace ExternalActivation

variable (env : Environment) (activation : ExternalActivation)

/-- `gather_input(agent_input, sly_data)`. -/
def gatherInput (agentInput : PyStr) : ChatRequest where
  text := agentInput
  chatContext := activation.chatContext.filter fun chatContext => !chatContext.isEmpty
  slyData := activation.slyData.filter fun slyData => !slyData.items.isEmpty
  maximal := activation.report

/-- The request that `build` sends. -/
def chatRequest : Except PyError ChatRequest :=
  (jsonDumps ⟨1, 1, none⟩ env.room activation.arguments).map fun text =>
    activation.gatherInput (str "```json\n" ++ text ++ str "```")

/-- The text where nothing could be read. -/
def unreachableText : PyStr :=
  str "Agent/tool " ++ activation.agentUrl ++
    str " was unreachable. Cannot rely on results from it as a tool."

/-- The text where the attempts are used up. -/
def payloadErrorText : PyStr :=
  str "Agent/tool " ++ activation.agentUrl ++
    str " was unreachable due to ClientPayloadError. Cannot rely on results from it as a tool."

/-- The loop of `build` that asks for a stream, with attempts left after this one: a
stream to be read, or the text that is answered. -/
def getChatResponses (call : Nat → Except StreamError ResponseStream) :
    Nat → Nat → Except PyStr ResponseStream
  | attempt, retriesRemaining =>
      match call attempt with
      | .ok chatResponses => .ok chatResponses
      | .error .valueError => .error activation.unreachableText
      | .error .clientPayloadError =>
          match retriesRemaining with
          | 0 => .error activation.payloadErrorText
          | retriesRemaining + 1 => getChatResponses call (attempt + 1) retriesRemaining

/-- `ExternalMessageProcessor.async_process_message`: what is written to the journal, if
the message has an origin. -/
def forward (m : ChatMessage) : Except PyError (List (Option BaseMessage × List Members)) :=
  match m.origin with
  | none => .ok []
  | some messageOrigin =>
      (BaseMessageDictionaryConverter.fromDict env.check false (.obj m.members)).map fun message =>
        [(message, activation.origin ++ messageOrigin)]

/-- What the processors do with a response. The one that forwards messages comes last,
and only where messages are reported. -/
def receive (received : Received) (m : ChatMessage) : Except PyError Received :=
  match received.processor.processMessage env.loads m with
  | .error e => .error e
  | .ok processor =>
      if activation.report then
        (activation.forward env m).map fun written => ⟨processor, received.forwarded ++ written⟩
      else .ok ⟨processor, received.forwarded⟩

/-- `SlyDataRedactor(allow_from_downstream, ["sly_data"], True).filter_config(sly_data)`. -/
def redactReturned (returnedSlyData : Option SlyData) : Except PyError (Option SlyData) :=
  let redactor : SlyDataRedactor := ⟨activation.allowFromDownstream, [str "sly_data"], true⟩
  match returnedSlyData with
  | some slyData => redactor.filterConfig env.extractorGet slyData
  | none =>
      match redactor.allowDict env.extractorGet with
      | .error e => .error e
      | .ok (.bool true) => .ok none
      | .ok allowDict => redactor.filterBy allowDict .empty

/-- What `build` does after its stream has been read. -/
def prepareOutput (processor : BasicMessageProcessor) : Except PyError PyStr :=
  match processor.getCompiledAnswer env.room with
  | .error e => .error e
  | .ok answer =>
      match activation.redactReturned env processor.getSlyData with
      | .error e => .error e
      | .ok _ => .ok (answer.getD [])

/-- What `build` does with a stream: what is raised while it is read is raised. -/
def readResponses (chatResponses : ResponseStream) : Except BuildError PyStr :=
  match (chatResponses.responses.map messageOf).foldlM (activation.receive env) {} with
  | .error e => .error (.other e)
  | .ok received =>
      match chatResponses.raised with
      | some e => .error (.session e)
      | none =>
          match activation.prepareOutput env received.processor with
          | .error e => .error (.other e)
          | .ok answer => .ok answer

/-- `build()`. -/
def build (streamingChat : StreamingChat) : BuildRun :=
  match activation.chatRequest env with
  | .error e => ⟨[], .error (.other e)⟩
  | .ok request =>
      match activation.getChatResponses (streamingChat request) 0 1 with
      | .error text => ⟨[], .ok text⟩
      | .ok chatResponses => ⟨[chatResponses], activation.readResponses env chatResponses⟩

end ExternalActivation

open ExternalActivation

/-! ## Tool calls that end as they should -/

/-- The content that is compiled from the responses of a stream, and from nothing else. -/
def Compiled (env : Environment) (stream : ResponseStream) (text : PyStr) : Prop :=
  ∃ processor answer,
    BasicMessageProcessor.processMessages env.loads {} (stream.responses.map messageOf) =
      .ok processor ∧
    processor.getCompiledAnswer env.room = .ok answer ∧ text = answer.getD []

/-- How a run may end, for the streams that the attempts give: with the answer of a
stream that was read to its end, or with the text that the agent was unreachable. There
is a second attempt only after a `ClientPayloadError`, and no third one. -/
inductive Answered (env : Environment) (activation : ExternalActivation)
    (streams : Nat → ResponseStream) : BuildRun → Prop
  | completed {text} : (streams 0).raised = none → Compiled env (streams 0) text →
      Answered env activation streams ⟨[streams 0], .ok text⟩
  | completedOnRetry {text} : (streams 0).raised = some .clientPayloadError →
      (streams 1).raised = none → Compiled env (streams 1) text →
      Answered env activation streams ⟨[streams 0, streams 1], .ok text⟩
  | unreachable : (streams 0).raised = some .valueError →
      Answered env activation streams ⟨[streams 0], .ok activation.unreachableText⟩
  | unreachableOnRetry : (streams 0).raised = some .clientPayloadError →
      (streams 1).raised = some .valueError →
      Answered env activation streams ⟨[streams 0, streams 1], .ok activation.unreachableText⟩
  | usedUp : (streams 0).raised = some .clientPayloadError →
      (streams 1).raised = some .clientPayloadError →
      Answered env activation streams ⟨[streams 0, streams 1], .ok activation.payloadErrorText⟩

/-- A tool call ends as it should. -/
def AnswersTool (env : Environment) (activation : ExternalActivation)
    (streams : ChatRequest → Nat → ResponseStream) : Prop :=
  ∃ request, activation.chatRequest env = .ok request ∧
    Answered env activation (streams request) (activation.build env (asyncGenerator streams))

/-- What a basic processor keeps of the responses of a stream. -/
def kept (stream : ResponseStream) : BasicMessageProcessor :=
  let messages := stream.responses.map messageOf
  ⟨messages.foldl AnswerMessageProcessor.keep {},
    messages.foldl ChatContextMessageProcessor.processMessage {},
    messages.foldl TokenAccountingMessageProcessor.processMessage {}⟩

/-- A stream that is read to its end, and whose responses can be forwarded, written as
JSON and redacted. -/
structure Completes (env : Environment) (activation : ExternalActivation)
    (stream : ResponseStream) : Prop where
  ended : stream.raised = none
  forwarded : activation.report = true → ∀ response ∈ stream.responses,
    ∃ written, activation.forward env (messageOf response) = .ok written
  dumped : ∀ struct, (kept stream).getStructure = some struct →
    ∃ text, jsonDumps (.indented 4) env.room (Json.obj struct).sortKeys = .ok text
  redacted : ∃ slyData, activation.redactReturned env (kept stream).getSlyData = .ok slyData

section Runs

variable (env : Environment) (activation : ExternalActivation)

theorem receive_ok_iff (received : Received) (m : ChatMessage) :
    (∃ after, activation.receive env received m = .ok after) ↔
      (activation.report = true → ∃ written, activation.forward env m = .ok written) := by
  unfold receive BasicMessageProcessor.processMessage
  rw [AnswerMessageProcessor.processMessage_nil]
  cases hreport : activation.report with
  | false => simp
  | true =>
      cases hforward : activation.forward env m with
      | error e => simp [Except.map]
      | ok written => simp [Except.map]

variable {env activation}

theorem receive_processor {received after : Received} {m : ChatMessage}
    (h : activation.receive env received m = .ok after) :
    received.processor.processMessage env.loads m = .ok after.processor := by
  unfold receive at h
  cases hprocessed : received.processor.processMessage env.loads m with
  | error e => rw [hprocessed] at h; cases h
  | ok processor =>
      simp only [hprocessed] at h
      split at h
      · obtain ⟨written, hwritten, hafter⟩ := exists_of_map_eq_ok h
        rw [← hafter]
      · cases h
        rfl

variable (env activation)

/-- All responses of a stream can be received if all can be forwarded. -/
theorem foldlM_receive_ok_iff (messages : List ChatMessage) (received : Received) :
    (∃ after, messages.foldlM (activation.receive env) received = .ok after) ↔
      (activation.report = true → ∀ m ∈ messages, ∃ written,
        activation.forward env m = .ok written) := by
  induction messages generalizing received with
  | nil => exact iff_of_true ⟨received, rfl⟩ (by simp)
  | cons m messages ih =>
      have hhead := receive_ok_iff env activation received m
      rw [List.foldlM_cons]
      cases hstep : activation.receive env received m with
      | error e =>
          apply iff_of_false
          · rintro ⟨after, h⟩
            cases h
          · intro hall
            obtain ⟨after, hafter⟩ := hhead.mpr fun hreport => hall hreport m List.mem_cons_self
            rw [hstep] at hafter
            cases hafter
      | ok next =>
          have hfirst := hhead.mp ⟨next, hstep⟩
          show (∃ after, messages.foldlM (activation.receive env) next = .ok after) ↔ _
          rw [ih next]
          simp only [List.forall_mem_cons]
          exact ⟨fun hrest hreport => ⟨hfirst hreport, hrest hreport⟩,
            fun hall hreport => (hall hreport).2⟩

theorem foldlM_receive_processor (messages : List ChatMessage) {received after : Received}
    (h : messages.foldlM (activation.receive env) received = .ok after) :
    received.processor.processMessages env.loads messages = .ok after.processor := by
  induction messages generalizing received with
  | nil => cases h; rfl
  | cons m messages ih =>
      rw [List.foldlM_cons] at h
      cases hstep : activation.receive env received m with
      | error e => rw [hstep] at h; cases h
      | ok next =>
          rw [hstep] at h
          have htail := ih h
          unfold BasicMessageProcessor.processMessages at htail ⊢
          rw [List.foldlM_cons, receive_processor hstep]
          exact htail

theorem processMessages_kept (stream : ResponseStream) :
    BasicMessageProcessor.processMessages env.loads {} (stream.responses.map messageOf) =
      .ok (kept stream) :=
  BasicMessageProcessor.processMessages_eq env.loads {} _

/-- What `build` does after its stream was read returns what was compiled. -/
theorem prepareOutput_ok_iff (processor : BasicMessageProcessor) (text : PyStr) :
    activation.prepareOutput env processor = .ok text ↔
      (∃ answer, processor.getCompiledAnswer env.room = .ok answer ∧ text = answer.getD []) ∧
        ∃ slyData, activation.redactReturned env processor.getSlyData = .ok slyData := by
  unfold prepareOutput
  cases hcompiled : processor.getCompiledAnswer env.room with
  | error e => simp
  | ok answer =>
      cases hredacted : activation.redactReturned env processor.getSlyData with
      | error e => simp
      | ok slyData => simp [eq_comm]

theorem getCompiledAnswer_ok_iff (processor : BasicMessageProcessor) :
    (∃ answer, processor.getCompiledAnswer env.room = .ok answer) ↔
      ∀ struct, processor.getStructure = some struct →
        ∃ text, jsonDumps (.indented 4) env.room (Json.obj struct).sortKeys = .ok text := by
  unfold BasicMessageProcessor.getCompiledAnswer
  cases processor.getStructure with
  | none => simp
  | some struct =>
      cases hdump : jsonDumps (.indented 4) env.room (Json.obj struct).sortKeys with
      | error e => simp [hdump]
      | ok text => simp [hdump]

variable {env activation}

/-- After the stream, the processor holds what is kept of it. -/
theorem processor_of_receive {stream : ResponseStream} {received : Received}
    (hread : (stream.responses.map messageOf).foldlM (activation.receive env) {} = .ok received) :
    received.processor = kept stream := by
  have hprocessed := foldlM_receive_processor env activation _ hread
  rw [processMessages_kept] at hprocessed
  exact (Except.ok.inj hprocessed).symm

/-- A stream that is read to an answer completes, and the answer is its own. -/
theorem completes_of_readResponses {stream : ResponseStream} {text : PyStr}
    (h : activation.readResponses env stream = .ok text) :
    Completes env activation stream ∧ Compiled env stream text := by
  unfold readResponses at h
  cases hread : (stream.responses.map messageOf).foldlM (activation.receive env) {} with
  | error e => simp [hread] at h
  | ok received =>
      have hkept := processor_of_receive hread
      have hforwarded := (foldlM_receive_ok_iff env activation _ {}).mp ⟨received, hread⟩
      simp only [hread, hkept] at h
      cases hraised : stream.raised with
      | some e => simp [hraised] at h
      | none =>
          cases hprepared : activation.prepareOutput env (kept stream) with
          | error e => simp [hraised, hprepared] at h
          | ok answer =>
              have htext : answer = text := by simpa [hraised, hprepared] using h
              rw [htext] at hprepared
              obtain ⟨⟨found, hfound, hsame⟩, hredacted⟩ :=
                (prepareOutput_ok_iff env activation _ _).mp hprepared
              refine ⟨⟨hraised, ?_, ?_, hredacted⟩, ⟨_, found, processMessages_kept env stream,
                hfound, hsame⟩⟩
              · intro hreport response hresponse
                exact hforwarded hreport _ (List.mem_map_of_mem hresponse)
              · exact (getCompiledAnswer_ok_iff env _).mp ⟨found, hfound⟩

theorem readResponses_of_completes {stream : ResponseStream}
    (h : Completes env activation stream) :
    ∃ text, activation.readResponses env stream = .ok text := by
  obtain ⟨received, hread⟩ := (foldlM_receive_ok_iff env activation
    (stream.responses.map messageOf) {}).mpr fun hreport => by
      intro m hm
      obtain ⟨response, hresponse, rfl⟩ := List.mem_map.mp hm
      exact h.forwarded hreport response hresponse
  have hkept := processor_of_receive hread
  obtain ⟨answer, hanswer⟩ := (getCompiledAnswer_ok_iff env _).mpr h.dumped
  have hprepared := (prepareOutput_ok_iff env activation (kept stream) (answer.getD [])).mpr
    ⟨⟨answer, hanswer, rfl⟩, h.redacted⟩
  refine ⟨answer.getD [], ?_⟩
  unfold readResponses
  simp only [hread, hkept, h.ended, hprepared]

/-- The call of an asynchronous generator raises nothing, so that there is never a second
attempt: the first stream is read, and what it raises is raised. -/
theorem build_asyncGenerator {request : ChatRequest}
    (hrequest : activation.chatRequest env = .ok request)
    (streams : ChatRequest → Nat → ResponseStream) :
    activation.build env (asyncGenerator streams) =
      ⟨[streams request 0], activation.readResponses env (streams request 0)⟩ := by
  unfold build
  simp only [hrequest, getChatResponses, asyncGenerator]

end Runs

/-- A tool call ends as it should exactly if the first stream is read to its end, and
its responses can be forwarded, written and redacted. -/
theorem answersTool_iff (env : Environment) (activation : ExternalActivation)
    (streams : ChatRequest → Nat → ResponseStream) :
    AnswersTool env activation streams ↔
      ∃ request, activation.chatRequest env = .ok request ∧
        Completes env activation (streams request 0) := by
  unfold AnswersTool
  apply exists_congr
  intro request
  apply and_congr_right
  intro hrequest
  rw [build_asyncGenerator hrequest]
  constructor
  · intro h
    generalize hread : activation.readResponses env (streams request 0) = outcome at h
    cases h with
    | completed hended hcompiled => exact (completes_of_readResponses hread).1
    | unreachable hraised =>
        have hended := (completes_of_readResponses hread).1.ended
        rw [hraised] at hended
        cases hended
  · intro h
    obtain ⟨text, hread⟩ := readResponses_of_completes h
    rw [hread]
    exact .completed h.ended (completes_of_readResponses hread).2

/-- Nothing can be made of a text, and every message can be made. -/
def plainEnvironment : Environment :=
  ⟨fun _ => .error .jsonDecodeError, fun _ => none, dictionaryGet, 1000⟩

/-- An activation without any settings. -/
def plainActivation : ExternalActivation :=
  ⟨str "/other_network", .obj [], none, .obj [], false, none, []⟩

/-- The agent cannot be reached, at any attempt. -/
theorem unreachable_raises :
    ¬ ∀ (env : Environment) (activation : ExternalActivation)
      (streams : ChatRequest → Nat → ResponseStream), AnswersTool env activation streams := by
  intro hall
  obtain ⟨request, hrequest, hanswered⟩ :=
    hall plainEnvironment plainActivation fun _ _ => ⟨[], some .valueError⟩
  rw [build_asyncGenerator hrequest] at hanswered
  have hread : plainActivation.readResponses plainEnvironment ⟨[], some .valueError⟩ =
    .error (.session .valueError) := rfl
  rw [hread] at hanswered
  cases hanswered

end NoraFleet.Activations
