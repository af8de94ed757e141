import Mathlib
import NoraFleet.RunContext.ChainResults

/-!
# Messages as dictionaries and back

`BaseMessageDictionaryConverter.to_dict` makes a dictionary of a message, with the text of
its content: the content itself, or what the first block of a list of content blocks has
as its text. `from_dict` makes a message of the dictionary again. The text of an answer is
found otherwise, in the first block of text.

What attributes a message has beside its content is a parameter.

* `fromDict_toJsonDict` — what comes back, where the dictionary has a text;
* `roundTripsAsText_iff` — when the text that comes back is the text of the answer.
-/

namespace NoraFleet.Messages

open Base RunContext

namespace ChatMessageType

/-- `ChatMessageType.from_message(base_message)`. -/
def fromMessage : BaseMessage → ChatMessageType
  | .system _ => .system
  | .human _ => .human
  | .ai _ => .ai
  | .tool _ => .unknownMessageType
  | .agent _ _ => .agent
  | .agentFramework _ => .agentFramework
  | .agentToolResult _ _ => .agentToolResult
  | .agentProgress _ _ => .agentProgress

/-- The number of a type. -/
def value : ChatMessageType → ℤ
  | .unknownMessageType => 0
  | .system => 1
  | .human => 2
  | .ai => 4
  | .agent => 100
  | .agentFramework => 101
  | .agentToolResult => 103
  | .agentProgress => 104

theorem fromResponseType_value (type : ChatMessageType) :
    fromResponseType (.int type.value) = .ok type := by
  cases type <;> rfl

end ChatMessageType

/-- `getattr(message, src, None)`. -/
abbrev Attributes := BaseMessage → PyStr → Json

namespace BaseMessageDictionaryConverter

/-- What `to_dict` takes from the content of a message. The first of the content blocks
is not looked at for being a dictionary. -/
def textValue : Json → Except PyError Json
  | .arr [] => .ok .null
  | .arr (.obj block :: _) => .ok (blockText (.obj block))
  | .arr (_ :: _) => .error .attributeError
  | content => .ok content

/-- `chat_message[dest] = value`, of a value that is not `None`. -/
def optional (dest : PyStr) : Json → List (PyStr × Json)
  | .null => []
  | value => [(dest, value)]

/-- The attributes of a message that have the same name in its dictionary. -/
def optionals : List PyStr :=
  [str "chat_context", str "tool_result_origin", str "structure", str "sly_data"]

/-- `to_dict(obj)`, of a message with any content. -/
def toJsonDict (attributes : Attributes) (origin : Json) (message : BaseMessage) :
    Except PyError (List (PyStr × Json)) :=
  (textValue message.content).map fun text =>
    (str "type", .int (ChatMessageType.fromMessage message).value) ::
      (optional (str "origin") origin ++ (optional (str "text") text ++
        optionals.flatMap fun src => optional src (attributes message src)))

/-! ## Round trips -/

/-- A message comes back as one of the same type with a text, and that is the text of an
answer with its content. -/
def RoundTripsAsText (check : MessageCheck) (attributes : Attributes) (origin : Json)
    (message : BaseMessage) : Prop :=
  ∃ chatMessage returned text, toJsonDict attributes origin message = .ok chatMessage ∧
    fromDict check true (.obj chatMessage) = .ok (some returned) ∧
    ChatMessageType.fromMessage returned = ChatMessageType.fromMessage message ∧
    returned.content = .str text ∧ contentText message.content = .str text

/-- Content of langchain's: a text, or a list of texts and blocks. -/
def IsContent : Json → Prop
  | .str _ => True
  | .arr blocks => ∀ block ∈ blocks, (∃ s, block = .str s) ∨ ∃ members, block = .obj members
  | _ => False

/-- Messages with a text can be made. -/
def AcceptsText (check : MessageCheck) : Prop :=
  ∀ message s, isRelevantToChatHistory message = true → message.content = .str s →
    check message = none

/-- A list begins with a block that has a text, and that is the first block of text, or
has the same text as that; without a block of text it is empty. -/
def BeginsWithText (blocks : List Json) : Prop :=
  ∃ block rest text, blocks = .obj block :: rest ∧ blockText (.obj block) = .str text ∧
    (isTextBlock (.obj block) = true ∨
      (rest.find? isTextBlock = none ∧ text = []) ∨
      ∃ first, rest.find? isTextBlock = some first ∧ blockText first = .str text)

/-- A content that is a text, or that begins with it. -/
def TextFirst (content : Json) : Prop :=
  (∃ s, content = .str s) ∨ ∃ blocks, content = .arr blocks ∧ BeginsWithText blocks

section RoundTrip

variable {check : MessageCheck} {attributes : Attributes} {origin : Json} {message : BaseMessage}

theorem field_type (n : ℤ) (rest : List (PyStr × Json)) :
    field ((str "type", .int n) :: rest) "type" = .int n := by
  rw [field, Json.lookup_cons, if_pos rfl]
  rfl

theorem lookup_optional (key dest : PyStr) (v : Json) (rest : List (PyStr × Json))
    (hne : dest ≠ key) :
    Json.lookup (optional dest v ++ rest) key = Json.lookup rest key := by
  cases v with
  | null => rfl
  | _ =>
      show Json.lookup ((dest, _) :: rest) key = _
      rw [Json.lookup_cons, if_neg hne]

/-- No attribute of another name is the text. -/
theorem lookup_optionals (f : PyStr → Json) (sources : List PyStr)
    (hne : str "text" ∉ sources) :
    Json.lookup (sources.flatMap fun src => optional src (f src)) (str "text") = none := by
  induction sources with
  | nil => rfl
  | cons src rest ih =>
      rw [List.mem_cons, not_or] at hne
      rw [List.flatMap_cons, lookup_optional _ _ _ _ (Ne.symm hne.1)]
      exact ih hne.2

/-- The text is found again. -/
theorem field_text {chatMessage : List (PyStr × Json)} {text : Json}
    (htext : textValue message.content = .ok text)
    (hdict : toJsonDict attributes origin message = .ok chatMessage) :
    field chatMessage "text" = text := by
  rw [toJsonDict, htext] at hdict
  obtain rfl := Except.ok.inj hdict
  rw [field, Json.lookup_cons, if_neg (show str "type" ≠ str "text" by decide),
    lookup_optional _ _ _ _ (by decide)]
  cases text with
  | null =>
      rw [optional, List.nil_append, lookup_optionals _ _ (by decide)]
      rfl
  | _ =>
      rw [optional, List.singleton_append, Json.lookup_cons, if_pos rfl]
      · rfl
      · exact fun h => by cases h

/-- What comes back of a relevant message has the type of the message, and the text of the
dictionary. -/
theorem fromDict_toJsonDict {chatMessage : List (PyStr × Json)} {text : Json}
    (hrelevant : isRelevantToChatHistory message = true)
    (htool : ∀ content, message ≠ .tool content)
    (htext : textValue message.content = .ok text)
    (hdict : toJsonDict attributes origin message = .ok chatMessage) :
    ∃ returned, fromDict check true (.obj chatMessage) = BaseMessage.make check returned ∧
      isRelevantToChatHistory returned = true ∧
      ChatMessageType.fromMessage returned = ChatMessageType.fromMessage message ∧
      returned.content = text := by
  have hfield := field_text htext hdict
  have htype : field chatMessage "type" =
      .int (ChatMessageType.fromMessage message).value := by
    rw [toJsonDict, htext] at hdict
    obtain rfl := Except.ok.inj hdict
    exact field_type _ _
  have hread : ChatMessageType.fromResponseType (field chatMessage "type") =
      .ok (ChatMessageType.fromMessage message) := by
    rw [htype, ChatMessageType.fromResponseType_value]
  rw [fromDict_obj hread]
  cases message with
  | system content => exact ⟨_, rfl, rfl, rfl, hfield⟩
  | human content => exact ⟨_, rfl, rfl, rfl, hfield⟩
  | ai content => exact ⟨_, rfl, rfl, rfl, hfield⟩
  | agentToolResult content toolResultOrigin => exact ⟨_, rfl, rfl, rfl, hfield⟩
  | tool content => exact absurd rfl (htool content)
  | agent content struct => cases hrelevant
  | agentFramework content => cases hrelevant
  | agentProgress content struct => cases hrelevant

/-- A round trip is one of the text that the dictionary has. -/
theorem roundTripsAsText_iff_textValue (hcheck : AcceptsText check)
    (hrelevant : isRelevantToChatHistory message = true) :
    RoundTripsAsText check attributes origin message ↔
      ∃ text, textValue message.content = .ok (.str text) ∧
        contentText message.content = .str text := by
  have htool : ∀ content, message ≠ .tool content := by
    rintro content rfl
    cases hrelevant
  constructor
  · rintro ⟨chatMessage, returned, text, hdict, hreturned, -, hcontent, hcontentText⟩
    cases htext : textValue message.content with
    | error e =>
        rw [toJsonDict, htext] at hdict
        cases hdict
    | ok value =>
        obtain ⟨made, hmade, -, -, hvalue⟩ :=
          @fromDict_toJsonDict check _ _ _ _ _ hrelevant htool htext hdict
        rw [hmade] at hreturned
        obtain rfl := Option.some.inj (make_eq_ok.mp hreturned).2
        exact ⟨text, by rw [← hvalue, hcontent], hcontentText⟩
  · rintro ⟨text, htext, hcontentText⟩
    have hdict : ∃ chatMessage, toJsonDict attributes origin message = .ok chatMessage := by
      rw [toJsonDict, htext]
      exact ⟨_, rfl⟩
    obtain ⟨chatMessage, hdict⟩ := hdict
    obtain ⟨made, hmade, hmadeRelevant, htype, hvalue⟩ :=
      @fromDict_toJsonDict check _ _ _ _ _ hrelevant htool htext hdict
    refine ⟨chatMessage, made, text, hdict, ?_, htype, hvalue, hcontentText⟩
    rw [hmade]
    exact make_eq_ok.mpr ⟨hcheck made text hmadeRelevant hvalue, rfl⟩

/-- The two texts of a list of content blocks. -/
theorem textValue_contentText_iff (blocks : List Json) :
    (∃ text, textValue (.arr blocks) = .ok (.str text) ∧ contentText (.arr blocks) = .str text) ↔
      BeginsWithText blocks := by
  have hfirst : contentText (.arr blocks) = firstText blocks := rfl
  rw [hfirst]
  constructor
  · rintro ⟨text, hvalue, hfirstText⟩
    cases blocks with
    | nil => cases hvalue
    | cons first rest =>
        cases first with
        | obj block =>
            refine ⟨block, rest, text, rfl, Except.ok.inj hvalue, ?_⟩
            rw [firstText] at hfirstText
            split at hfirstText
            case isTrue hblock => exact .inl hblock
            case isFalse hblock =>
                right
                rw [firstText_eq] at hfirstText
                cases hfind : rest.find? isTextBlock with
                | none =>
                    rw [hfind] at hfirstText
                    exact .inl ⟨rfl, (Json.str.inj hfirstText).symm⟩
                | some found =>
                    rw [hfind] at hfirstText
                    exact .inr ⟨found, rfl, hfirstText⟩
        | null => cases hvalue
        | bool b => cases hvalue
        | int n => cases hvalue
        | float x => cases hvalue
        | str s => cases hvalue
        | arr items => cases hvalue
  · rintro ⟨block, rest, text, rfl, htext, hcases⟩
    refine ⟨text, congrArg Except.ok htext, ?_⟩
    rw [firstText]
    split
    case isTrue hblock => exact htext
    case isFalse hblock =>
        rw [firstText_eq]
        rcases hcases with hcontra | ⟨hnone, rfl⟩ | ⟨first, hsome, hfirst⟩
        · exact absurd hcontra hblock
        · rw [hnone]
          rfl
        · rw [hsome]
          exact hfirst

end RoundTrip

/-- **Round trips of texts.** A relevant message comes back with its type and with the text
that an answer of its content has exactly where its content is a text, or a list that
begins with a block of the same text. -/
theorem roundTripsAsText_iff (check : MessageCheck) (hcheck : AcceptsText check)
    (attributes : Attributes) (origin : Json) (message : BaseMessage)
    (hrelevant : isRelevantToChatHistory message = true) (hcontent : IsContent message.content) :
    RoundTripsAsText check attributes origin message ↔ TextFirst message.content := by
  rw [roundTripsAsText_iff_textValue hcheck hrelevant, TextFirst]
  cases hmessage : message.content with
  | str s =>
      have hsome : ∃ text, textValue (.str s) = .ok (.str text) ∧
          contentText (.str s) = .str text :=
        ⟨s, rfl, rfl⟩
      simp [hsome]
  | arr blocks => simp [textValue_contentText_iff]
  | null => simp [hmessage, IsContent] at hcontent
  | bool b => simp [hmessage, IsContent] at hcontent
  | int n => simp [hmessage, IsContent] at hcontent
  | float x => simp [hmessage, IsContent] at hcontent
  | obj members => simp [hmessage, IsContent] at hcontent

/-- A message of the model that thinks first. -/
def thinkingFirst : BaseMessage :=
  .ai (.arr [.obj [(str "type", .str (str "thinking")), (str "thinking", .str (str "Hm"))],
    .obj [(str "type", .str (str "text")), (str "text", .str (str "Hi"))]])

/-- A message of the model that thinks afterwards. -/
def thinkingLast : BaseMessage :=
  .ai (.arr [.obj [(str "type", .str (str "text")), (str "text", .str (str "Hi"))],
    .obj [(str "type", .str (str "thinking")), (str "thinking", .str (str "Hm"))]])

/-- The text before what the model thought comes back. -/
theorem roundTripsAsText_thinkingLast :
    RoundTripsAsText (fun _ => none) (fun _ _ => .null) .null thinkingLast :=
  (roundTripsAsText_iff (fun _ => none) (fun _ _ _ _ => rfl) (fun _ _ => .null) .null
    thinkingLast rfl (by
      intro block hblock
      rcases List.mem_cons.mp hblock with rfl | hblock
      · exact .inr ⟨_, rfl⟩
      · obtain rfl := List.mem_singleton.mp hblock
        exact .inr ⟨_, rfl⟩)).mpr (.inr ⟨_, rfl, _, _, str "Hi", rfl, rfl, .inl rfl⟩)

/-- The text behind what the model thought does not come back. -/
theorem thinkingFirst_drifts :
    ¬ ∀ (check : MessageCheck) (attributes : Attributes) (origin : Json) (message : BaseMessage),
      AcceptsText check → isRelevantToChatHistory message = true → IsContent message.content →
      RoundTripsAsText check attributes origin message := by
  intro h
  obtain ⟨chatMessage, returned, text, hdict, hreturned, -, hcontent, htext⟩ :=
    h (fun _ => none) (fun _ _ => .null) .null thinkingFirst (fun _ _ _ _ => rfl) rfl (by
      intro block hblock
      rcases List.mem_cons.mp hblock with rfl | hblock
      · exact .inr ⟨_, rfl⟩
      · obtain rfl := List.mem_singleton.mp hblock
        exact .inr ⟨_, rfl⟩)
  obtain rfl := Except.ok.inj hdict
  obtain rfl := Option.some.inj (Except.ok.inj hreturned)
  obtain rfl := Json.str.inj hcontent
  cases Json.str.inj htext

end BaseMessageDictionaryConverter

end NoraFleet.Messages
