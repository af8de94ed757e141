import NoraFleet.Base.Flow
import NoraFleet.Base.Json

/-!
# Chat messages

The messages of a conversation as langchain has them, and what a dictionary that
describes a message is converted to. Its type may be given by name or by number,
and the types that langchain does not know are left out of a chat history.

Whether a message with a certain content can be made is langchain's to decide:
that check is a parameter.

* `fromDict_system_iff` — which dictionaries become system messages.
-/

namespace NoraFleet.Messages

open Base

/-- `ChatMessageType`. -/
inductive ChatMessageType where
  | unknownMessageType
  | system
  | human
  | ai
  | agent
  | agentFramework
  | agentToolResult
  | agentProgress
  deriving DecidableEq

namespace ChatMessageType

/-- `ChatMessageType(value)`. -/
def ofValue (value : ℤ) : Except PyError ChatMessageType :=
  if value = 0 then .ok .unknownMessageType
  else if value = 1 then .ok .system
  else if value = 2 then .ok .human
  else if value = 4 then .ok .ai
  else if value = 100 then .ok .agent
  else if value = 101 then .ok .agentFramework
  else if value = 103 then .ok .agentToolResult
  else if value = 104 then .ok .agentProgress
  else .error .valueError

/-- `ChatMessageType[name]`, where a `KeyError` becomes a `ValueError`. -/
def ofName (name : PyStr) : Except PyError ChatMessageType :=
  if name = str "UNKNOWN_MESSAGE_TYPE" then .ok .unknownMessageType
  else if name = str "SYSTEM" then .ok .system
  else if name = str "HUMAN" then .ok .human
  else if name = str "AI" then .ok .ai
  else if name = str "AGENT" then .ok .agent
  else if name = str "AGENT_FRAMEWORK" then .ok .agentFramework
  else if name = str "AGENT_TOOL_RESULT" then .ok .agentToolResult
  else if name = str "AGENT_PROGRESS" then .ok .agentProgress
  else .error .valueError

/-- `from_response_type(response_type)`. A boolean is a number. -/
def fromResponseType : Json → Except PyError ChatMessageType
  | .null => .ok .unknownMessageType
  | .bool b => ofValue b.toInt
  | .int value => ofValue value
  | .str name => ofName name
  | .float _ => .error .valueError
  | .arr _ | .obj _ => .error .typeError

end ChatMessageType

/-- The messages of langchain, and those that the framework adds to them. -/
inductive BaseMessage where
  | system (content : Json)
  | human (content : Json)
  | ai (content : Json)
  | tool (content : Json)
  | agent (content struct : Json)
  | agentFramework (content : Json)
  | agentToolResult (content toolResultOrigin : Json)
  | agentProgress (content struct : Json)

/-- Whether a message can be made, or what that raises. -/
abbrev MessageCheck := BaseMessage → Option PyError

/-- Make a message. -/
def BaseMessage.make (check : MessageCheck) (message : BaseMessage) :
    Except PyError (Option BaseMessage) :=
  match check message with
  | none => .ok (some message)
  | some e => .error e

namespace BaseMessageDictionaryConverter

/-- `chat_message.get(key)`. -/
def field (chatMessage : List (PyStr × Json)) (key : String) : Json :=
  (Json.lookup chatMessage (str key)).getD .null

/-- `chat_message.get("text", "")`. -/
def textOrEmpty (chatMessage : List (PyStr × Json)) : Json :=
  (Json.lookup chatMessage (str "text")).getD (.str [])

/-- The message that a dictionary of a certain type stands for. -/
def messageOf (langchainOnly : Bool) (chatMessage : List (PyStr × Json)) :
    ChatMessageType → Option BaseMessage
  | .system => some (.system (field chatMessage "text"))
  | .human => some (.human (field chatMessage "text"))
  | .ai => some (.ai (field chatMessage "text"))
  | .agentToolResult =>
      some (.agentToolResult (field chatMessage "text") (field chatMessage "tool_result_origin"))
  | .agent =>
      if langchainOnly then none
      else some (.agent (textOrEmpty chatMessage) (field chatMessage "structure"))
  | .agentFramework =>
      if langchainOnly then none else some (.agentFramework (textOrEmpty chatMessage))
  | .agentProgress =>
      if langchainOnly then none
      else some (.agentProgress (textOrEmpty chatMessage) (field chatMessage "structure"))
  | .unknownMessageType => none

/-- `from_dict(obj_dict)`. -/
def fromDict (check : MessageCheck) (langchainOnly : Bool) :
    Json → Except PyError (Option BaseMessage)
  | .null => .ok none
  | .obj chatMessage =>
      match ChatMessageType.fromResponseType (field chatMessage "type") with
      | .error e => .error e
      | .ok chatMessageType =>
          match messageOf langchainOnly chatMessage chatMessageType with
          | none => .ok none
          | some message => message.make check
  | _ => .error .attributeError

/-- `is_relevant_to_chat_history(base_message)`. -/
def isRelevantToChatHistory : BaseMessage → Bool
  | .agent _ _ | .agentFramework _ | .tool _ | .agentProgress _ _ => false
  | _ => true

/-- A dictionary that can be converted: its type is one there is, and its message, if
it has one, can be made. -/
def Converts (check : MessageCheck) (chatMessage : Json) : Prop :=
  chatMessage = .null ∨
    ∃ members type, chatMessage = .obj members ∧
      ChatMessageType.fromResponseType (field members "type") = .ok type ∧
      ∀ message, messageOf true members type = some message → check message = none

/-- A dictionary of the type of system messages. -/
def HasSystemType (chatMessage : Json) : Prop :=
  ∃ members, chatMessage = .obj members ∧
    ChatMessageType.fromResponseType (field members "type") = .ok .system

section Conversion

variable {check : MessageCheck}

/-- Only the type of system messages stands for one. -/
theorem messageOf_eq_system {members : List (PyStr × Json)} {type : ChatMessageType}
    {content : Json} (h : messageOf true members type = some (.system content)) :
    type = .system ∧ content = field members "text" := by
  cases type with
  | system => exact ⟨rfl, (BaseMessage.system.inj (Option.some.inj h)).symm⟩
  | human => cases Option.some.inj h
  | ai => cases Option.some.inj h
  | agentToolResult => cases Option.some.inj h
  | agent => cases h
  | agentFramework => cases h
  | agentProgress => cases h
  | unknownMessageType => cases h

theorem make_eq_ok {message : BaseMessage} {made : Option BaseMessage} :
    message.make check = .ok made ↔ check message = none ∧ made = some message := by
  unfold BaseMessage.make
  cases check message with
  | none => simp [eq_comm]
  | some e => simp

/-- What a dictionary of a known type is converted to. -/
theorem fromDict_obj {members : List (PyStr × Json)} {type : ChatMessageType}
    (htype : ChatMessageType.fromResponseType (field members "type") = .ok type) :
    fromDict check true (.obj members) =
      (messageOf true members type).elim (.ok none) (BaseMessage.make check) := by
  simp only [fromDict, htype]
  cases messageOf true members type <;> rfl

theorem exists_fromDict_iff (chatMessage : Json) :
    (∃ made, fromDict check true chatMessage = .ok made) ↔ Converts check chatMessage := by
  constructor
  · rintro ⟨made, hmade⟩
    cases chatMessage with
    | null => exact .inl rfl
    | obj members =>
        right
        cases htype : ChatMessageType.fromResponseType (field members "type") with
        | error e => simp [fromDict, htype] at hmade
        | ok type =>
            refine ⟨members, type, rfl, htype, ?_⟩
            intro message hmessage
            rw [fromDict_obj htype, hmessage] at hmade
            exact (make_eq_ok.mp hmade).1
    | bool b => cases hmade
    | int n => cases hmade
    | float x => cases hmade
    | str s => cases hmade
    | arr items => cases hmade
  · rintro (rfl | ⟨members, type, rfl, htype, hmake⟩)
    · exact ⟨none, rfl⟩
    · rw [fromDict_obj htype]
      cases hmessage : messageOf true members type with
      | none => exact ⟨none, rfl⟩
      | some message => exact ⟨some message, make_eq_ok.mpr ⟨hmake message hmessage, rfl⟩⟩

/-- What becomes a system message has its type and its text. -/
theorem fromDict_system_iff {chatMessage content : Json} :
    fromDict check true chatMessage = .ok (some (.system content)) ↔
      ∃ members, chatMessage = .obj members ∧
        ChatMessageType.fromResponseType (field members "type") = .ok .system ∧
        content = field members "text" ∧ check (.system content) = none := by
  constructor
  · intro h
    rcases (exists_fromDict_iff chatMessage).mp ⟨_, h⟩ with rfl | ⟨members, type, rfl, htype, -⟩
    · cases h
    · rw [fromDict_obj htype] at h
      cases hmessage : messageOf true members type with
      | none =>
          rw [hmessage] at h
          cases h
      | some message =>
          rw [hmessage] at h
          obtain ⟨hcheck, hsystem⟩ := make_eq_ok.mp h
          obtain rfl := Option.some.inj hsystem
          obtain ⟨rfl, rfl⟩ := messageOf_eq_system hmessage
          exact ⟨members, rfl, htype, rfl, hcheck⟩
  · rintro ⟨members, rfl, htype, rfl, hcheck⟩
    rw [fromDict_obj htype]
    exact make_eq_ok.mpr ⟨hcheck, rfl⟩

/-- A dictionary that has the type of system messages and can be converted becomes one. -/
theorem fromDict_of_system {members : List (PyStr × Json)}
    (htype : ChatMessageType.fromResponseType (field members "type") = .ok .system)
    (h : Converts check (.obj members)) :
    fromDict check true (.obj members) = .ok (some (.system (field members "text"))) := by
  rcases h with h | ⟨others, type, hobj, htype', hmake⟩
  · cases h
  · cases hobj
    obtain rfl := Except.ok.inj (htype.symm.trans htype')
    exact fromDict_system_iff.mpr ⟨members, rfl, htype, rfl, hmake _ rfl⟩

end Conversion

end BaseMessageDictionaryConverter

end NoraFleet.Messages
