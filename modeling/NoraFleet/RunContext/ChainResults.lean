import Mathlib
import NoraFleet.Base.Dumps
import NoraFleet.Base.Urls
import NoraFleet.Messages.ChatMessages

/-!
# What a chain returns

`RunContextRunnable.parse_chain_result` finds the text of an answer in what the chain of an
agent returned: the content of the last message of the model, or an output of its own. Of a
list of content blocks it is the first block of text. An `ErrorDetector` then looks for the
fragments of error messages in the text, and formats it where it has one.

What `str` makes of a value that is no text is a parameter.

* `firstText_eq` — the loop over the blocks;
* `ErrorDetector.handleError_mentions` — a text stays one, and mentions what it did;
* `parseChainResult_text_iff` — which results have a text.
-/

namespace NoraFleet.Messages

open Base

/-- The content of a message. -/
def BaseMessage.content : BaseMessage → Json
  | .system content | .human content | .ai content | .tool content | .agent content _
  | .agentFramework content | .agentToolResult content _ | .agentProgress content _ => content

/-- `isinstance(message, AIMessage)`. -/
def BaseMessage.isAIMessage : BaseMessage → Bool
  | .ai _ | .agentToolResult _ _ => true
  | _ => false

end NoraFleet.Messages

namespace NoraFleet.RunContext

open Base Messages

/-! ## Error messages -/

/-- `ErrorFormatter`. -/
inductive ErrorFormatter where
  | stringErrorFormatter
  | jsonErrorFormatter

/-- `ErrorFormatterFactory.create_formatter(name)`. -/
def ErrorFormatter.create (name : Option PyStr) : ErrorFormatter :=
  if name.map Text.lowerAscii = some (str "json") then .jsonErrorFormatter
  else .stringErrorFormatter

/-- `str(value)`, of a value that is no text. -/
abbrev StrOf := Json → PyStr

/-- `f"{value}"`. -/
def formatted (strOf : StrOf) : Json → PyStr
  | .str s => s
  | value => strOf value

/-- `format(agent_name, message)`: a line, or the text of a dictionary whose keys are
sorted. -/
def ErrorFormatter.format (strOf : StrOf) (formatter : ErrorFormatter) (agentName : PyStr)
    (message : Json) : Except PyError PyStr :=
  match formatter with
  | .stringErrorFormatter =>
      .ok (str "Error from " ++ agentName ++ str ": " ++ formatted strOf message)
  | .jsonErrorFormatter =>
      match Json.dumps (.indented 4) 1000
          (.obj [(str "error", message.sortKeys), (str "tool", .str agentName)]) with
      | .error .valueError => .error .valueError
      | .error .recursionError => .error .recursionError
      | .ok pretty => .ok (str "```json\n" ++ pretty ++ str "\n```")

/-- `ErrorDetector`. -/
structure ErrorDetector where
  agentName : PyStr
  errorFormatterName : Option PyStr
  errorFragments : List PyStr

namespace ErrorDetector

variable (detector : ErrorDetector)

/-- `fragment in output`, of an output that is not `None`. -/
def isIn (fragment : PyStr) : Json → Except PyError Bool
  | .str s => .ok (s.tails.any fragment.isPrefixOf)
  | .obj members => .ok (members.any fun member => member.1 = fragment)
  | .arr items => .ok (items.any fun
      | .str item => item = fragment
      | _ => false)
  | _ => .error .typeError

/-- The loop over the fragments. -/
def anyIsIn (output : Json) : List PyStr → Except PyError Bool
  | [] => .ok false
  | fragment :: rest =>
      match isIn fragment output with
      | .error e => .error e
      | .ok true => .ok true
      | .ok false => anyIsIn output rest

/-- `is_error(output)`. -/
def isError : Json → Except PyError Bool
  | .null => .ok false
  | output => anyIsIn output detector.errorFragments

/-- `handle_error(output)`. -/
def handleError (strOf : StrOf) (output : Json) : Except PyError Json :=
  match detector.isError output with
  | .error e => .error e
  | .ok false => .ok output
  | .ok true =>
      ((ErrorFormatter.create detector.errorFormatterName).format strOf detector.agentName
        output).map .str

end ErrorDetector

/-! ## Results -/

/-- The messages of a result: those of the dictionary, none where it has no such key, or
what cannot be reversed. -/
inductive ResultMessages where
  | list (messages : List BaseMessage)
  | notSequence

/-- What a chain returns, or an `AgentFinish` has as its return values. -/
inductive ReturnValues where
  | none
  | dict (messages : ResultMessages) (output : Json)
  | aiMessage (content : Json)
  | other

/-- `Union[Dict[str, Any], AgentFinish, AIMessage]`, and anything else. -/
inductive ChainResult where
  | value (result : ReturnValues)
  | agentFinish (returnValues : ReturnValues)

/-- `chain_result is None`. -/
def ChainResult.isNone : ChainResult → Bool
  | .value .none => true
  | _ => false

/-- What the output of a result is taken from. -/
def ChainResult.returnValues : ChainResult → ReturnValues
  | .value result => result
  | .agentFinish returnValues => returnValues

/-- The output of a result: the content of its last message of the model, or else its own
output. -/
def ReturnValues.output : ReturnValues → Except PyError Json
  | .dict (.list messages) output =>
      match messages.reverse.find? BaseMessage.isAIMessage with
      | .some message => .ok message.content
      | .none => .ok output
  | .dict .notSequence _ => .error .typeError
  | .aiMessage content => .ok content
  | .none | .other => .ok .null

/-- A content block of text. -/
def isTextBlock : Json → Bool
  | .obj block =>
      match Json.lookup block (str "type") with
      | some (.str type) => type = str "text"
      | _ => false
  | _ => false

/-- `block.get("text", "")`. -/
def blockText : Json → Json
  | .obj block => (Json.lookup block (str "text")).getD (.str [])
  | _ => .str []

/-- The loop over the content blocks. -/
def firstText : List Json → Json
  | [] => .str []
  | block :: rest => if isTextBlock block then blockText block else firstText rest

/-- The text of a content: its first block of text, where it is a list of blocks. -/
def contentText : Json → Json
  | .arr blocks => firstText blocks
  | output => output

/-- `parse_chain_result(chain_result, exception)`, of the text of an exception. -/
def parseChainResult (strOf : StrOf) (detector : ErrorDetector) (chainResult : ChainResult)
    (exception : Option PyStr) : Except PyError Json :=
  match chainResult.isNone, exception with
  | true, some text =>
      detector.handleError strOf (.str (str "Agent stopped due to exception " ++ text))
  | _, _ =>
      match chainResult.returnValues.output with
      | .error e => .error e
      | .ok output => detector.handleError strOf (contentText output)

/-- The first block of text decides. -/
theorem firstText_eq (blocks : List Json) :
    firstText blocks = (blocks.find? isTextBlock).elim (.str []) blockText := by
  induction blocks with
  | nil => rfl
  | cons block rest ih =>
      rw [firstText]
      cases hblock : isTextBlock block with
      | true =>
          rw [List.find?_cons_of_pos hblock]
          rfl
      | false =>
          rw [List.find?_cons_of_neg (by rw [hblock]; exact Bool.false_ne_true)]
          exact ih

namespace ErrorDetector

variable (detector : ErrorDetector) (strOf : StrOf)

theorem exists_anyIsIn_text (s : PyStr) (fragments : List PyStr) :
    ∃ found, anyIsIn (.str s) fragments = .ok found := by
  induction fragments with
  | nil => exact ⟨false, rfl⟩
  | cons fragment rest ih =>
      have hin : isIn fragment (.str s) = .ok (s.tails.any fragment.isPrefixOf) := rfl
      rw [anyIsIn, hin]
      cases s.tails.any fragment.isPrefixOf with
      | true => exact ⟨true, rfl⟩
      | false => exact ih

/-- What is handled becomes a text where it is one, or where it is formatted as an
error. -/
theorem handleError_text_iff (output : Json) :
    (∃ text, detector.handleError strOf output = .ok (.str text)) ↔
      (∃ s, output = .str s ∧ detector.isError output = .ok false) ∨
        detector.isError output = .ok true ∧ ∃ text,
          (ErrorFormatter.create detector.errorFormatterName).format strOf detector.agentName
            output = .ok text := by
  unfold handleError
  cases detector.isError output with
  | error e => simp
  | ok found =>
      cases found with
      | false => simp
      | true =>
          cases (ErrorFormatter.create detector.errorFormatterName).format strOf
            detector.agentName output <;> simp [Except.map]

end ErrorDetector

/-- An error dictionary of two texts, as it is written. -/
theorem dumps_errorDict (message agentName : PyStr) :
    ∃ before after, Json.dumps (.indented 4) 1000
      (.obj [(str "error", .str message), (str "tool", .str agentName)]) =
        .ok (before ++ (message.flatMap Json.escapeChar ++ after)) := by
  refine ⟨123 :: ((Json.Layout.indented 4).newline 1 ++ (Json.stringText (str "error") ++
    58 :: 32 :: [34])), 34 :: 44 :: ((Json.Layout.indented 4).between 1 ++
      (Json.stringText (str "tool") ++ 58 :: 32 :: (Json.stringText agentName ++
        ((Json.Layout.indented 4).newline 0 ++ [125])))), ?_⟩
  simp [Json.dumps, Json.dumpValue, Json.dumpMembers, Json.dumpContainer, Json.stringText,
    Json.Layout.indented]

/-- A text is in another, as it is or as a string of a document. -/
def Mentions (text s : PyStr) : Prop :=
  s <:+: text ∨ s.flatMap Json.escapeChar <:+: text

/-- What is formatted mentions the message. -/
theorem format_text (strOf : StrOf) (formatter : ErrorFormatter)
    (agentName before message : PyStr) :
    ∃ text, formatter.format strOf agentName (.str (before ++ message)) = .ok text ∧
      Mentions text message := by
  cases formatter with
  | stringErrorFormatter =>
      refine ⟨_, rfl, .inl ⟨str "Error from " ++ agentName ++ str ": " ++ before, [], ?_⟩⟩
      simp [formatted]
  | jsonErrorFormatter =>
      obtain ⟨front, back, hdumps⟩ := dumps_errorDict (before ++ message) agentName
      have hsorted : (Json.str (before ++ message)).sortKeys = .str (before ++ message) := by
        simp [Json.sortKeys]
      refine ⟨str "```json\n" ++ (front ++ ((before ++ message).flatMap Json.escapeChar ++ back)) ++
        str "\n```", ?_, .inr ⟨str "```json\n" ++ front ++ before.flatMap Json.escapeChar,
          back ++ str "\n```", ?_⟩⟩
      · unfold ErrorFormatter.format
        simp only [hsorted, hdumps]
      · simp [List.flatMap_append]

/-- The end of a text that is handled is mentioned in what becomes of it. -/
theorem ErrorDetector.handleError_mentions (detector : ErrorDetector) (strOf : StrOf)
    (before message : PyStr) :
    ∃ text, detector.handleError strOf (.str (before ++ message)) = .ok (.str text) ∧
      Mentions text message := by
  obtain ⟨found, hfound⟩ := exists_anyIsIn_text (before ++ message) detector.errorFragments
  have herror : detector.isError (.str (before ++ message)) = .ok found := hfound
  unfold handleError
  rw [herror]
  cases found with
  | false => exact ⟨_, rfl, .inl ⟨before, [], by simp⟩⟩
  | true =>
      obtain ⟨text, hformat, hmentions⟩ := format_text strOf
        (ErrorFormatter.create detector.errorFormatterName) detector.agentName before message
      exact ⟨text, by rw [hformat]; rfl, hmentions⟩

/-- A result has a text: its output is one, or a list of blocks whose first block of text
has one, or it is formatted as an error. -/
def HasText (strOf : StrOf) (detector : ErrorDetector) (result : ChainResult) : Prop :=
  ∃ output, result.returnValues.output = .ok output ∧
    ((∃ s, contentText output = .str s) ∨
      detector.isError (contentText output) = .ok true ∧ ∃ text,
        (ErrorFormatter.create detector.errorFormatterName).format strOf detector.agentName
          (contentText output) = .ok text)

/-- The results that are parsed to a text. -/
theorem parseChainResult_text_iff {strOf : StrOf} {detector : ErrorDetector} {result : ChainResult}
    (hresult : result.isNone = false) (exception : Option PyStr) :
    (∃ text, parseChainResult strOf detector result exception = .ok (.str text)) ↔
      HasText strOf detector result := by
  have hparse : parseChainResult strOf detector result exception =
      result.returnValues.output.bind fun output =>
        detector.handleError strOf (contentText output) := by
    unfold parseChainResult
    rw [hresult]
    cases result.returnValues.output <;> rfl
  rw [hparse, HasText]
  cases houtput : result.returnValues.output with
  | error e => simp [Except.bind]
  | ok output =>
      simp only [Except.bind, Except.ok.injEq, exists_eq_left']
      constructor
      · intro h
        rcases (detector.handleError_text_iff strOf (contentText output)).mp h with ⟨s, hs, -⟩ | h
        · exact .inl ⟨s, hs⟩
        · exact .inr h
      · rintro (⟨s, hs⟩ | h)
        · obtain ⟨text, htext, -⟩ := detector.handleError_mentions strOf [] s
          rw [hs]
          exact ⟨text, htext⟩
        · exact (detector.handleError_text_iff strOf (contentText output)).mpr (.inr h)

end NoraFleet.RunContext
