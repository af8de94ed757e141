import NoraFleet.Base.Flow
import NoraFleet.Base.Json

/-!
# Agent networks

An agent network is built from the dictionary that describes it: every entry
under `tools` is registered by its name. The first of them is the front man, who
decides how the network is invoked.

`DictionaryExtractor` is not part of the program. What it gets is a parameter.
-/

namespace NoraFleet.Networks

open Base

/-- `DictionaryExtractor(value).get(path, default)`. -/
abbrev ExtractorGet := Json → PyStr → Json → Except PyError Json

/-- An extractor that follows the keys of a path through dictionaries. -/
def dictionaryGet : ExtractorGet := fun value path default =>
  .ok ((value.atPath (path.splitOn 46)).getD default)

/-- `AgentNetwork`. The keys of `agent_spec_map` are whatever hashable values the
specifications have as names. -/
structure AgentNetwork where
  config : List (PyStr × Json)
  name : PyStr
  agentSpecMap : List (Json × Json)

namespace AgentNetwork

/-- `value.get(key) is not None` of a dictionary. -/
def isGiven (members : List (PyStr × Json)) (key : PyStr) : Bool :=
  match Json.lookup members key with
  | none | some .null => false
  | some _ => true

/-- Where a number or a boolean is on the line. -/
def keyPlace : Json → Option (WithBot (WithTop ℚ))
  | .bool b => (Json.int b.toInt).place
  | v => v.place

/-- Whether two hashable values are the same key of a dictionary. Every not-a-number
of a document is one and the same object. -/
def sameKey : Json → Json → Bool
  | .null, .null => true
  | .str s, .str t => s = t
  | .float .nan, .float .nan => true
  | v, w =>
      match keyPlace v, keyPlace w with
      | some p, some q => p = q
      | _, _ => false

/-- `get_name_from_spec(agent_spec)`. -/
def getNameFromSpec (extractorGet : ExtractorGet) (agentSpec : Json) : Except PyError Json :=
  match extractorGet agentSpec (str "function.name") .null with
  | .error e => .error e
  | .ok .null =>
      match agentSpec with
      | .obj members => .ok ((Json.lookup members (str "name")).getD .null)
      | _ => .error .attributeError
  | .ok name => .ok name

/-- `register(agent_spec)`, as far as it changes the map. A duplicate name is a
`ValueError`, one that cannot be hashed a `TypeError`. -/
def register (extractorGet : ExtractorGet) (agentSpecMap : List (Json × Json)) :
    Json → Except PyError (List (Json × Json))
  | .null => .ok agentSpecMap
  | agentSpec =>
      match getNameFromSpec extractorGet agentSpec with
      | .error e => .error e
      | .ok (.arr _) | .ok (.obj _) => .error .typeError
      | .ok name =>
          if agentSpecMap.any fun entry => sameKey entry.1 name then .error .valueError
          else .ok (agentSpecMap ++ [(name, agentSpec)])

/-- `AgentNetwork(config, name)`. -/
def new (extractorGet : ExtractorGet) (config : List (PyStr × Json)) (name : PyStr) :
    Except PyError AgentNetwork :=
  let registered : Except PyError (List (Json × Json)) :=
    match Json.lookup config (str "tools") with
    | none | some .null => .ok []
    | some agentSpecs =>
        match agentSpecs.iterate with
        | none => .error .typeError
        | some agentSpecs => agentSpecs.foldlM (register extractorGet) []
  registered.map fun agentSpecMap => ⟨config, name, agentSpecMap⟩

/-- `get_agent_tool_spec(name)`. -/
def getAgentToolSpec (network : AgentNetwork) : Json → Option Json
  | .str name => (network.agentSpecMap.find? fun entry => sameKey entry.1 (.str name)).map Prod.snd
  | _ => none

/-- `find_front_man()`. -/
def findFrontMan (network : AgentNetwork) : Except PyError Json :=
  match network.agentSpecMap with
  | [] => .error .valueError
  | (frontMan, _) :: _ =>
      match network.getAgentToolSpec frontMan with
      | some (.obj agentSpec) =>
          if isGiven agentSpec (str "class") || isGiven agentSpec (str "toolbox") then
            .error .valueError
          else .ok frontMan
      | _ => .error .attributeError

/-- `float(value)`. -/
def float : Json → Except PyError Double
  | .bool b => .ok (.ofRat b.toNat)
  | .int n =>
      match Double.ofInt n with
      | some x => .ok x
      | none => .error .overflowError
  | .float x => .ok x
  | .str s =>
      match floatOfStr s with
      | some x => .ok x
      | none => .error .valueError
  | _ => .error .typeError

/-- `get_request_timeout_seconds()`. -/
def getRequestTimeoutSeconds (extractorGet : ExtractorGet) (network : AgentNetwork) :
    Except PyError Double :=
  match extractorGet (.obj network.config) (str "request_timeout_seconds") .null with
  | .error e => .error e
  | .ok .null => .ok (.fin 0)
  | .ok timeout => float timeout

end AgentNetwork

/-! ## Invocations -/

/-- `Invocations`. -/
inductive Invocations where
  | event
  | chatbot
  deriving DecidableEq

namespace InvocationUtil

/-- `value in (text,)`. -/
def isText (text : PyStr) : Json → Bool
  | .str s => s = text
  | _ => false

/-- `get_invocation(inspector)`. -/
def getInvocation (extractorGet : ExtractorGet) (inspector : AgentNetwork) :
    Except PyError Json :=
  match inspector.findFrontMan with
  | .error e => if e.isValueError then .ok .null else .error e
  | .ok frontMan =>
      match extractorGet ((inspector.getAgentToolSpec frontMan).getD .null)
          (str "function.invocation") (.str (str "chatbot")) with
      | .ok (.obj members) =>
          .ok ((Json.lookup members (str "invocation_type")).getD (.str (str "chatbot")))
      | result => result

/-- `get_effective_invocation(inspector, request_dict)`. -/
def getEffectiveInvocation (extractorGet : ExtractorGet) (inspector : Option AgentNetwork)
    (requestDict : Json) : Except PyError Invocations :=
  match inspector with
  | none => .ok .chatbot
  | some inspector =>
      match getInvocation extractorGet inspector with
      | .error e => .error e
      | .ok invocation =>
          let chatFilter : Except PyError Json := match requestDict with
            | .null => .ok (.str (str "MINIMAL"))
            | _ => extractorGet requestDict (str "chat_filter.chat_filter_type")
                (.str (str "MINIMAL"))
          match chatFilter with
          | .error e => .error e
          | .ok chatFilter =>
              if isText (str "event") invocation && isText (str "MINIMAL") chatFilter then
                .ok .event
              else .ok .chatbot

end InvocationUtil

end NoraFleet.Networks
