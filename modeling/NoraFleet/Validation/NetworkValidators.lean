import NoraFleet.Base.Keys
import NoraFleet.Base.Merging
import NoraFleet.Base.Urls
import NoraFleet.Networks.References
import NoraFleet.Validation.Parameters
import NoraFleet.Validation.ToolsShape

/-!
# Validators of networks

A validator makes the table of the agents by their names, and looks at each of them. The
names are whatever hashable values the specifications have, and a later agent takes the
place of an earlier one with its name.

* `exists_collect_iff`, `collect_eq_nil_iff`, `mem_collect` — when a loop over the agents
  returns, when it reports nothing, and what it reports.
-/

namespace NoraFleet.Validation

open Base Networks

/-- What validators of networks report. -/
inductive NetworkError where
  /-- `Agent network is empty.` -/
  | emptyNetwork
  | toolsShape (agentName : Key) (text : PyStr)
  | keyword (agentName : Key) (text : PyStr)
  /-- `Agent '…' references non-existent agent(s) in tools: …` -/
  | missingNodes (agentName : Key) (missingTools : List PyStr)
  /-- `No front man agent found in network` -/
  | noFrontMan
  /-- `Multiple front man agents found: …. Expected exactly one.` -/
  | multipleFrontMen (frontMen : List Key)
  /-- `Unreachable agents found: …` -/
  | unreachable (agents : List Key)
  /-- `… must match the regex '^[a-zA-Z0-9_-]+$'` -/
  | toolName (agentName : Key)
  | parameters (agentName : Key) (error : ParametersError)
  /-- `Agent '…' references an unrecognized URL or path tool '…'. … Available URLs: …` -/
  | url (agentName : Key) (tool : PyStr) (urls : List PyStr)

/-- `DictionaryValidator.validate(candidate)`. -/
abbrev Validator := Json → Except PyError (List NetworkError)

/-- The specifications of agents by their names. -/
abbrev NameToSpec := Dict Key Json

/-- `agent.get`, of what may be no dictionary. -/
def asDict : Json → Except PyError (List (PyStr × Json))
  | .obj members => .ok members
  | _ => .error .attributeError

namespace AbstractNetworkValidator

/-- `one_agent.get("name")`, as a key. -/
def nameOf (agent : Json) : Except PyError Key :=
  match asDict agent with
  | .error e => .error e
  | .ok members => Key.ofJson ((Json.lookup members (str "name")).getD .null)

/-- One agent goes into the table. -/
def addAgent (nameToSpec : NameToSpec) (agent : Json) : Except PyError NameToSpec :=
  (nameOf agent).map fun name => nameToSpec.set name agent

/-- `get_name_to_spec(agent_network)`. -/
def getNameToSpec (agentNetwork : List (PyStr × Json)) : Except PyError NameToSpec :=
  match Json.lookup agentNetwork (str "tools") with
  | none => .ok (Dict.empty.update (agentNetwork.map fun member => (.text member.1, member.2)))
  | some agents =>
      match agents.iterate with
      | none => .error .typeError
      | some agents => agents.foldlM addAgent .empty

/-- An agent with its name. -/
def named (agent : Json) : Except PyError (Key × Json) :=
  (nameOf agent).map fun name => (name, agent)

theorem foldlM_addAgent (agents : List Json) (nameToSpec : NameToSpec) :
    agents.foldlM addAgent nameToSpec = (agents.mapM named).map nameToSpec.update := by
  rw [show addAgent = fun nameToSpec agent =>
      (named agent).map fun entry => nameToSpec.set entry.1 entry.2 from ?_, foldlM_map_eq]
  · rfl
  · funext nameToSpec agent
    unfold addAgent named
    cases nameOf agent with
    | error e => rfl
    | ok name => rfl

/-- `validate(candidate)`, from `validate_name_to_spec_dict(name_to_spec)`. What is no
dictionary has no items. -/
def validate (validateNameToSpecDict : NameToSpec → Except PyError (List NetworkError)) :
    Validator := fun candidate =>
  if candidate.truthy then
    match candidate with
    | .obj agentNetwork =>
        match getNameToSpec agentNetwork with
        | .error e => .error e
        | .ok nameToSpec => validateNameToSpecDict nameToSpec
    | .arr _ | .str _ => .error .attributeError
    | _ => .error .typeError
  else .ok [.emptyNetwork]

/-- What a loop over the agents reports. -/
def collect (check : Key → Json → Except PyError (List NetworkError)) (nameToSpec : NameToSpec) :
    Except PyError (List NetworkError) :=
  (nameToSpec.items.mapM fun agent => check agent.1 agent.2).map List.flatten

/-- A loop over the agents returns if every agent can be looked at. -/
theorem exists_collect_iff (check : Key → Json → Except PyError (List NetworkError))
    (nameToSpec : NameToSpec) :
    (∃ errors, collect check nameToSpec = .ok errors) ↔
      ∀ agent ∈ nameToSpec.items, ∃ errors, check agent.1 agent.2 = .ok errors := by
  unfold collect
  rw [exists_map_ok_iff]
  exact exists_mapM_ok_iff _ _

/-- It reports nothing if it reports nothing of any agent. -/
theorem collect_eq_nil_iff (check : Key → Json → Except PyError (List NetworkError))
    (nameToSpec : NameToSpec) :
    collect check nameToSpec = .ok [] ↔
      ∀ agent ∈ nameToSpec.items, check agent.1 agent.2 = .ok [] :=
  flatten_mapM_eq_nil_iff _ _

/-- What it reports is what is reported of the agents. -/
theorem mem_collect {check : Key → Json → Except PyError (List NetworkError)}
    {nameToSpec : NameToSpec} {errors : List NetworkError}
    (h : collect check nameToSpec = .ok errors) (e : NetworkError) :
    e ∈ errors ↔ ∃ agent ∈ nameToSpec.items, ∃ reported,
      check agent.1 agent.2 = .ok reported ∧ e ∈ reported :=
  mem_of_flatten_mapM h e

end AbstractNetworkValidator

open AbstractNetworkValidator

/-! ## The validators -/

/-- What `str` makes of names that are no text, and `repr` of keys, in messages. -/
structure Texts where
  ofName : Key → PyStr
  repr : PyStr → PyStr

/-- A name in a message. -/
def Texts.name (texts : Texts) : Key → PyStr
  | .text s => s
  | name => texts.ofName name

/-- `ToolsShapeValidator.validate_name_to_spec_dict`, of one agent. -/
def toolsShapeErrors (texts : Texts) (agentName : Key) (agent : List (PyStr × Json)) :
    List NetworkError :=
  (ToolsShapeValidator.validateTools (texts.name agentName) agent ++
    ToolsShapeValidator.validateArgsTools texts.repr (texts.name agentName) agent).map
      (.toolsShape agentName)

namespace KeywordNetworkValidator

/-- `validate_description(agent_name, agent)`. -/
def validateDescription (agentName : PyStr) (agent : List (PyStr × Json)) : List PyStr :=
  match Json.lookup agent (str "function") with
  | none | some .null => []
  | some (.obj function) =>
      match Json.lookup function (str "description") with
      | none | some .null => []
      | some (.str description) =>
          if strip description = [] then
            [agentName ++ str " 'function.description' cannot be empty."]
          else []
      | some description =>
          [agentName ++ str " 'function.description' must be a str, got " ++
            typeName description ++ str "."]
  | some function =>
      [agentName ++ str " 'function' must be a dict, got " ++ typeName function ++ str "."]

/-- `validate_instructions(agent_name, agent)`. -/
def validateInstructions (agentName : PyStr) (agent : List (PyStr × Json)) : List PyStr :=
  match Json.lookup agent (str "instructions") with
  | none | some .null => []
  | some (.str instructions) =>
      if strip instructions = [] then [agentName ++ str " 'instructions' cannot be empty."] else []
  | some instructions =>
      [agentName ++ str " 'instructions' must be a str, got " ++ typeName instructions ++ str "."]

end KeywordNetworkValidator

/-- `KeywordNetworkValidator.validate_name_to_spec_dict`, of one agent. -/
def keywordErrors (texts : Texts) (agentName : Key) (agent : List (PyStr × Json)) :
    List NetworkError :=
  (KeywordNetworkValidator.validateDescription (texts.name agentName) agent ++
    KeywordNetworkValidator.validateInstructions (texts.name agentName) agent).map
      (.keyword agentName)

/-- `ToolsShapeValidator(network_name)`. -/
def toolsShapeValidator (texts : Texts) : Validator :=
  validate (collect fun agentName agent => (asDict agent).map (toolsShapeErrors texts agentName))

/-- `KeywordNetworkValidator(network_name)`. -/
def keywordNetworkValidator (texts : Texts) : Validator :=
  validate (collect fun agentName agent => (asDict agent).map (keywordErrors texts agentName))

namespace MissingNodesNetworkValidator

variable (extractorGet : ExtractorGet)

/-- The tools of an agent for which `find_missing_agent_nodes` finds no agent. -/
def missingTools (nameToSpec : NameToSpec) (agentData : Json) : Except PyError (List PyStr) :=
  (coerceTools extractorGet agentData).map fun tools =>
    (removeDictionaryTools tools).filter fun tool =>
      !isUrlOrPath tool && decide (Key.text tool ∉ nameToSpec)

/-- What is reported of one agent. -/
def errorsOf (nameToSpec : NameToSpec) (agentName : Key) (agentData : Json) :
    Except PyError (List NetworkError) :=
  (missingTools extractorGet nameToSpec agentData).map fun missing =>
    if missing = [] then [] else [.missingNodes agentName missing]

end MissingNodesNetworkValidator

/-- `MissingNodesNetworkValidator()`. -/
def missingNodesNetworkValidator (extractorGet : ExtractorGet) : Validator :=
  validate fun nameToSpec =>
    collect (MissingNodesNetworkValidator.errorsOf extractorGet nameToSpec) nameToSpec

namespace ToolNameNetworkValidator

/-- A character of the class `[a-zA-Z0-9_-]`. -/
def isNameChar (c : Nat) : Bool := Urls.isAlpha c || (48 ≤ c && c ≤ 57) || c = 95 || c = 45

/-- `re.match(TOOL_NAME_PATTERN, name)`. A `$` also stands before a newline at the end. -/
def matchesPattern (name : PyStr) : Bool :=
  let body := if name.getLast? = some 10 then name.dropLast else name
  body ≠ [] && body.all isNameChar

theorem nameChar_of_matchesPattern {name : PyStr} (h : matchesPattern name = true) {c : Nat}
    (hc : c ∈ name) : isNameChar c = true ∨ c = 10 := by
  unfold matchesPattern at h
  simp only [Bool.and_eq_true, List.all_eq_true] at h
  split at h
  case isTrue hlast =>
      -- a newline at the end is let through
      obtain ⟨body, rfl⟩ := List.getLast?_eq_some_iff.mp hlast
      rw [List.dropLast_concat] at h
      rcases List.mem_append.mp hc with hc | hc
      · exact .inl (h.2 c hc)
      · exact .inr (List.mem_singleton.mp hc)
  case isFalse => exact .inl (h.2 c hc)

theorem not_mem_of_matchesPattern {name : PyStr} (h : matchesPattern name = true) {c : Nat}
    (hc : c = 46 ∨ c = 47) : c ∉ name := by
  intro hmem
  rcases nameChar_of_matchesPattern h hmem with hchar | rfl
  · rcases hc with rfl | rfl
    · exact absurd hchar (by decide)
    · exact absurd hchar (by decide)
  · omega

theorem ne_nil_of_matchesPattern {name : PyStr} (h : matchesPattern name = true) : name ≠ [] := by
  rintro rfl
  cases h

theorem isUrlOrPath_of_matchesPattern {name : PyStr} (h : matchesPattern name = true) :
    isUrlOrPath name = false := by
  have hslash : ∀ {start : PyStr}, 47 ∈ start → start.isPrefixOf name = false := by
    intro start hmem
    cases hstart : start.isPrefixOf name with
    | false => rfl
    | true =>
        have hin : 47 ∈ name := (List.isPrefixOf_iff_prefix.mp hstart).subset hmem
        exact absurd hin (not_mem_of_matchesPattern h (.inr rfl))
  unfold isUrlOrPath
  rw [hslash (by decide), hslash (by decide), hslash (by decide)]
  rfl

/-- What is reported of one agent. A pattern is matched against strings only, and against the
name in the specification only if the other one matches. -/
def errorsOf (agentName : Key) (agent : Json) : Except PyError (List NetworkError) :=
  match asDict agent with
  | .error e => .error e
  | .ok members =>
      match agentName with
      | .text name =>
          if matchesPattern name then
            match Json.lookup members (str "name") with
            | some (.str specName) =>
                .ok (if matchesPattern specName then [] else [.toolName agentName])
            | _ => .error .typeError
          else .ok [.toolName agentName]
      | _ => .error .typeError

end ToolNameNetworkValidator

/-- `ToolNameNetworkValidator()`. -/
def toolNameNetworkValidator : Validator := validate (collect ToolNameNetworkValidator.errorsOf)

/-- `PydanticParametersNetworkValidator(network_name)`. -/
def pydanticParametersNetworkValidator (hasBaseModelAttribute : PyStr → Bool) : Validator :=
  validate fun nameToSpec =>
    .ok ((validatePydanticParameters hasBaseModelAttribute nameToSpec.items).map fun report =>
      .parameters report.1 report.2)

/-- `SemanticParametersNetworkValidator(network_name)`. -/
def semanticParametersNetworkValidator : Validator :=
  validate fun nameToSpec =>
    (validateSemanticParameters nameToSpec.items).map fun reports =>
      reports.map fun report => .parameters report.1 report.2

namespace UrlNetworkValidator

variable (extractorGet : ExtractorGet)

/-- `check_safe_urls`, of one tool: it is no known URL or path. -/
def isUnrecognized (urls : List PyStr) (tool : PyStr) : Bool :=
  isUrlOrPath tool && !urls.contains tool && !(str "http://").isPrefixOf tool &&
    !(str "https://").isPrefixOf tool && !(str "mcp").isSuffixOf tool &&
    !(str "mcp/").isSuffixOf tool

/-- What is reported of one agent. -/
def errorsOf (urls : List PyStr) (agentName : Key) (agent : Json) :
    Except PyError (List NetworkError) :=
  (coerceTools extractorGet agent).map fun tools =>
    ((removeDictionaryTools tools).filter (isUnrecognized urls)).map fun tool =>
      .url agentName tool urls

end UrlNetworkValidator

/-- `UrlNetworkValidator(external_agents, mcp_servers, network_name)`. -/
def urlNetworkValidator (extractorGet : ExtractorGet) (externalAgents mcpServers : List PyStr) :
    Validator :=
  validate (collect (UrlNetworkValidator.errorsOf extractorGet (externalAgents ++ mcpServers)))

end NoraFleet.Validation
