import NoraFleet.Base.Merging
import NoraFleet.Networks.AgentNetwork
import NoraFleet.Networks.ExternalAgents
import NoraFleet.Validation.ToolsShape

/-!
# Calling a tool by the name it was given

A tool is created under a name that is safe for the framework: the reference to an agent of
the network itself, and the last part of the URL of an agent elsewhere. When the tool is
called, all entries of the list of tools are given such names again, and the reference is
looked up among them.

* `toolName_eq` — a tool is created under the name that is looked up;
* `foldlM_addTool`, `foldlM_addTool_raises` — the dictionary that the list makes, if it
  makes one;
* `get?_entries_iff` — the reference that is looked up is the last one with its name;
* `call_reaches_iff` — when the call of a tool reaches the agent it was created for.
-/

namespace NoraFleet.Networks

open Base Validation

variable (check : Urls.NetlocCheck)

/-! ## Creating -/

/-- The name that `from_function_json` gives the tool for a reference, which
`create_function_tool` sets as the name of its function. -/
def toolName (name : PyStr) : Except PyError PyStr :=
  match ExternalAgentParsing.isExternalAgent check name with
  | .error e => .error e
  | .ok isExternal =>
      if isExternal then ExternalAgentParsing.getSafeAgentName check name else .ok name

/-- `create_function_tool(function_json, name)`: the name of the tool. Whether there is a
valid function to make it from, in the specification, the toolbox or the answer of the
external agent, is given. -/
def createFunctionTool (hasFunction : Bool) (name : PyStr) : Except PyError (Option PyStr) :=
  if hasFunction then (toolName check name).map some else .ok none

/-- `create_base_tool(name)`: the name of the function tool that is created, if one is. -/
def createBaseTool (network : AgentNetwork) (hasFunction : Bool) (name : PyStr) :
    Except PyError (Option PyStr) :=
  match network.getAgentToolSpec (.str name) with
  | some _ => createFunctionTool check hasFunction name
  | none =>
      if ExternalAgentParsing.isMcpTool check (.str name) then .ok none
      else
        match ExternalAgentParsing.isExternalAgent check name with
        | .error e => .error e
        | .ok isExternal =>
            if isExternal then createFunctionTool check hasFunction name else .ok none

/-! ## Calling -/

/-- `get_callable_tool_names(agent_tool_spec)`. -/
def getCallableToolNames (agentToolSpec : List (PyStr × Json)) : Except PyError (List Json) :=
  match Json.lookup agentToolSpec (str "tools") with
  | none | some .null => .ok []
  | some toolList =>
      match toolList.iterate with
      | none => .error .typeError
      | some tools => .ok tools

/-- `tool_dict[get_safe_agent_name(tool)] = tool`. What is not a string is split as a URL
like one, unless it is empty; an empty container cannot be a key. -/
def addTool (toolDict : Dict PyStr PyStr) : Json → Except PyError (Dict PyStr PyStr)
  | .str tool =>
      (ExternalAgentParsing.getSafeAgentName check tool).map fun safeName =>
        toolDict.set safeName tool
  | .null => .ok toolDict
  | .arr [] | .obj [] => .error .typeError
  | .arr _ | .obj _ => .error .attributeError
  | .bool _ | .int _ | .float _ => .error .typeError

/-- `get_callable_tool_dict()`. -/
def getCallableToolDict (agentToolSpec : List (PyStr × Json)) :
    Except PyError (Dict PyStr PyStr) :=
  match getCallableToolNames agentToolSpec with
  | .error e => .error e
  | .ok tools => tools.foldlM (addTool check) .empty

/-- `make_one_tool_function_call(component_tool_call)`, of a call of a name: the reference
whose activation is created. -/
def makeOneToolFunctionCall (agentToolSpec : List (PyStr × Json)) (name : PyStr) :
    Except PyError PyStr :=
  match getCallableToolDict check agentToolSpec with
  | .error e => .error e
  | .ok callableToolDict =>
      match callableToolDict.get? name with
      | none => .error .valueError
      | some useToolName => .ok useToolName

/-! ## Names -/

theorem toolName_eq (name : PyStr) :
    toolName check name = ExternalAgentParsing.getSafeAgentName check name := by
  unfold toolName ExternalAgentParsing.isExternalAgent ExternalAgentParsing.getSafeAgentName
  cases ExternalAgentParsing.parseExternalAgent check name with
  | error e => rfl
  | ok agentLocation =>
      cases agentLocation with
      | none => rfl
      | some agentName => rfl

/-- A tool that is created has the safe name of its reference. -/
theorem safeName_of_createBaseTool {network : AgentNetwork} {hasFunction : Bool}
    {reference name : PyStr}
    (h : createBaseTool check network hasFunction reference = .ok (some name)) :
    ExternalAgentParsing.getSafeAgentName check reference = .ok name := by
  have hcreated : createFunctionTool check hasFunction reference = .ok (some name) →
      ExternalAgentParsing.getSafeAgentName check reference = .ok name := by
    intro hok
    unfold createFunctionTool at hok
    split at hok
    · obtain ⟨made, hmade, heq⟩ := exists_of_map_eq_ok hok
      rw [← toolName_eq, hmade, Option.some.inj heq]
    · cases hok
  unfold createBaseTool at h
  split at h
  · exact hcreated h
  · split at h
    · cases h
    · split at h
      · cases h
      · split at h
        · exact hcreated h
        · cases h

/-! ## The dictionary -/

/-- The entry that a reference makes. -/
def entryOf : Json → Option (PyStr × PyStr)
  | .str tool =>
      match ExternalAgentParsing.getSafeAgentName check tool with
      | .ok safeName => some (safeName, tool)
      | .error _ => none
  | _ => none

/-- An entry that is a string, and has a safe name. -/
def IsNamed (tool : Json) : Prop :=
  ∃ reference safeName, tool = .str reference ∧
    ExternalAgentParsing.getSafeAgentName check reference = .ok safeName

theorem addTool_of_isNamed {tool : Json} (h : IsNamed check tool) (toolDict : Dict PyStr PyStr) :
    ∃ entry, entryOf check tool = some entry ∧
      addTool check toolDict tool = .ok (toolDict.set entry.1 entry.2) := by
  obtain ⟨reference, safeName, rfl, hname⟩ := h
  refine ⟨(safeName, reference), ?_, ?_⟩
  · simp only [entryOf, hname]
  · simp only [addTool, hname]
    rfl

/-- A string or a dictionary that is not so named raises. -/
theorem addTool_raises {tool : Json}
    (hshape : (∃ reference, tool = .str reference) ∨ ∃ members, tool = .obj members)
    (h : ¬ IsNamed check tool) (toolDict : Dict PyStr PyStr) :
    ∃ e, addTool check toolDict tool = .error e := by
  rcases hshape with ⟨reference, rfl⟩ | ⟨members, rfl⟩
  · cases hname : ExternalAgentParsing.getSafeAgentName check reference with
    | error e =>
        refine ⟨e, ?_⟩
        simp only [addTool, hname]
        rfl
    | ok safeName => exact absurd ⟨reference, safeName, rfl, hname⟩ h
  · cases members with
    | nil => exact ⟨.typeError, rfl⟩
    | cons member rest => exact ⟨.attributeError, rfl⟩

/-- Where every entry is a string with a safe name, the dictionary is made of all. -/
theorem foldlM_addTool {tools : List Json} (h : ∀ tool ∈ tools, IsNamed check tool)
    (toolDict : Dict PyStr PyStr) :
    tools.foldlM (addTool check) toolDict =
      .ok (toolDict.update (tools.filterMap (entryOf check))) := by
  induction tools generalizing toolDict with
  | nil => rfl
  | cons tool rest ih =>
      obtain ⟨hfirst, hrest⟩ := List.forall_mem_cons.mp h
      obtain ⟨entry, hentry, hadd⟩ := addTool_of_isNamed check hfirst toolDict
      rw [List.foldlM_cons, hadd, List.filterMap_cons, hentry, Dict.update_cons]
      exact ih hrest _

/-- Where one is not, there is no dictionary. -/
theorem foldlM_addTool_raises {tools : List Json}
    (hshape : ∀ tool ∈ tools, (∃ reference, tool = .str reference) ∨ ∃ members, tool = .obj members)
    (h : ¬ ∀ tool ∈ tools, IsNamed check tool) (toolDict : Dict PyStr PyStr) :
    ∃ e, tools.foldlM (addTool check) toolDict = .error e := by
  induction tools generalizing toolDict with
  | nil => exact absurd (fun _ hmem => absurd hmem List.not_mem_nil) h
  | cons tool rest ih =>
      obtain ⟨hfirst, hrest⟩ := List.forall_mem_cons.mp hshape
      rw [List.foldlM_cons]
      by_cases hnamed : IsNamed check tool
      · obtain ⟨entry, -, hadd⟩ := addTool_of_isNamed check hnamed toolDict
        rw [hadd]
        refine ih hrest (fun hall => h ?_) _
        exact List.forall_mem_cons.mpr ⟨hnamed, hall⟩
      · obtain ⟨e, hraises⟩ := addTool_raises check hfirst hnamed toolDict
        rw [hraises]
        exact ⟨e, rfl⟩

/-- Of the references with a safe name, this is the last. -/
def IsLastNamed (tools : List Json) (name reference : PyStr) : Prop :=
  ∀ before other after, tools = before ++ .str other :: after →
    ExternalAgentParsing.getSafeAgentName check other = .ok name →
    (∀ later, .str later ∈ after →
      ExternalAgentParsing.getSafeAgentName check later ≠ .ok name) → other = reference

/-- The keys of the entries of some references. -/
theorem mem_keys_entries {tools : List Json} {name : PyStr} :
    name ∈ (tools.filterMap (entryOf check)).map Prod.fst ↔
      ∃ reference, .str reference ∈ tools ∧
        ExternalAgentParsing.getSafeAgentName check reference = .ok name := by
  constructor
  · intro h
    obtain ⟨entry, hentry, rfl⟩ := List.mem_map.mp h
    obtain ⟨tool, htool, hmade⟩ := List.mem_filterMap.mp hentry
    unfold entryOf at hmade
    split at hmade
    · rename_i reference
      split at hmade
      · rename_i safeName hname
        obtain rfl := Option.some.inj hmade
        exact ⟨reference, htool, hname⟩
      · cases hmade
    · cases hmade
  · rintro ⟨reference, htool, hname⟩
    refine List.mem_map.mpr ⟨(name, reference), List.mem_filterMap.mpr ⟨_, htool, ?_⟩, rfl⟩
    simp only [entryOf, hname]

theorem exists_last_such {α : Type*} {p : α → Prop} {l : List α} (h : ∃ x ∈ l, p x) :
    ∃ before x after, l = before ++ x :: after ∧ p x ∧ ∀ y ∈ after, ¬ p y := by
  induction l with
  | nil => exact absurd h.choose_spec.1 List.not_mem_nil
  | cons first rest ih =>
      by_cases hrest : ∃ x ∈ rest, p x
      · obtain ⟨before, x, after, rfl, hx, hafter⟩ := ih hrest
        exact ⟨first :: before, x, after, rfl, hx, hafter⟩
      · obtain ⟨x, hmem, hx⟩ := h
        rcases List.mem_cons.mp hmem with rfl | hmem
        · exact ⟨[], x, rest, rfl, hx, fun y hy hpy => hrest ⟨y, hy, hpy⟩⟩
        · exact absurd ⟨x, hmem, hx⟩ hrest

/-- The last reference with a safe name is the one that is looked up. -/
theorem get?_entries_iff {tools : List Json} {reference name : PyStr}
    (hmem : .str reference ∈ tools)
    (hname : ExternalAgentParsing.getSafeAgentName check reference = .ok name) :
    (Dict.empty.update (tools.filterMap (entryOf check))).get? name = some reference ↔
      IsLastNamed check tools name reference := by
  -- what is looked up is the value of the last assignment of the name
  have hlast : ∀ before other after, tools = before ++ .str other :: after →
      ExternalAgentParsing.getSafeAgentName check other = .ok name →
      (∀ later, .str later ∈ after →
        ExternalAgentParsing.getSafeAgentName check later ≠ .ok name) →
      (Dict.empty.update (tools.filterMap (entryOf check))).get? name = some other := by
    rintro before other after rfl hother hlater
    have hentry : entryOf check (.str other) = some (name, other) := by
      simp only [entryOf, hother]
    rw [List.filterMap_append, List.filterMap_cons, hentry]
    apply Dict.get?_update_of_last
    intro hkey
    obtain ⟨later, hin, hsame⟩ := (mem_keys_entries check).mp hkey
    exact hlater later hin hsame
  constructor
  · intro hget before other after htools hother hlater
    rw [hlast before other after htools hother hlater] at hget
    exact Option.some.inj hget
  · intro h
    obtain ⟨before, tool, after, htools, ⟨other, rfl, hother⟩, hlater⟩ :=
      exists_last_such (p := fun tool => ∃ other, tool = .str other ∧
        ExternalAgentParsing.getSafeAgentName check other = .ok name)
        ⟨_, hmem, reference, rfl, hname⟩
    replace hlater : ∀ later, .str later ∈ after →
        ExternalAgentParsing.getSafeAgentName check later ≠ .ok name :=
      fun later hin hsame => hlater _ hin ⟨later, rfl, hsame⟩
    rw [hlast before other after htools hother hlater, h before other after htools hother hlater]

/-! ## Calls -/

/-- The call of a tool reaches the reference that the tool was created for exactly when every
entry of the list is a string with a safe name, and no later one has the same safe name. -/
theorem call_reaches_iff {network : AgentNetwork} {agentName : PyStr}
    {agentToolSpec : List (PyStr × Json)}
    (hshape : ToolsShapeValidator.validateTools agentName agentToolSpec = [])
    {tools : List Json} (htools : Json.lookup agentToolSpec (str "tools") = some (.arr tools))
    {reference : PyStr} (hmem : .str reference ∈ tools) {hasFunction : Bool} {name : PyStr}
    (hcreated : createBaseTool check network hasFunction reference = .ok (some name)) :
    makeOneToolFunctionCall check agentToolSpec name = .ok reference ↔
      (∀ tool ∈ tools, IsNamed check tool) ∧ IsLastNamed check tools name reference := by
  have hname := safeName_of_createBaseTool check hcreated
  have hnames : getCallableToolNames agentToolSpec = .ok tools := by
    unfold getCallableToolNames
    rw [htools]
    rfl
  unfold makeOneToolFunctionCall getCallableToolDict
  rw [hnames]
  by_cases hnamed : ∀ tool ∈ tools, IsNamed check tool
  · simp only [foldlM_addTool check hnamed]
    rw [← get?_entries_iff check hmem hname]
    cases hget : (Dict.empty.update (tools.filterMap (entryOf check))).get? name with
    | none => simp
    | some found => simpa using fun _ => hnamed
  · obtain ⟨e, hraises⟩ := foldlM_addTool_raises check (fun tool htool =>
      ToolsShapeValidator.str_or_dict_of_validateTools hshape htools htool) hnamed .empty
    simp only [hraises]
    constructor
    · intro h
      cases h
    · intro h
      exact absurd h.1 hnamed

/-- A network whose front man asks a helper, and an MCP server. -/
def helped : AgentNetwork where
  config := []
  name := str "helped"
  agentSpecMap := [(.str (str "front"), .obj []), (.str (str "helper"), .obj [])]

/-- The tools of the front man. -/
def helperAndServer : List (PyStr × Json) :=
  [(str "tools", .arr [.str (str "helper"),
    .obj [(str "url", .str (str "https://mcp.example.com/mcp"))]])]

theorem createBaseTool_helper (check : Urls.NetlocCheck) :
    createBaseTool check helped true (str "helper") = .ok (some (str "helper")) := rfl

/-- The helper between two networks of other servers. -/
def helperAndNetworks : List (PyStr × Json) :=
  [(str "tools", .arr [.str (str "/math/calculator"), .str (str "helper"),
    .str (str "http://localhost:8080/helper")])]

/-- The helper is reached also beside a network of the same name elsewhere. -/
theorem call_reaches_helper :
    makeOneToolFunctionCall (fun _ => true) helperAndNetworks (str "helper") =
      .ok (str "helper") := by
  have hsafe : ∀ tool ∈ [str "/math/calculator", str "helper", str "http://localhost:8080/helper"],
      ∃ name, ExternalAgentParsing.getSafeAgentName (fun _ => true) tool = .ok name ∧
        (name = str "helper" → tool = str "helper") := by
    intro tool htool
    simp only [List.mem_cons, List.not_mem_nil, or_false] at htool
    rcases htool with rfl | rfl | rfl
    · exact ⟨str "__math__calculator", rfl, fun h => absurd h (by decide)⟩
    · exact ⟨str "helper", rfl, fun _ => rfl⟩
    · exact ⟨str "__helper", rfl, fun h => absurd h (by decide)⟩
  have htools : [Json.str (str "/math/calculator"), .str (str "helper"),
      .str (str "http://localhost:8080/helper")] = [str "/math/calculator", str "helper",
        str "http://localhost:8080/helper"].map Json.str := rfl
  have hnamed : ∀ tool ∈ [Json.str (str "/math/calculator"), .str (str "helper"),
      .str (str "http://localhost:8080/helper")], IsNamed (fun _ => true) tool := by
    intro tool htool
    rw [htools] at htool
    obtain ⟨reference, hreference, rfl⟩ := List.mem_map.mp htool
    obtain ⟨name, hname, -⟩ := hsafe reference hreference
    exact ⟨reference, name, rfl, hname⟩
  have hlast : IsLastNamed (fun _ => true) [.str (str "/math/calculator"), .str (str "helper"),
      .str (str "http://localhost:8080/helper")] (str "helper") (str "helper") := by
    intro before other after hsplit hother _
    have hmem : Json.str other ∈ [str "/math/calculator", str "helper",
        str "http://localhost:8080/helper"].map Json.str := by
      rw [← htools, hsplit]
      exact List.mem_append_right _ List.mem_cons_self
    obtain ⟨reference, hreference, heq⟩ := List.mem_map.mp hmem
    obtain rfl := Json.str.inj heq
    obtain ⟨name, hname, hhelper⟩ := hsafe reference hreference
    exact hhelper (Except.ok.inj (hname.symm.trans hother))
  exact (@call_reaches_iff (fun _ => true) helped (str "front") helperAndNetworks rfl _ rfl _
    (List.mem_cons_of_mem _ List.mem_cons_self) true _ (createBaseTool_helper _)).mpr
    ⟨hnamed, hlast⟩

/-- With the server beside it, no tool of the front man can be called. -/
theorem call_beside_server_raises :
    ¬ ∀ (check : Urls.NetlocCheck) (network : AgentNetwork) (agentName : PyStr)
      (agentToolSpec : List (PyStr × Json)) (tools : List Json) (reference name : PyStr),
      ToolsShapeValidator.validateTools agentName agentToolSpec = [] →
      Json.lookup agentToolSpec (str "tools") = some (.arr tools) → .str reference ∈ tools →
      ExternalAgentParsing.isMcpTool check (.str reference) = false →
      createBaseTool check network true reference = .ok (some name) →
        makeOneToolFunctionCall check agentToolSpec name = .ok reference := by
  intro h
  have hreached := h (fun _ => true) helped (str "front") helperAndServer _ (str "helper")
    (str "helper") rfl rfl List.mem_cons_self rfl (createBaseTool_helper _)
  have hraises : makeOneToolFunctionCall (fun _ => true) helperAndServer (str "helper") =
      .error .attributeError := rfl
  rw [hraises] at hreached
  cases hreached

end NoraFleet.Networks
