import NoraFleet.Base.Traversal
import NoraFleet.Networks.ExternalAgents
import NoraFleet.Networks.References

/-!
# Reporting connectivity

What a client is told about the agents of a network: the front man, the agents it
refers to, and so on, with the names of their tools. A node may disallow that, for
itself and for what only it refers to.

A reference that reads as the URL of an external agent is one, whether or not an
agent of the network has that name.

* `completeAndDiscreet_iff` — what the report of a network needs to be right.
-/

namespace NoraFleet.Networks

open Base

/-- What is reported of a node. -/
structure Connectivity where
  origin : PyStr
  tools : List PyStr
  displayAs : Json
  metadata : Json

/-- `ConnectivityReporter`. The toolbox gives its tools when it is loaded. -/
structure ConnectivityReporter where
  inspector : AgentNetwork
  toolboxFactory : Option (Except PyError (List (PyStr × Json)))

namespace ConnectivityReporter

section Report

variable (extractorGet : ExtractorGet) (urls : Urls.NetlocCheck) (strOf : StrOf)

/-- `assemble_tool_list(agent_spec)`. -/
def assembleToolList : Json → Except PyError (List PyStr)
  | .null => .ok []
  | agentSpec =>
      match AbstractNetworkValidator.coerceTools extractorGet agentSpec with
      | .error e => .error e
      | .ok tools =>
          (AbstractNetworkValidator.coerceArgsTools extractorGet agentSpec).map fun argsTools =>
            (AbstractNetworkValidator.removeDictionaryTools (tools ++ argsTools)).eraseDups

/-- `str(value)`. -/
def asText : Json → Except PyError PyStr
  | .str text => .ok text
  | value => strOf value

/-- `toolbox_factory.get_tool_info(tool_name)`, of what the toolbox has loaded. -/
def getToolInfo (toolboxInfos : List (PyStr × Json)) : Json → Except PyError Json
  | .str toolName => .ok ((Json.lookup toolboxInfos toolName).getD .null)
  | .arr _ | .obj _ => .error .typeError
  | _ => .ok .null

/-- How a tool of the toolbox is displayed. -/
def displayTool : Json → Except PyError Json
  | .null => .ok (.str (str "langchain_tool"))
  | .obj toolInfo =>
      if AgentNetwork.isGiven toolInfo (str "display_as") then
        .ok ((Json.lookup toolInfo (str "display_as")).getD .null)
      else if AgentNetwork.isGiven toolInfo (str "description") then .ok (.str (str "coded_tool"))
      else .ok (.str (str "langchain_tool"))
  | _ => .error .attributeError

/-- `determine_display_as(agent_spec)`, with what the toolbox has loaded, if there is one. -/
def determineDisplayAs (toolboxInfos : Option (List (PyStr × Json))) : Json → Except PyError Json
  | .obj agentSpec =>
      if AgentNetwork.isGiven agentSpec (str "display_as") then
        (asText strOf ((Json.lookup agentSpec (str "display_as")).getD .null)).map Json.str
      else if AgentNetwork.isGiven agentSpec (str "toolbox") then
        match toolboxInfos with
        | none => .ok (.str (str "langchain_tool"))
        | some toolboxInfos =>
            match getToolInfo toolboxInfos ((Json.lookup agentSpec (str "toolbox")).getD .null) with
            | .error e => .error e
            | .ok toolInfo => displayTool toolInfo
      else if AgentNetwork.isGiven agentSpec (str "function") then
        if AgentNetwork.isGiven agentSpec (str "class") then .ok (.str (str "coded_tool"))
        else .ok (.str (str "llm_agent"))
      else .ok (.str (str "llm_agent"))
  | _ => .error .attributeError

/-- `agent_spec.get("metadata")`, if there is a specification. -/
def metadataOf : Json → Json
  | .obj agentSpec => (Json.lookup agentSpec (str "metadata")).getD .null
  | _ => .null

/-- What is reported of an agent whose specification may be withheld. -/
def describe (toolboxInfos : Option (List (PyStr × Json))) (agentName : PyStr) (agentSpec : Json) :
    Except PyError Connectivity :=
  match assembleToolList extractorGet agentSpec with
  | .error e => .error e
  | .ok toolList =>
      (determineDisplayAs strOf toolboxInfos agentSpec).map fun displayAs =>
        ⟨agentName, toolList, displayAs, metadataOf agentSpec⟩

/-- `get_agent_tool_spec(agent_name)`, where `None` is none at all. -/
def specOf (inspector : AgentNetwork) (agentName : PyStr) : Option Json :=
  match inspector.getAgentToolSpec (.str agentName) with
  | none | some .null => none
  | some agentSpec => some agentSpec

/-- What `report_node_connectivity` finds at an agent of the network, and where it goes
on. -/
def reportAgent (toolboxInfos : Option (List (PyStr × Json))) (agentName : PyStr)
    (agentSpec : Json) : Except PyError (Connectivity × List PyStr) :=
  match extractorGet agentSpec (str "allow.connectivity") (.bool true) with
  | .error e => .error e
  | .ok allowConnectivity =>
      -- what must not be shown is withheld from here on
      let agentSpec := if allowConnectivity.truthy then agentSpec else .null
      (describe extractorGet strOf toolboxInfos agentName agentSpec).map fun connectivity =>
        (connectivity, connectivity.tools)

/-- What it finds at any node. -/
def reportOne (inspector : AgentNetwork) (toolboxInfos : Option (List (PyStr × Json))) :
    Traversal.Look PyStr Connectivity := fun agentName =>
  match ExternalAgentParsing.isExternalAgent urls agentName with
  | .error e => .error e
  | .ok true => .ok (some (⟨agentName, [], .str (str "external_agent"), .null⟩, []))
  | .ok false =>
      match specOf inspector agentName with
      | none => .ok none
      | some agentSpec =>
          (reportAgent extractorGet strOf toolboxInfos agentName agentSpec).map some

/-- `report_node_connectivity(agent_name, reported_agents)`, from the front man on: the
lists that the nested calls return are joined in order. No more of them are open at a
time than there are agents, and one. -/
def reportNodeConnectivity (inspector : AgentNetwork)
    (toolboxInfos : Option (List (PyStr × Json))) (agentName : PyStr) :
    Except PyError (List Connectivity) :=
  (Traversal.traverse (reportOne extractorGet urls strOf inspector toolboxInfos)
    (inspector.agentSpecMap.length + 1) agentName).map (List.map Prod.snd)

/-- What the toolbox has loaded, if there is one. -/
def loadToolbox (reporter : ConnectivityReporter) : Except PyError (Option (List (PyStr × Json))) :=
  match reporter.toolboxFactory with
  | none => .ok none
  | some toolboxInfos => toolboxInfos.map some

/-- `report_network_connectivity()`. -/
def reportNetworkConnectivity (reporter : ConnectivityReporter) :
    Except PyError (List Connectivity) :=
  match reporter.loadToolbox with
  | .error e => .error e
  | .ok toolboxInfos =>
      match reporter.inspector.findFrontMan with
      | .error e => .error e
      | .ok (.str frontMan) =>
          reportNodeConnectivity extractorGet urls strOf reporter.inspector toolboxInfos frontMan
      | .ok _ => .error .typeError

end Report

/-! ## What is shown -/

section Shown

open AbstractNetworkValidator (Refers Readable coerceTools coerceArgsTools)

variable (extractorGet : ExtractorGet) (urls : Urls.NetlocCheck) (network : AgentNetwork)

/-- A name is that of an agent with a specification. -/
def IsAgent (name : PyStr) (agentSpec : Json) : Prop :=
  ExternalAgentParsing.isExternalAgent urls name = .ok false ∧
    specOf network name = some agentSpec

/-- A name is a reference to an external agent. -/
def IsExternal (name : PyStr) : Prop := ExternalAgentParsing.isExternalAgent urls name = .ok true

/-- An agent allows its connectivity to be shown. -/
def Allows (agentSpec : Json) : Prop :=
  ∃ allow, extractorGet agentSpec (str "allow.connectivity") (.bool true) = .ok allow ∧
    allow.truthy = true

/-- An agent disallows its connectivity to be shown. -/
def Disallows (agentSpec : Json) : Prop :=
  ∃ allow, extractorGet agentSpec (str "allow.connectivity") (.bool true) = .ok allow ∧
    allow.truthy = false

/-- An agent that allows it refers to a name. -/
def ShowsReference (name other : PyStr) : Prop :=
  ∃ agentSpec, IsAgent urls network name agentSpec ∧ Allows extractorGet agentSpec ∧
    Refers extractorGet agentSpec other

/-- A name that the front man, or an agent that is reached from it through agents that
allow it, refers to. -/
def InReach (frontMan name : PyStr) : Prop :=
  Relation.ReflTransGen (ShowsReference extractorGet urls network) frontMan name

/-- A name that is in reach, of an agent or of an external one. -/
def Shown (frontMan name : PyStr) : Prop :=
  InReach extractorGet urls network frontMan name ∧
    ((∃ agentSpec, IsAgent urls network name agentSpec) ∨ IsExternal urls name)

/-- A report is complete and discreet. -/
structure CompleteAndDiscreet (frontMan : PyStr) (report : List Connectivity) : Prop where
  frontManFirst : (report.map Connectivity.origin).head? = some frontMan
  once : ∀ name, Shown extractorGet urls network frontMan name →
    (report.map Connectivity.origin).count name = 1
  withheld : ∀ connectivity ∈ report, (IsExternal urls connectivity.origin ∨
    ∃ agentSpec, IsAgent urls network connectivity.origin agentSpec ∧
      Disallows extractorGet agentSpec) → connectivity.tools = []
  discreet : ∀ connectivity ∈ report, Shown extractorGet urls network frontMan connectivity.origin

/-- How an agent is to be displayed can be determined: its own setting can be made a text,
or else the toolbox can be asked for its tool. -/
def Displayable (strOf : StrOf) (toolboxInfos : Option (List (PyStr × Json))) (agentSpec : Json) :
    Prop :=
  ∃ members, agentSpec = .obj members ∧
    (AgentNetwork.isGiven members (str "display_as") = true →
      ∃ text, asText strOf ((Json.lookup members (str "display_as")).getD .null) = .ok text) ∧
    (AgentNetwork.isGiven members (str "display_as") = false →
      AgentNetwork.isGiven members (str "toolbox") = true → ∀ infos, toolboxInfos = some infos →
        ∃ info, getToolInfo infos ((Json.lookup members (str "toolbox")).getD .null) = .ok info ∧
          (info = .null ∨ ∃ toolInfo, info = .obj toolInfo))

/-- A name can be reported: it can be parsed, and if it is that of an agent, the agent
allows its connectivity to be shown, its references can be read, and it can be displayed. -/
def Reportable (strOf : StrOf) (toolboxInfos : Option (List (PyStr × Json)))
    (name : PyStr) : Prop :=
  (∃ isExternal, ExternalAgentParsing.isExternalAgent urls name = .ok isExternal) ∧
    ∀ agentSpec, IsAgent urls network name agentSpec →
      Allows extractorGet agentSpec ∧ Readable extractorGet agentSpec ∧
        Displayable strOf toolboxInfos agentSpec

end Shown

section Right

open AbstractNetworkValidator

variable {extractorGet : ExtractorGet} {urls : Urls.NetlocCheck} {strOf : StrOf}
variable {network : AgentNetwork} {toolboxInfos : Option (List (PyStr × Json))}

/-- The display of exactly the displayable agents can be determined. -/
theorem exists_determineDisplayAs_iff (agentSpec : Json) :
    (∃ displayAs, determineDisplayAs strOf toolboxInfos agentSpec = .ok displayAs) ↔
      Displayable strOf toolboxInfos agentSpec := by
  unfold Displayable
  cases agentSpec with
  | obj members =>
      cases hdisplay : AgentNetwork.isGiven members (str "display_as") with
      | true =>
          cases htext : asText strOf ((Json.lookup members (str "display_as")).getD .null) with
          | error e => simp [determineDisplayAs, hdisplay, htext, Except.map]
          | ok text => simp [determineDisplayAs, hdisplay, htext, Except.map]
      | false =>
          cases htoolbox : AgentNetwork.isGiven members (str "toolbox") with
          | true =>
              cases toolboxInfos with
              | none => simp [determineDisplayAs, hdisplay, htoolbox]
              | some infos =>
                  cases hinfo : getToolInfo infos
                      ((Json.lookup members (str "toolbox")).getD .null) with
                  | error e => simp [determineDisplayAs, hdisplay, htoolbox, hinfo]
                  | ok info =>
                      -- a dictionary, or nothing, describes the tool
                      have hshow : (∃ displayAs, displayTool info = .ok displayAs) ↔
                          info = .null ∨ ∃ toolInfo, info = .obj toolInfo := by
                        cases info with
                        | obj toolInfo =>
                            unfold displayTool
                            simp only [reduceCtorEq, false_or, Json.obj.injEq, exists_eq', iff_true]
                            split
                            · exact ⟨_, rfl⟩
                            · split <;> exact ⟨_, rfl⟩
                        | null => simp [displayTool]
                        | bool b => simp [displayTool]
                        | int n => simp [displayTool]
                        | float x => simp [displayTool]
                        | str s => simp [displayTool]
                        | arr items => simp [displayTool]
                      simp [determineDisplayAs, hdisplay, htoolbox, hinfo, hshow]
          | false =>
              have hrest : ∃ displayAs,
                  determineDisplayAs strOf toolboxInfos (.obj members) = .ok displayAs := by
                simp only [determineDisplayAs, hdisplay, htoolbox, Bool.false_eq_true, if_false]
                split
                · split <;> exact ⟨_, rfl⟩
                · exact ⟨_, rfl⟩
              simp [hrest, hdisplay, htoolbox]
  | null => simp [determineDisplayAs]
  | bool b => simp [determineDisplayAs]
  | int n => simp [determineDisplayAs]
  | float x => simp [determineDisplayAs]
  | str s => simp [determineDisplayAs]
  | arr items => simp [determineDisplayAs]

/-- The tools that are listed for an agent. -/
theorem assembleToolList_eq_ok_iff {agentSpec : Json} (hspec : agentSpec ≠ .null)
    (toolList : List PyStr) :
    assembleToolList extractorGet agentSpec = .ok toolList ↔
      ∃ tools argsTools, coerceTools extractorGet agentSpec = .ok tools ∧
        coerceArgsTools extractorGet agentSpec = .ok argsTools ∧
          toolList = (removeDictionaryTools (tools ++ argsTools)).eraseDups := by
  unfold assembleToolList
  split
  · exact absurd rfl hspec
  · cases htools : coerceTools extractorGet agentSpec with
    | error e => simp
    | ok tools =>
        cases hargsTools : coerceArgsTools extractorGet agentSpec with
        | error e => simp [Except.map]
        | ok argsTools => simp [Except.map, eq_comm]

/-- They are the references of the agent. -/
theorem mem_assembleToolList {agentSpec : Json} (hspec : agentSpec ≠ .null)
    {toolList : List PyStr} (h : assembleToolList extractorGet agentSpec = .ok toolList)
    (tool : PyStr) : tool ∈ toolList ↔ Refers extractorGet agentSpec tool := by
  obtain ⟨tools, argsTools, htools, hargsTools, rfl⟩ :=
    (assembleToolList_eq_ok_iff hspec toolList).mp h
  rw [List.mem_eraseDups, mem_removeDictionaryTools, refers_iff htools hargsTools]

/-- The tools of exactly the readable agents can be listed. -/
theorem exists_assembleToolList_iff {agentSpec : Json} (hspec : agentSpec ≠ .null) :
    (∃ toolList, assembleToolList extractorGet agentSpec = .ok toolList) ↔
      Readable extractorGet agentSpec := by
  constructor
  · rintro ⟨toolList, h⟩
    obtain ⟨tools, argsTools, htools, hargsTools, -⟩ :=
      (assembleToolList_eq_ok_iff hspec toolList).mp h
    exact ⟨⟨tools, htools⟩, argsTools, hargsTools⟩
  · rintro ⟨⟨tools, htools⟩, argsTools, hargsTools⟩
    exact ⟨_, (assembleToolList_eq_ok_iff hspec _).mpr ⟨tools, argsTools, htools, hargsTools, rfl⟩⟩

/-- What is reported of an agent that is not withheld. -/
theorem describe_eq_ok {name : PyStr} {agentSpec : Json} (hspec : agentSpec ≠ .null)
    {connectivity : Connectivity}
    (h : describe extractorGet strOf toolboxInfos name agentSpec = .ok connectivity) :
    connectivity.origin = name ∧
      ∀ tool, tool ∈ connectivity.tools ↔ Refers extractorGet agentSpec tool := by
  unfold describe at h
  cases htoolList : assembleToolList extractorGet agentSpec with
  | error e => simp [htoolList] at h
  | ok toolList =>
      rw [htoolList] at h
      obtain ⟨displayAs, -, rfl⟩ := exists_of_map_eq_ok h
      exact ⟨rfl, mem_assembleToolList hspec htoolList⟩

/-- An agent can be described if its references can be read and it can be displayed. -/
theorem exists_describe_iff (name : PyStr) {agentSpec : Json} (hspec : agentSpec ≠ .null) :
    (∃ connectivity,
        describe extractorGet strOf toolboxInfos name agentSpec = .ok connectivity) ↔
      Readable extractorGet agentSpec ∧ Displayable strOf toolboxInfos agentSpec := by
  rw [← exists_assembleToolList_iff hspec, ← exists_determineDisplayAs_iff]
  unfold describe
  cases assembleToolList extractorGet agentSpec with
  | error e => simp
  | ok toolList =>
      cases determineDisplayAs strOf toolboxInfos agentSpec with
      | error e => simp [Except.map]
      | ok displayAs => simp [Except.map]

/-! ### One node -/

theorem ne_null_of_specOf {name : PyStr} {agentSpec : Json}
    (h : specOf network name = some agentSpec) : agentSpec ≠ .null := by
  rintro rfl
  unfold specOf at h
  split at h
  · cases h
  · cases h
  · rename_i hnull _
    obtain rfl := Option.some.inj h
    exact hnull rfl

/-- What is found at an external agent. -/
theorem reportOne_of_external {name : PyStr} (h : IsExternal urls name) :
    reportOne extractorGet urls strOf network toolboxInfos name =
      .ok (some (⟨name, [], .str (str "external_agent"), .null⟩, [])) := by
  unfold reportOne
  rw [h]

/-- What is found at an agent. -/
theorem reportOne_of_agent {name : PyStr} {agentSpec : Json}
    (h : IsAgent urls network name agentSpec) :
    reportOne extractorGet urls strOf network toolboxInfos name =
      (reportAgent extractorGet strOf toolboxInfos name agentSpec).map some := by
  unfold reportOne
  rw [h.1]
  simp only [h.2]

/-- An agent that disallows it cannot be reported. -/
theorem reportAgent_of_disallows {name : PyStr} {agentSpec : Json}
    (h : Disallows extractorGet agentSpec) :
    reportAgent extractorGet strOf toolboxInfos name agentSpec = .error .attributeError := by
  obtain ⟨allow, hallow, hfalse⟩ := h
  unfold reportAgent
  rw [hallow]
  simp only [hfalse]
  rfl

/-- An agent that allows it is described. -/
theorem reportAgent_of_allows {name : PyStr} {agentSpec : Json}
    (h : Allows extractorGet agentSpec) :
    reportAgent extractorGet strOf toolboxInfos name agentSpec =
      (describe extractorGet strOf toolboxInfos name agentSpec).map fun connectivity =>
        (connectivity, connectivity.tools) := by
  obtain ⟨allow, hallow, htrue⟩ := h
  unfold reportAgent
  rw [hallow]
  simp only [htrue, if_true]

/-- An agent is reported exactly if it allows it and can be described. -/
theorem exists_reportAgent_iff (name : PyStr) {agentSpec : Json} (hspec : agentSpec ≠ .null) :
    (∃ found, reportAgent extractorGet strOf toolboxInfos name agentSpec = .ok found) ↔
      Allows extractorGet agentSpec ∧ Readable extractorGet agentSpec ∧
        Displayable strOf toolboxInfos agentSpec := by
  cases hget : extractorGet agentSpec (str "allow.connectivity") (.bool true) with
  | error e =>
      unfold reportAgent Allows
      simp [hget]
  | ok allow =>
      cases htruthy : allow.truthy with
      | false =>
          rw [reportAgent_of_disallows ⟨allow, hget, htruthy⟩]
          unfold Allows
          simp [hget, htruthy]
      | true =>
          have hallows : Allows extractorGet agentSpec := ⟨allow, hget, htruthy⟩
          rw [reportAgent_of_allows hallows, ← exists_describe_iff name hspec]
          constructor
          · rintro ⟨found, hfound⟩
            obtain ⟨connectivity, hconnectivity, -⟩ := exists_of_map_eq_ok hfound
            exact ⟨hallows, connectivity, hconnectivity⟩
          · rintro ⟨-, connectivity, hconnectivity⟩
            rw [hconnectivity]
            exact ⟨_, rfl⟩

/-- Exactly the names that can be reported do not raise. -/
theorem looks_iff (name : PyStr) :
    Traversal.Looks (reportOne extractorGet urls strOf network toolboxInfos) name ↔
      Reportable extractorGet urls network strOf toolboxInfos name := by
  unfold Traversal.Looks Reportable
  cases hexternal : ExternalAgentParsing.isExternalAgent urls name with
  | error e =>
      unfold reportOne
      simp [hexternal]
  | ok isExternal =>
      cases isExternal with
      | true =>
          rw [reportOne_of_external hexternal]
          unfold IsAgent
          simp [hexternal]
      | false =>
          cases hspec : specOf network name with
          | none =>
              unfold reportOne IsAgent
              simp [hexternal, hspec]
          | some agentSpec =>
              have hagent : IsAgent urls network name agentSpec := ⟨hexternal, hspec⟩
              rw [reportOne_of_agent hagent]
              have hreport : (∃ found,
                  reportAgent extractorGet strOf toolboxInfos name agentSpec = .ok found) ↔ _ :=
                exists_reportAgent_iff name (ne_null_of_specOf hspec)
              constructor
              · rintro ⟨there, hthere⟩
                obtain ⟨found, hfound, -⟩ := exists_of_map_eq_ok hthere
                refine ⟨⟨false, rfl⟩, fun other hother => ?_⟩
                obtain rfl := Option.some.inj (hspec.symm.trans hother.2)
                exact hreport.mp ⟨found, hfound⟩
              · rintro ⟨-, hagents⟩
                obtain ⟨found, hfound⟩ := hreport.mpr (hagents agentSpec hagent)
                rw [hfound]
                exact ⟨_, rfl⟩

/-- What is found at a name, and where it goes on from there. -/
theorem of_reportOne_eq_ok {name : PyStr} {connectivity : Connectivity} {next : List PyStr}
    (h : reportOne extractorGet urls strOf network toolboxInfos name =
      .ok (some (connectivity, next))) :
    connectivity.origin = name ∧ next = connectivity.tools ∧
      ((IsExternal urls name ∧ next = []) ∨
        ∃ agentSpec, IsAgent urls network name agentSpec ∧ Allows extractorGet agentSpec ∧
          ∀ tool, tool ∈ next ↔ Refers extractorGet agentSpec tool) := by
  cases hexternal : ExternalAgentParsing.isExternalAgent urls name with
  | error e =>
      unfold reportOne at h
      simp [hexternal] at h
  | ok isExternal =>
      cases isExternal with
      | true =>
          rw [reportOne_of_external hexternal] at h
          cases h
          exact ⟨rfl, rfl, .inl ⟨hexternal, rfl⟩⟩
      | false =>
          cases hspec : specOf network name with
          | none =>
              unfold reportOne at h
              simp [hexternal, hspec] at h
          | some agentSpec =>
              have hagent : IsAgent urls network name agentSpec := ⟨hexternal, hspec⟩
              have hne := ne_null_of_specOf hspec
              rw [reportOne_of_agent hagent] at h
              obtain ⟨found, hfound, hsome⟩ := exists_of_map_eq_ok h
              obtain rfl := Option.some.inj hsome
              have hallows := ((exists_reportAgent_iff name hne).mp ⟨_, hfound⟩).1
              rw [reportAgent_of_allows hallows] at hfound
              obtain ⟨described, hdescribed, hpair⟩ := exists_of_map_eq_ok hfound
              cases hpair
              obtain ⟨horigin, htools⟩ := describe_eq_ok hne hdescribed
              exact ⟨horigin, rfl, .inr ⟨agentSpec, hagent, hallows, htools⟩⟩

/-! ### The whole network -/

/-- A node goes on to what an agent that allows it refers to. -/
theorem showsReference_of_edge {name other : PyStr}
    (h : Traversal.Edge (reportOne extractorGet urls strOf network toolboxInfos) name other) :
    ShowsReference extractorGet urls network name other := by
  obtain ⟨connectivity, next, hreport, hmem⟩ := h
  obtain ⟨-, -, ⟨-, hnone⟩ | ⟨agentSpec, hagent, hallows, hrefers⟩⟩ := of_reportOne_eq_ok hreport
  · rw [hnone] at hmem
    cases hmem
  · exact ⟨agentSpec, hagent, hallows, (hrefers other).mp hmem⟩

/-- A node that does not raise goes on to all of that. -/
theorem edge_of_showsReference {name other : PyStr}
    (hlooks : Traversal.Looks (reportOne extractorGet urls strOf network toolboxInfos) name)
    (h : ShowsReference extractorGet urls network name other) :
    Traversal.Edge (reportOne extractorGet urls strOf network toolboxInfos) name other := by
  obtain ⟨agentSpec, hagent, -, hrefers⟩ := h
  obtain ⟨there, hthere⟩ := hlooks
  have hreport := hthere
  rw [reportOne_of_agent hagent] at hreport
  obtain ⟨⟨connectivity, next⟩, -, rfl⟩ := exists_of_map_eq_ok hreport
  obtain ⟨-, -, ⟨hexternal, -⟩ | ⟨other, hother, -, hnext⟩⟩ := of_reportOne_eq_ok hthere
  · cases hagent.1.symm.trans hexternal
  · obtain rfl := Option.some.inj (hagent.2.symm.trans hother.2)
    exact ⟨connectivity, next, hthere, (hnext _).mpr hrefers⟩

/-- What a traversal reaches is in reach. -/
theorem inReach_of_reach {frontMan name : PyStr}
    (h : Traversal.Reach (reportOne extractorGet urls strOf network toolboxInfos) frontMan name) :
    InReach extractorGet urls network frontMan name := by
  induction h with
  | refl => exact Relation.ReflTransGen.refl
  | tail _ hedge ih => exact Relation.ReflTransGen.tail ih (showsReference_of_edge hedge)

/-- What is in reach is reached by a traversal that does not raise. -/
theorem reach_of_inReach {frontMan name : PyStr}
    (hlooks : ∀ other,
      Traversal.Reach (reportOne extractorGet urls strOf network toolboxInfos) frontMan other →
        Traversal.Looks (reportOne extractorGet urls strOf network toolboxInfos) other)
    (h : InReach extractorGet urls network frontMan name) :
    Traversal.Reach (reportOne extractorGet urls strOf network toolboxInfos) frontMan name := by
  induction h with
  | refl => exact Relation.ReflTransGen.refl
  | tail _ hshows ih =>
      exact Relation.ReflTransGen.tail ih (edge_of_showsReference (hlooks _ ih) hshows)

/-- There is something at a name exactly if it is that of an agent, or external. -/
theorem found_iff {name : PyStr}
    (hlooks : Traversal.Looks (reportOne extractorGet urls strOf network toolboxInfos) name) :
    Traversal.Found (reportOne extractorGet urls strOf network toolboxInfos) name ↔
      (∃ agentSpec, IsAgent urls network name agentSpec) ∨ IsExternal urls name := by
  constructor
  · rintro ⟨connectivity, next, hreport⟩
    obtain ⟨-, -, ⟨hexternal, -⟩ | ⟨agentSpec, hagent, -⟩⟩ := of_reportOne_eq_ok hreport
    · exact .inr hexternal
    · exact .inl ⟨agentSpec, hagent⟩
  · rintro (⟨agentSpec, hagent⟩ | hexternal)
    · obtain ⟨there, hthere⟩ := hlooks
      have hreport := hthere
      rw [reportOne_of_agent hagent] at hreport
      obtain ⟨⟨connectivity, next⟩, -, rfl⟩ := exists_of_map_eq_ok hreport
      exact ⟨connectivity, next, hthere⟩
    · exact ⟨_, _, reportOne_of_external hexternal⟩

theorem eq_of_sameKey {v : Json} {name : PyStr} (h : AgentNetwork.sameKey v (.str name) = true) :
    v = .str name := by
  cases v with
  | str s =>
      simp only [AgentNetwork.sameKey, decide_eq_true_eq] at h
      rw [h]
  | null => simp [AgentNetwork.sameKey, AgentNetwork.keyPlace, Json.place] at h
  | bool b => simp [AgentNetwork.sameKey, AgentNetwork.keyPlace, Json.place] at h
  | int n => simp [AgentNetwork.sameKey, AgentNetwork.keyPlace, Json.place] at h
  | float x => simp [AgentNetwork.sameKey, AgentNetwork.keyPlace, Json.place] at h
  | arr items => simp [AgentNetwork.sameKey, AgentNetwork.keyPlace, Json.place] at h
  | obj members => simp [AgentNetwork.sameKey, AgentNetwork.keyPlace, Json.place] at h

/-- The names of the agents. -/
def namesOf (network : AgentNetwork) : List PyStr :=
  removeDictionaryTools (network.agentSpecMap.map Prod.fst)

theorem mem_namesOf {name : PyStr} {agentSpec : Json} (h : specOf network name = some agentSpec) :
    name ∈ namesOf network := by
  cases hspec : network.getAgentToolSpec (.str name) with
  | none => simp [specOf, hspec] at h
  | some other =>
      obtain ⟨entry, hentry, -⟩ := Option.map_eq_some_iff.mp hspec
      have hsame := List.find?_some hentry
      have hkey : entry.1 = .str name := eq_of_sameKey hsame
      refine (mem_removeDictionaryTools _ name).mpr ?_
      rw [← hkey]
      exact List.mem_map_of_mem (List.mem_of_find?_eq_some hentry)

/-- Only agents have tools, so there is room for the traversal. -/
theorem exists_reportNodeConnectivity_iff (frontMan : PyStr) :
    (∃ seen, Traversal.traverse (reportOne extractorGet urls strOf network toolboxInfos)
        (network.agentSpecMap.length + 1) frontMan = .ok seen) ↔
      ∀ name, InReach extractorGet urls network frontMan name →
        Reportable extractorGet urls network strOf toolboxInfos name := by
  have hholds : Traversal.Holds (reportOne extractorGet urls strOf network toolboxInfos)
      (namesOf network).toFinset := by
    intro name other hedge
    obtain ⟨agentSpec, hagent, -⟩ := showsReference_of_edge hedge
    exact List.mem_toFinset.mpr (mem_namesOf hagent.2)
  have hroom : (namesOf network).toFinset.card < network.agentSpecMap.length + 1 := by
    have hcard := List.toFinset_card_le (namesOf network)
    have hlength : (namesOf network).length ≤ network.agentSpecMap.length :=
      (List.length_filterMap_le _ _).trans (le_of_eq (List.length_map _))
    omega
  rw [Traversal.exists_traverse_iff hholds hroom]
  constructor
  · intro hlooks name hreach
    exact (looks_iff name).mp (hlooks name (reach_of_inReach hlooks hreach))
  · intro hreportable name hreach
    exact (looks_iff name).mpr (hreportable name (inReach_of_reach hreach))

/-- The front man has a specification. -/
theorem exists_specOf_frontMan {frontMan : PyStr}
    (h : network.findFrontMan = .ok (.str frontMan)) :
    ∃ agentSpec, specOf network frontMan = some agentSpec := by
  unfold AgentNetwork.findFrontMan at h
  split at h
  · cases h
  · split at h
    · rename_i members hspec
      split at h
      · cases h
      · obtain rfl := Except.ok.inj h
        exact ⟨.obj members, by simp [specOf, hspec]⟩
    · cases h

/-- There is something at the front man, if looking there does not raise. -/
theorem found_frontMan {frontMan : PyStr} (hfrontMan : network.findFrontMan = .ok (.str frontMan))
    (hlook : Traversal.Looks (reportOne extractorGet urls strOf network toolboxInfos) frontMan) :
    Traversal.Found (reportOne extractorGet urls strOf network toolboxInfos) frontMan := by
  refine (found_iff hlook).mpr ?_
  obtain ⟨⟨isExternal, hexternal⟩, -⟩ := (looks_iff frontMan).mp hlook
  obtain ⟨agentSpec, hspec⟩ := exists_specOf_frontMan hfrontMan
  cases isExternal with
  | true => exact .inr hexternal
  | false => exact .inl ⟨agentSpec, hexternal, hspec⟩

/-- The origins in a report are the nodes that a traversal lists. -/
theorem origins_of_traverse {frontMan : PyStr} {room : Nat} {seen : List (PyStr × Connectivity)}
    (h : Traversal.traverse (reportOne extractorGet urls strOf network toolboxInfos) room frontMan =
      .ok seen) : (seen.map Prod.snd).map Connectivity.origin = seen.map Prod.fst := by
  rw [List.map_map]
  refine List.map_congr_left fun entry hentry => ?_
  obtain ⟨next, hreport⟩ := (Traversal.explores_traverse h).sound entry hentry
  exact (of_reportOne_eq_ok hreport).1

/-- What a traversal of the network gives is a report that is complete and discreet. -/
theorem completeAndDiscreet_of_traverse {frontMan : PyStr} {room : Nat}
    {seen : List (PyStr × Connectivity)} (hfrontMan : network.findFrontMan = .ok (.str frontMan))
    (h : Traversal.traverse (reportOne extractorGet urls strOf network toolboxInfos) room frontMan =
      .ok seen) :
    CompleteAndDiscreet extractorGet urls network frontMan (seen.map Prod.snd) := by
  -- looking raises nowhere, or the report had not returned
  have hlooks : ∀ name, Traversal.Reach _ frontMan name → Traversal.Looks _ name :=
    fun name hreach => (Traversal.settled_of_traverse h hreach).1
  have hsound := (Traversal.explores_traverse h).sound
  have hmem := Traversal.mem_traverse_iff h
  have horigins := origins_of_traverse h
  constructor
  case frontManFirst =>
    have hroot := found_frontMan hfrontMan (hlooks frontMan Relation.ReflTransGen.refl)
    obtain ⟨connectivity, next, hreport⟩ := hroot
    rw [horigins, List.head?_map, Traversal.head?_traverse h hreport]
    rfl
  case once =>
    rintro name ⟨hreach, hkind⟩
    rw [horigins]
    refine List.count_eq_one_of_mem (Traversal.nodup_traverse h) ?_
    have hreached := reach_of_inReach hlooks hreach
    exact (hmem name).mpr ⟨hreached, (found_iff (hlooks name hreached)).mpr hkind⟩
  case withheld =>
    intro connectivity hconnectivity hkind
    obtain ⟨entry, hentry, rfl⟩ := List.mem_map.mp hconnectivity
    obtain ⟨next, hreport⟩ := hsound entry hentry
    obtain ⟨horigin, hnext, hfound⟩ := of_reportOne_eq_ok hreport
    rw [horigin] at hkind
    rw [← hnext]
    rcases hfound with ⟨-, hnone⟩ | ⟨agentSpec, hagent, ⟨allow, hallow, htrue⟩, -⟩
    · exact hnone
    · rcases hkind with hexternal | ⟨other, hother, allow', hallow', hfalse⟩
      · cases hagent.1.symm.trans hexternal
      · obtain rfl := Option.some.inj (hagent.2.symm.trans hother.2)
        obtain rfl := Except.ok.inj (hallow.symm.trans hallow')
        rw [htrue] at hfalse
        cases hfalse
  case discreet =>
    intro connectivity hconnectivity
    have horigin : connectivity.origin ∈ seen.map Prod.fst := by
      rw [← horigins]
      exact List.mem_map_of_mem hconnectivity
    obtain ⟨hreach, hfound⟩ := (hmem _).mp horigin
    exact ⟨inReach_of_reach hreach, (found_iff (hlooks _ hreach)).mp hfound⟩

/-- **The report of a network is complete and discreet exactly if** its toolbox can be
loaded and every name in reach of the front man can be reported. -/
theorem completeAndDiscreet_iff (extractorGet : ExtractorGet) (urls : Urls.NetlocCheck)
    (strOf : StrOf) (reporter : ConnectivityReporter) {frontMan : PyStr}
    (hfrontMan : reporter.inspector.findFrontMan = .ok (.str frontMan)) :
    (∃ report, reportNetworkConnectivity extractorGet urls strOf reporter = .ok report ∧
        CompleteAndDiscreet extractorGet urls reporter.inspector frontMan report) ↔
      ∃ toolboxInfos, reporter.loadToolbox = .ok toolboxInfos ∧
        ∀ name, InReach extractorGet urls reporter.inspector frontMan name →
          Reportable extractorGet urls reporter.inspector strOf toolboxInfos name := by
  unfold reportNetworkConnectivity
  cases htoolbox : reporter.loadToolbox with
  | error e => simp
  | ok toolboxInfos =>
      rw [hfrontMan]
      simp only [Except.ok.injEq, exists_eq_left']
      rw [← exists_reportNodeConnectivity_iff]
      constructor
      · rintro ⟨report, hreport, -⟩
        obtain ⟨seen, hseen, -⟩ := exists_of_map_eq_ok hreport
        exact ⟨seen, hseen⟩
      · rintro ⟨seen, hseen⟩
        refine ⟨seen.map Prod.snd, ?_, completeAndDiscreet_of_traverse hfrontMan hseen⟩
        unfold reportNodeConnectivity
        rw [hseen]
        rfl

end Right

section Examples

/-- A front man who refers to an agent that disallows its connectivity to be shown. -/
def hiddenAgentConfig : List (PyStr × Json) :=
  [(str "tools", .arr [
    .obj [(str "name", .str (str "front")), (str "tools", .arr [.str (str "hidden")])],
    .obj [(str "name", .str (str "hidden")),
      (str "allow", .obj [(str "connectivity", .bool false)])]])]

/-- The network of that configuration. -/
def hiddenAgentNetwork : AgentNetwork where
  config := hiddenAgentConfig
  name := str "network"
  agentSpecMap := [
    (.str (str "front"),
      .obj [(str "name", .str (str "front")), (str "tools", .arr [.str (str "hidden")])]),
    (.str (str "hidden"),
      .obj [(str "name", .str (str "hidden")),
        (str "allow", .obj [(str "connectivity", .bool false)])])]

/-- A reporter for that network, with a toolbox that has no tools. -/
def hiddenAgentReporter : ConnectivityReporter := ⟨hiddenAgentNetwork, some (.ok [])⟩

example : AgentNetwork.new dictionaryGet hiddenAgentConfig (str "network") =
    .ok hiddenAgentNetwork := by rfl

/-- The condition, at a network with an agent that disallows it. -/
theorem completeAndDiscreet_hiddenAgent :
    hiddenAgentNetwork.findFrontMan = .ok (.str (str "front")) ∧
      ((∃ report, reportNetworkConnectivity dictionaryGet (fun _ => true) (fun _ => .ok [])
            hiddenAgentReporter = .ok report ∧
          CompleteAndDiscreet dictionaryGet (fun _ => true) hiddenAgentNetwork (str "front")
            report) ↔
        ∃ toolboxInfos, hiddenAgentReporter.loadToolbox = .ok toolboxInfos ∧
          ∀ name, InReach dictionaryGet (fun _ => true) hiddenAgentNetwork (str "front") name →
            Reportable dictionaryGet (fun _ => true) hiddenAgentNetwork (fun _ => .ok [])
              toolboxInfos name) :=
  ⟨rfl, completeAndDiscreet_iff dictionaryGet (fun _ => true) (fun _ => .ok []) hiddenAgentReporter
    rfl⟩

/-- The report of that network raises an `AttributeError`. -/
theorem hiddenAgent_not_reported :
    ¬∀ (extractorGet : ExtractorGet) (urls : Urls.NetlocCheck) (strOf : StrOf)
      (reporter : ConnectivityReporter) (frontMan : PyStr),
      reporter.inspector.findFrontMan = .ok (.str frontMan) →
        ∃ report, reportNetworkConnectivity extractorGet urls strOf reporter = .ok report ∧
          CompleteAndDiscreet extractorGet urls reporter.inspector frontMan report := by
  intro h
  obtain ⟨report, hreport, -⟩ :=
    h dictionaryGet (fun _ => true) (fun _ => .ok []) hiddenAgentReporter (str "front") rfl
  have hraised : reportNetworkConnectivity dictionaryGet (fun _ => true) (fun _ => .ok [])
      hiddenAgentReporter = .error .attributeError := by rfl
  rw [hraised] at hreport
  cases hreport

end Examples

end ConnectivityReporter

end NoraFleet.Networks
