import Mathlib
import NoraFleet.Base.Detours
import NoraFleet.Validation.Reachability

/-!
# Cyclical agents

`CyclesNetworkValidator` searches a network depth first, from every agent that was not
visited yet. When it comes to an agent on its path, it collects the path from there on. An
agent that is fully processed is not looked at again, also where it is on a cycle with the
path. So it depends on the order in which agents and tools are listed what is collected.

* `leads_childAgents_iff` — the search goes along the references of agents to agents;
* `exists_findCyclicalAgents` — what is found of a network as it is listed;
* `exists_relisting` — how a network is listed so that an agent is passed by;
* `findCyclicalAgents_iff` — on which networks all agents on cycles are found, and no others,
  however they are listed.
-/

namespace NoraFleet.Validation

open Base Networks AbstractNetworkValidator

namespace CyclesNetworkValidator

variable (extractorGet : ExtractorGet) (nameToSpec : NameToSpec)

/-- The children that are visited from an agent: its `safe_down_chains` in the network. -/
def childAgents (agent : Key) : Except PyError (List Key) :=
  (coerceTools extractorGet ((nameToSpec.get? agent).getD (.obj []))).map fun downChains =>
    ((removeDictionaryTools downChains).map Key.text).filter fun childAgent =>
      decide (childAgent ∈ nameToSpec)

/-- `dfs_cycle_detection(name_to_spec, agent, path, state, cyclical_agents)`: a search knows the
`GraphVisitationState` of each agent, the path to it and the agents collected so far. -/
def dfsCycleDetection (search : BackEdges.Search Key) (agent : Key) :
    Except PyError (BackEdges.Search Key) :=
  BackEdges.search (childAgents extractorGet nameToSpec) (nameToSpec.length + 1) search agent

/-- `find_cyclical_agents(name_to_spec)`. -/
def findCyclicalAgents : Except PyError (Finset Key) :=
  (nameToSpec.keys.foldlM (fun search agent =>
      if search.colour agent = .unvisited then
        dfsCycleDetection extractorGet nameToSpec search agent
      else .ok search)
    ⟨fun _ => .unvisited, [], []⟩).map fun search => search.collected.toFinset

/-- An agent of the network has another one among its tools. -/
def DependsOn (name other : Key) : Prop :=
  ∃ agentSpec tools tool, nameToSpec.get? name = some agentSpec ∧
    coerceTools extractorGet agentSpec = .ok tools ∧ .str tool ∈ tools ∧ other = .text tool ∧
    other ∈ nameToSpec

/-- An agent is on a cycle of the network. -/
def OnCycle (name : Key) : Prop :=
  Relation.TransGen (DependsOn extractorGet nameToSpec) name name

/-- The order in which a depth-first traversal comes to the agents, as these and their tools are
listed. -/
def traversalOrder : Except PyError (List Key) :=
  BackEdges.depthFirst (childAgents extractorGet nameToSpec) (nameToSpec.length + 1) nameToSpec.keys

/-- The specification of an agent, and the same with its tools in another order. -/
inductive SpecRelisting : Json → Json → Prop
  | unchanged (agentSpec) : SpecRelisting agentSpec agentSpec
  | tools {members tools tools'} : Json.lookup members (str "tools") = some (.arr tools) →
      tools'.Perm tools → SpecRelisting (.obj members)
        (.obj (Dict.setItems members (str "tools") (.arr tools')))

/-- The same network, with agents and tools listed in any order. -/
structure Relisting (nameToSpec other : NameToSpec) : Prop where
  agents : other.keys.Perm nameToSpec.keys
  specs : ∀ name agentSpec, nameToSpec.get? name = some agentSpec →
    ∃ agentSpec', other.get? name = some agentSpec' ∧ SpecRelisting agentSpec agentSpec'

/-- The extractor gets the `tools` of a dictionary, or the default where there are none or they are
`None`. -/
def GetsTools : Prop :=
  ∀ members default, ∃ value, extractorGet (.obj members) (str "tools") default = .ok value ∧
    (Json.lookup members (str "tools") = some value ∨
      (Json.lookup members (str "tools")).getD .null = .null ∧ value = default)

variable {extractorGet nameToSpec}

/-- The tools of a dictionary are the list under its key, if there is one. -/
theorem coerceTools_obj (hget : GetsTools extractorGet) (members : List (PyStr × Json)) :
    (∃ tools, Json.lookup members (str "tools") = some (.arr tools) ∧
        coerceTools extractorGet (.obj members) = .ok tools) ∨
      (∀ tools, Json.lookup members (str "tools") ≠ some (.arr tools)) ∧
        coerceTools extractorGet (.obj members) = .ok [] := by
  obtain ⟨value, hvalue, hfound⟩ := hget members (.arr [])
  unfold coerceTools
  rw [hvalue]
  rcases hfound with hfound | ⟨hnull, rfl⟩
  · rw [hfound]
    cases value with
    | arr tools => exact .inl ⟨tools, rfl, rfl⟩
    | _ => exact .inr ⟨fun tools h => (by cases h), rfl⟩
  · refine .inr ⟨fun tools h => ?_, rfl⟩
    rw [h] at hnull
    cases hnull

/-- Tools that are set are read. -/
theorem coerceTools_setItems (hget : GetsTools extractorGet) (members : List (PyStr × Json))
    (tools : List Json) :
    coerceTools extractorGet (.obj (Dict.setItems members (str "tools") (.arr tools))) =
      .ok tools := by
  have hset : Json.lookup (Dict.setItems members (str "tools") (.arr tools)) (str "tools") =
      some (.arr tools) := by
    rw [Json.lookup_setItems, if_pos rfl]
  rcases coerceTools_obj hget (Dict.setItems members (str "tools") (.arr tools)) with
    ⟨_, hfound, htools⟩ | ⟨hnone, -⟩
  · obtain rfl := Json.arr.inj (Option.some.inj (hset.symm.trans hfound))
    exact htools
  · exact absurd hset (hnone tools)

/-- Some tools can be read of an agent, also of none. -/
theorem exists_childAgents (hget : GetsTools extractorGet)
    (hspecs : ∀ agent ∈ nameToSpec.items, ∃ members, agent.2 = .obj members) (agent : Key) :
    ∃ children, childAgents extractorGet nameToSpec agent = .ok children := by
  have hspec : ∃ members, (nameToSpec.get? agent).getD (.obj []) = .obj members := by
    cases hagent : nameToSpec.get? agent with
    | none => exact ⟨[], rfl⟩
    | some agentSpec => exact hspecs _ (Dict.get?_eq_some_iff.mp hagent)
  obtain ⟨members, hmembers⟩ := hspec
  have htools : ∃ tools, coerceTools extractorGet (.obj members) = .ok tools := by
    rcases coerceTools_obj hget members with ⟨tools, -, htools⟩ | ⟨-, htools⟩
    · exact ⟨tools, htools⟩
    · exact ⟨[], htools⟩
  obtain ⟨tools, htools⟩ := htools
  unfold childAgents
  rw [hmembers, htools]
  exact ⟨_, rfl⟩

/-- The search goes along the references of agents to agents. -/
theorem leads_childAgents_iff {name other : Key} (hname : name ∈ nameToSpec) :
    BackEdges.Leads (childAgents extractorGet nameToSpec) name other ↔
      DependsOn extractorGet nameToSpec name other := by
  obtain ⟨agentSpec, hspec⟩ := Dict.exists_get?_of_mem hname
  unfold BackEdges.Leads childAgents DependsOn
  rw [hspec, Option.getD_some]
  constructor
  · rintro ⟨children, hchildren, hother⟩
    obtain ⟨tools, htools, rfl⟩ := exists_of_map_eq_ok hchildren
    obtain ⟨hother, hin⟩ := List.mem_filter.mp hother
    obtain ⟨tool, htool, rfl⟩ := List.mem_map.mp hother
    exact ⟨agentSpec, tools, tool, rfl, htools,
      (mem_removeDictionaryTools tools tool).mp htool, rfl,
      of_decide_eq_true hin⟩
  · rintro ⟨agentSpec', tools, tool, hspec', htools, htool, rfl, hin⟩
    obtain rfl := Option.some.inj hspec'
    rw [htools]
    exact ⟨_, rfl, List.mem_filter.mpr ⟨List.mem_map_of_mem
      ((mem_removeDictionaryTools tools tool).mpr htool), decide_eq_true hin⟩⟩

/-- Only agents of the network are followed. -/
theorem mem_of_leads {name other : Key}
    (h : BackEdges.Leads (childAgents extractorGet nameToSpec) name other) :
    other ∈ nameToSpec := by
  obtain ⟨children, hchildren, hother⟩ := h
  obtain ⟨tools, -, rfl⟩ := exists_of_map_eq_ok hchildren
  exact of_decide_eq_true (List.mem_filter.mp hother).2

/-- What the search follows from an agent is in the network. -/
theorem mem_of_reach {name other : Key} (hname : name ∈ nameToSpec)
    (h : Relation.ReflTransGen (BackEdges.Leads (childAgents extractorGet nameToSpec)) name other) :
    other ∈ nameToSpec := by
  rcases h.cases_tail with rfl | ⟨_, _, hleads⟩
  · exact hname
  · exact mem_of_leads hleads

/-- Nothing is followed from what is no agent of the network. -/
theorem leads_childAgents (hget : GetsTools extractorGet) :
    BackEdges.Leads (childAgents extractorGet nameToSpec) = DependsOn extractorGet nameToSpec := by
  funext name other
  by_cases hname : name ∈ nameToSpec
  · exact propext (leads_childAgents_iff hname)
  · have hnone : nameToSpec.get? name = none := by
      cases hspec : nameToSpec.get? name with
      | none => rfl
      | some agentSpec => exact absurd (Dict.mem_of_get?_eq_some hspec) hname
    refine propext (iff_of_false ?_ ?_)
    · rintro ⟨children, hchildren, hother⟩
      unfold childAgents at hchildren
      rw [hnone, Option.getD_none] at hchildren
      obtain ⟨tools, htools, rfl⟩ := exists_of_map_eq_ok hchildren
      rcases coerceTools_obj hget [] with ⟨_, hfound, -⟩ | ⟨-, hempty⟩
      · cases hfound
      · obtain rfl := Except.ok.inj (hempty.symm.trans htools)
        cases hother
    · rintro ⟨agentSpec, tools, tool, hspec, -⟩
      rw [hnone] at hspec
      cases hspec

/-- The search ends, and finds the agents that are enclosed by a reference, in the order in which a
depth-first traversal comes to the agents. -/
theorem exists_findCyclicalAgents (hget : GetsTools extractorGet)
    (hspecs : ∀ agent ∈ nameToSpec.items, ∃ members, agent.2 = .obj members) :
    ∃ order cyclicalAgents, traversalOrder extractorGet nameToSpec = .ok order ∧
      findCyclicalAgents extractorGet nameToSpec = .ok cyclicalAgents ∧
      ∀ name, name ∈ cyclicalAgents ↔
        BackEdges.Enclosed (childAgents extractorGet nameToSpec) order name := by
  have hroom : nameToSpec.keys.toFinset.card < nameToSpec.length + 1 := by
    have hcard := List.toFinset_card_le nameToSpec.keys
    rw [Dict.keys, List.length_map] at hcard
    exact Nat.lt_succ_of_le hcard
  have hreturns : ∃ order, traversalOrder extractorGet nameToSpec = .ok order :=
    BackEdges.exists_depthFirst hroom fun node hnode other hreach =>
      ⟨exists_childAgents hget hspecs other,
        fun _ => List.mem_toFinset.mpr (mem_of_reach hnode hreach)⟩
  obtain ⟨order, horder⟩ := hreturns
  obtain ⟨search, hsearch, hcollected⟩ := BackEdges.exists_searchAll horder
  refine ⟨order, search.collected.toFinset, horder, congrArg (Except.map _) hsearch, fun name => ?_⟩
  rw [List.mem_toFinset, hcollected]

/-! ## Other listings -/

/-- A specification that is listed in another way is a dictionary with the same tools. -/
theorem SpecRelisting.coerceTools (hget : GetsTools extractorGet) {agentSpec agentSpec' : Json}
    (h : SpecRelisting agentSpec agentSpec') {members : List (PyStr × Json)}
    (hmembers : agentSpec = .obj members) :
    (∃ members', agentSpec' = .obj members') ∧
      ∃ tools tools', AbstractNetworkValidator.coerceTools extractorGet agentSpec = .ok tools ∧
        AbstractNetworkValidator.coerceTools extractorGet agentSpec' = .ok tools' ∧
        tools'.Perm tools := by
  cases h with
  | unchanged =>
      subst hmembers
      refine ⟨⟨members, rfl⟩, ?_⟩
      rcases coerceTools_obj hget members with ⟨tools, -, htools⟩ | ⟨-, htools⟩
      · exact ⟨tools, tools, htools, htools, .refl _⟩
      · exact ⟨[], [], htools, htools, .refl _⟩
  | @tools members' tools tools' hfound hperm =>
      refine ⟨⟨_, rfl⟩, tools, tools', ?_, ?_, hperm⟩
      · rcases coerceTools_obj hget members' with ⟨_, hfound', htools⟩ | ⟨hnone, -⟩
        · obtain rfl := Json.arr.inj (Option.some.inj (hfound.symm.trans hfound'))
          exact htools
        · exact absurd hfound (hnone tools)
      · exact coerceTools_setItems hget members' tools'

section Relisted

variable {other : NameToSpec}

theorem Relisting.mem_iff (h : Relisting nameToSpec other) (name : Key) :
    name ∈ other ↔ name ∈ nameToSpec := by
  rw [Dict.mem_iff_keys, Dict.mem_iff_keys]
  exact h.agents.mem_iff

/-- The specifications are dictionaries, too. -/
theorem Relisting.dictionaries (h : Relisting nameToSpec other) (hget : GetsTools extractorGet)
    (hspecs : ∀ agent ∈ nameToSpec.items, ∃ members, agent.2 = .obj members) :
    ∀ agent ∈ other.items, ∃ members, agent.2 = .obj members := by
  rintro ⟨name, agentSpec'⟩ hagent
  have hspec' := Dict.get?_eq_some_iff.mpr hagent
  obtain ⟨agentSpec, hspec⟩ :=
    Dict.exists_get?_of_mem ((h.mem_iff name).mp (Dict.mem_of_get?_eq_some hspec'))
  obtain ⟨found, hfound, hrelisted⟩ := h.specs name agentSpec hspec
  obtain rfl := Option.some.inj (hfound.symm.trans hspec')
  obtain ⟨members, hmembers⟩ := hspecs _ (Dict.get?_eq_some_iff.mp hspec)
  exact (hrelisted.coerceTools hget hmembers).1

/-- The agents have the same agents among their tools. -/
theorem Relisting.dependsOn (h : Relisting nameToSpec other) (hget : GetsTools extractorGet)
    (hspecs : ∀ agent ∈ nameToSpec.items, ∃ members, agent.2 = .obj members) :
    DependsOn extractorGet other = DependsOn extractorGet nameToSpec := by
  funext name agent
  refine propext ⟨?_, ?_⟩
  · rintro ⟨agentSpec', tools', tool, hspec', htools', htool, rfl, hin⟩
    obtain ⟨agentSpec, hspec⟩ :=
      Dict.exists_get?_of_mem ((h.mem_iff name).mp (Dict.mem_of_get?_eq_some hspec'))
    obtain ⟨found, hfound, hrelisted⟩ := h.specs name agentSpec hspec
    obtain rfl := Option.some.inj (hfound.symm.trans hspec')
    obtain ⟨members, hmembers⟩ := hspecs _ (Dict.get?_eq_some_iff.mp hspec)
    obtain ⟨-, tools, found', htools, hfound', hperm⟩ := hrelisted.coerceTools hget hmembers
    obtain rfl := Except.ok.inj (hfound'.symm.trans htools')
    exact ⟨agentSpec, tools, tool, hspec, htools, hperm.mem_iff.mp htool, rfl,
      (h.mem_iff _).mp hin⟩
  · rintro ⟨agentSpec, tools, tool, hspec, htools, htool, rfl, hin⟩
    obtain ⟨agentSpec', hspec', hrelisted⟩ := h.specs name agentSpec hspec
    obtain ⟨members, hmembers⟩ := hspecs _ (Dict.get?_eq_some_iff.mp hspec)
    obtain ⟨-, found, tools', hfound, htools', hperm⟩ := hrelisted.coerceTools hget hmembers
    obtain rfl := Except.ok.inj (hfound.symm.trans htools)
    exact ⟨agentSpec', tools', tool, hspec', htools', hperm.mem_iff.mpr htool, rfl,
      (h.mem_iff _).mpr hin⟩

end Relisted

/-- The agents of the network among some tools. -/
def agentsAmong (nameToSpec : NameToSpec) (tools : List Json) : List Key :=
  ((removeDictionaryTools tools).map Key.text).filter fun agent => decide (agent ∈ nameToSpec)

theorem mem_agentsAmong {tools : List Json} {agent : Key} :
    agent ∈ agentsAmong nameToSpec tools ↔
      ∃ tool, .str tool ∈ tools ∧ agent = .text tool ∧ agent ∈ nameToSpec := by
  unfold agentsAmong
  rw [List.mem_filter, List.mem_map, decide_eq_true_eq]
  constructor
  · rintro ⟨⟨tool, htool, rfl⟩, hin⟩
    exact ⟨tool, (mem_removeDictionaryTools tools tool).mp htool, rfl, hin⟩
  · rintro ⟨tool, htool, rfl, hin⟩
    exact ⟨⟨tool, (mem_removeDictionaryTools tools tool).mpr htool, rfl⟩, hin⟩

theorem agentsAmong_append (tools more : List Json) :
    agentsAmong nameToSpec (tools ++ more) =
      agentsAmong nameToSpec tools ++ agentsAmong nameToSpec more := by
  unfold agentsAmong removeDictionaryTools
  rw [List.filterMap_append, List.map_append, List.filter_append]

/-- The tools of an agent can be listed so that some of them come first, then one that is not among
these, and then the others. -/
theorem exists_perm_tools (P : Key → Prop) {tools : List Json} {tool : PyStr}
    (htool : .str tool ∈ tools) (hin : .text tool ∈ nameToSpec) (hnot : ¬P (.text tool)) :
    ∃ tools' first later, tools'.Perm tools ∧
      agentsAmong nameToSpec tools' = first ++ .text tool :: later ∧
      ∀ agent, agent ∈ first ↔ agent ∈ agentsAmong nameToSpec tools ∧ P agent := by
  classical
  let side : Json → Bool := fun entry => decide (∃ name, entry = .str name ∧ P (.text name))
  have hrest : .str tool ∈ tools.filter fun entry => !side entry := by
    refine List.mem_filter.mpr ⟨htool, ?_⟩
    rw [Bool.not_eq_true', decide_eq_false_iff_not]
    rintro ⟨name, hname, hside⟩
    obtain rfl := Json.str.inj hname
    exact hnot hside
  obtain ⟨before, after, hsplit⟩ := List.append_of_mem hrest
  have hone : agentsAmong nameToSpec [.str tool] = [.text tool] := by
    show [Key.text tool].filter (fun agent => decide (agent ∈ nameToSpec)) = [.text tool]
    rw [List.filter_singleton, decide_eq_true hin]
    rfl
  refine ⟨tools.filter side ++ .str tool :: (before ++ after),
    agentsAmong nameToSpec (tools.filter side),
    agentsAmong nameToSpec (before ++ after), ?_, ?_, ?_⟩
  · have hmiddle : (Json.str tool :: (before ++ after)).Perm
        (tools.filter fun entry => !side entry) := by
      rw [hsplit]
      exact List.perm_middle.symm
    exact (hmiddle.append_left _).trans (List.filter_append_perm side tools)
  · rw [List.append_cons, agentsAmong_append, agentsAmong_append, hone, List.append_assoc]
    rfl
  · intro agent
    rw [mem_agentsAmong, mem_agentsAmong]
    constructor
    · rintro ⟨name, hname, rfl, hagent⟩
      obtain ⟨hmem, hside⟩ := List.mem_filter.mp hname
      obtain ⟨name', hname', hside⟩ := of_decide_eq_true hside
      obtain rfl := Json.str.inj hname'
      exact ⟨⟨name, hmem, rfl, hagent⟩, hside⟩
    · rintro ⟨⟨name, hname, rfl, hagent⟩, hside⟩
      exact ⟨name, List.mem_filter.mpr ⟨hname, decide_eq_true ⟨name, rfl, hside⟩⟩, rfl, hagent⟩

/-- An agent of a path is listed so that a search goes on along it: its tools that do not lead to
the end of the path come first, then the next agent, then the others. -/
def GoesOn (extractorGet : ExtractorGet) (nameToSpec : NameToSpec) (path : List Key)
    (name last : Key) (agentSpec : Json) : Prop :=
  ∀ before next after, path ++ [name] = before ++ last :: next :: after →
    ∃ tools first later, coerceTools extractorGet agentSpec = .ok tools ∧
      agentsAmong nameToSpec tools = first ++ next :: later ∧
      ∀ child, child ∈ first ↔ DependsOn extractorGet nameToSpec last child ∧
        ¬BackEdges.Without (DependsOn extractorGet nameToSpec) (before ++ [last]) child name

/-- The tools of an agent of a path can be listed so. -/
theorem exists_goesOn (hget : GetsTools extractorGet) {path before after : List Key}
    {name last next : Key} (h : BackEdges.Detour (DependsOn extractorGet nameToSpec) path name)
    (hsplit : path ++ [name] = before ++ last :: next :: after) {members : List (PyStr × Json)}
    (hspec : nameToSpec.get? last = some (.obj members)) :
    ∃ agentSpec', SpecRelisting (.obj members) agentSpec' ∧
      GoesOn extractorGet nameToSpec path name last agentSpec' := by
  have hchain := h.chain
  rw [hsplit] at hchain
  obtain ⟨_, tools, tool, hspec', htools, htool, rfl, hnext⟩ :=
    (List.isChain_cons_cons.mp (List.isChain_append.mp hchain).2.1).1
  obtain rfl := Option.some.inj (hspec'.symm.trans hspec)
  obtain ⟨tools', first, later, hperm, hlisted, hfirst⟩ := exists_perm_tools
    (fun child => ¬BackEdges.Without (DependsOn extractorGet nameToSpec)
      (before ++ [last]) child name)
    htool hnext (not_not.mpr (h.without hsplit))
  have hfound : Json.lookup members (str "tools") = some (.arr tools) := by
    rcases coerceTools_obj hget members with ⟨found, hfound, htools'⟩ | ⟨-, hempty⟩
    · rwa [Except.ok.inj (htools.symm.trans htools')]
    · rw [Except.ok.inj (htools.symm.trans hempty)] at htool
      cases htool
  refine ⟨_, .tools hfound hperm, ?_⟩
  intro before' next' after' hsplit'
  have hnodup := h.nodup
  rw [hsplit] at hnodup hsplit'
  obtain ⟨-, hrest, hbefore⟩ := List.nodup_append.mp hnodup
  obtain ⟨rfl, -, hafter⟩ := (List.append_cons_inj_of_notMem
    (fun hmem => hbefore _ hmem _ List.mem_cons_self rfl) (List.nodup_cons.mp hrest).1).mp hsplit'
  obtain ⟨rfl, -⟩ := List.cons.inj hafter
  refine ⟨tools', first, later, coerceTools_setItems hget members tools', hlisted, fun child => ?_⟩
  rw [hfirst, mem_agentsAmong]
  refine and_congr_left fun _ => ⟨?_, ?_⟩
  · rintro ⟨tool', htool', rfl, hchild⟩
    exact ⟨_, tools, tool', hspec, htools, htool', rfl, hchild⟩
  · rintro ⟨found, tools₂, tool', hfound', htools₂, htool', rfl, hchild⟩
    obtain rfl := Option.some.inj (hfound'.symm.trans hspec)
    obtain rfl := Except.ok.inj (htools₂.symm.trans htools)
    exact ⟨tool', htool', rfl, hchild⟩

/-- **A detour is taken** where the agents and tools are listed for it. -/
theorem exists_relisting (hget : GetsTools extractorGet)
    (hspecs : ∀ agent ∈ nameToSpec.items, ∃ members, agent.2 = .obj members) {path : List Key}
    {name root : Key} (h : BackEdges.Detour (DependsOn extractorGet nameToSpec) path name)
    (hin : root ∈ nameToSpec) :
    ∃ other rest, Relisting nameToSpec other ∧ other.keys = root :: rest ∧
      BackEdges.Arranged (childAgents extractorGet other) path name := by
  have heach : ∀ agent : Key × Json, ∃ agentSpec', agent ∈ nameToSpec.items →
      SpecRelisting agent.2 agentSpec' ∧
        GoesOn extractorGet nameToSpec path name agent.1 agentSpec' := by
    intro agent
    by_cases hpath : agent ∈ nameToSpec.items ∧
        ∃ before next after, path ++ [name] = before ++ agent.1 :: next :: after
    · obtain ⟨hagent, before, next, after, hsplit⟩ := hpath
      obtain ⟨members, hmembers⟩ := hspecs agent hagent
      have hspec : nameToSpec.get? agent.1 = some (.obj members) := by
        rw [← hmembers]
        exact Dict.get?_eq_some_iff.mpr hagent
      obtain ⟨agentSpec', hrelisted, hgoesOn⟩ := exists_goesOn hget h hsplit hspec
      exact ⟨agentSpec', fun _ => ⟨hmembers ▸ hrelisted, hgoesOn⟩⟩
    · refine ⟨agent.2, fun hagent => ⟨.unchanged _, fun before next after hsplit => ?_⟩⟩
      exact absurd ⟨hagent, before, next, after, hsplit⟩ hpath
  choose relisted hrelisted using heach
  obtain ⟨rootSpec, hrootSpec⟩ := Dict.exists_get?_of_mem hin
  obtain ⟨before, after, hitems⟩ := List.append_of_mem (Dict.get?_eq_some_iff.mp hrootSpec)
  let listing := (root, rootSpec) :: (before ++ after)
  have hperm : listing.Perm nameToSpec.items := by
    rw [hitems]
    exact List.perm_middle.symm
  have hkeys : (listing.map fun agent => (agent.1, relisted agent)).map Prod.fst =
      listing.map Prod.fst := by
    rw [List.map_map]
    rfl
  let other : NameToSpec := ⟨listing.map fun agent => (agent.1, relisted agent), by
    rw [hkeys]
    exact (hperm.map Prod.fst).nodup_iff.mpr nameToSpec.nodup⟩
  have hspec : ∀ agent agentSpec, nameToSpec.get? agent = some agentSpec →
      other.get? agent = some (relisted (agent, agentSpec)) := by
    intro agent agentSpec hagent
    refine Dict.get?_eq_some_iff.mpr (List.mem_map.mpr ⟨(agent, agentSpec), ?_, rfl⟩)
    exact hperm.mem_iff.mpr (Dict.get?_eq_some_iff.mp hagent)
  have hrelisting : Relisting nameToSpec other := by
    refine ⟨?_, fun agent agentSpec hagent => ⟨_, hspec agent agentSpec hagent, ?_⟩⟩
    · show (List.map Prod.fst _).Perm _
      rw [hkeys]
      exact hperm.map Prod.fst
    · exact (hrelisted _ (Dict.get?_eq_some_iff.mp hagent)).1
  refine ⟨other, (before ++ after).map Prod.fst, hrelisting, hkeys, ?_⟩
  intro before last next after hsplit
  have hlast : last ∈ nameToSpec := by
    have hchain := h.chain
    rw [hsplit] at hchain
    obtain ⟨agentSpec, _, _, hspec', -⟩ :=
      (List.isChain_cons_cons.mp (List.isChain_append.mp hchain).2.1).1
    exact Dict.mem_of_get?_eq_some hspec'
  obtain ⟨lastSpec, hlastSpec⟩ := Dict.exists_get?_of_mem hlast
  obtain ⟨tools, first, later, htools, hlisted, hfirst⟩ :=
    (hrelisted (last, lastSpec) (Dict.get?_eq_some_iff.mp hlastSpec)).2 before next after hsplit
  refine ⟨first, later, ?_, ?_⟩
  · unfold childAgents
    rw [hspec last lastSpec hlastSpec, Option.getD_some, htools, ← hlisted]
    show Except.ok _ = _
    unfold agentsAmong
    congr 1
    refine List.filter_congr fun agent _ => ?_
    rw [decide_eq_decide]
    exact hrelisting.mem_iff agent
  · rw [leads_childAgents hget, hrelisting.dependsOn hget hspecs]
    exact hfirst

/-- **Cyclical agents.** However a network is listed, the search ends, and what it finds is on
cycles. All agents on cycles are found in every listing if and only if there is no detour past one
of them. -/
theorem findCyclicalAgents_iff (extractorGet : ExtractorGet) (hget : GetsTools extractorGet)
    (nameToSpec : NameToSpec)
    (hspecs : ∀ agent ∈ nameToSpec.items, ∃ members, agent.2 = .obj members) :
    (∀ other, Relisting nameToSpec other → ∃ cyclicalAgents,
      findCyclicalAgents extractorGet other = .ok cyclicalAgents ∧
      ∀ name ∈ cyclicalAgents, OnCycle extractorGet nameToSpec name) ∧
    ((∀ other cyclicalAgents, Relisting nameToSpec other →
        findCyclicalAgents extractorGet other = .ok cyclicalAgents →
        ∀ name, name ∈ cyclicalAgents ↔ OnCycle extractorGet nameToSpec name) ↔
      ∀ name, OnCycle extractorGet nameToSpec name →
        ¬∃ path, BackEdges.Detour (DependsOn extractorGet nameToSpec) path name) := by
  have hfound : ∀ other, Relisting nameToSpec other → ∃ order cyclicalAgents,
      traversalOrder extractorGet other = .ok order ∧
      findCyclicalAgents extractorGet other = .ok cyclicalAgents ∧
      (∀ name, name ∈ cyclicalAgents ↔
        BackEdges.Enclosed (childAgents extractorGet other) order name) ∧
      BackEdges.Leads (childAgents extractorGet other) = DependsOn extractorGet nameToSpec := by
    intro other hother
    obtain ⟨order, cyclicalAgents, horder, hcyclical, hexact⟩ :=
      exists_findCyclicalAgents hget (hother.dictionaries hget hspecs)
    exact ⟨order, cyclicalAgents, horder, hcyclical, hexact,
      (leads_childAgents hget).trans (hother.dependsOn hget hspecs)⟩
  have hsound : ∀ other cyclicalAgents, Relisting nameToSpec other →
      findCyclicalAgents extractorGet other = .ok cyclicalAgents →
      ∀ name ∈ cyclicalAgents, OnCycle extractorGet nameToSpec name := by
    intro other cyclicalAgents hother hcyclical name hname
    obtain ⟨order, found, -, hfound', hexact, hleads⟩ := hfound other hother
    obtain rfl := Except.ok.inj (hfound'.symm.trans hcyclical)
    have hcycle := ((hexact name).mp hname).onCycle
    rwa [hleads] at hcycle
  refine ⟨fun other hother => ?_, ⟨?_, ?_⟩⟩
  · obtain ⟨_, cyclicalAgents, -, hcyclical, -⟩ := hfound other hother
    exact ⟨cyclicalAgents, hcyclical, hsound other cyclicalAgents hother hcyclical⟩
  · rintro hall name hcycle ⟨path, hdetour⟩
    obtain ⟨root, hroot⟩ : ∃ root, (path ++ [name]).head? = some root :=
      ⟨_, List.head?_eq_some_head (List.append_ne_nil_of_right_ne_nil _ (List.cons_ne_nil _ _))⟩
    have hin : root ∈ nameToSpec := by
      obtain ⟨first, rest, rfl⟩ := List.exists_cons_of_ne_nil (hdetour.ne_nil hcycle)
      obtain rfl := Option.some.inj hroot
      have hchain := hdetour.chain
      cases rest with
      | nil =>
          obtain ⟨_, _, _, hspec, -⟩ := (List.isChain_cons_cons.mp hchain).1
          exact Dict.mem_of_get?_eq_some hspec
      | cons second rest =>
          obtain ⟨_, _, _, hspec, -⟩ := (List.isChain_cons_cons.mp hchain).1
          exact Dict.mem_of_get?_eq_some hspec
    obtain ⟨other, rest, hother, hkeys, harranged⟩ := exists_relisting hget hspecs hdetour hin
    obtain ⟨order, cyclicalAgents, horder, hcyclical, hexact, hleads⟩ := hfound other hother
    unfold traversalOrder at horder
    rw [hkeys] at horder
    rw [← hleads] at hdetour
    exact BackEdges.not_enclosed_of_detour hdetour harranged hroot horder
      ((hexact name).mp ((hall other cyclicalAgents hother hcyclical name).mpr hcycle))
  · intro hnone other cyclicalAgents hother hcyclical name
    refine ⟨hsound other cyclicalAgents hother hcyclical name, fun hcycle => ?_⟩
    obtain ⟨order, found, horder, hfound', hexact, hleads⟩ := hfound other hother
    obtain rfl := Except.ok.inj (hfound'.symm.trans hcyclical)
    by_contra hmissed
    have hname : name ∈ other.keys := by
      obtain ⟨_, -, _, _, _, -, -, -, -, hin⟩ := Relation.TransGen.tail'_iff.mp hcycle
      exact (hother.mem_iff name).mpr hin
    obtain ⟨path, hdetour⟩ := BackEdges.exists_detour horder hname
      fun henclosed => hmissed ((hexact name).mpr henclosed)
    rw [hleads] at hdetour
    exact hnone name hcycle ⟨path, hdetour⟩

theorem getsTools_dictionaryGet : GetsTools dictionaryGet := by
  intro members default
  have hsplit : (str "tools").splitOn 46 = [str "tools"] := by decide
  have hget : dictionaryGet (.obj members) (str "tools") default =
      .ok ((Json.lookup members (str "tools")).getD default) := by
    unfold dictionaryGet
    rw [hsplit, Json.atPath_obj]
    cases Json.lookup members (str "tools") with
    | none => rfl
    | some value => cases value <;> rfl
  rw [hget]
  cases Json.lookup members (str "tools") with
  | none => exact ⟨default, rfl, .inr ⟨rfl, rfl⟩⟩
  | some value => exact ⟨value, rfl, .inl rfl⟩

/-- A front man with two agents that both refer back. -/
def mutuallyReferring : NameToSpec where
  items := [
    (.text (str "front"), .obj [(str "tools", .arr [.str (str "first"), .str (str "second")])]),
    (.text (str "first"), .obj [(str "tools", .arr [.str (str "front")])]),
    (.text (str "second"), .obj [(str "tools", .arr [.str (str "front")])])]
  nodup := by decide

theorem dependsOn_mutuallyReferring {name other : Key}
    (h : DependsOn dictionaryGet mutuallyReferring name other) :
    name = .text (str "front") ∧ (other = .text (str "first") ∨ other = .text (str "second")) ∨
      (name = .text (str "first") ∨ name = .text (str "second")) ∧ other = .text (str "front") := by
  obtain ⟨agentSpec, tools, tool, hspec, htools, htool, rfl, -⟩ := h
  have hagent := Dict.get?_eq_some_iff.mp hspec
  simp only [mutuallyReferring, List.mem_cons, Prod.mk.injEq, List.not_mem_nil, or_false] at hagent
  rcases hagent with ⟨rfl, rfl⟩ | ⟨rfl, rfl⟩ | ⟨rfl, rfl⟩
  · obtain rfl : [.str (str "first"), .str (str "second")] = tools := Except.ok.inj htools
    rcases List.mem_cons.mp htool with htool | htool
    · exact .inl ⟨rfl, .inl (congrArg Key.text (Json.str.inj htool))⟩
    · exact .inl ⟨rfl, .inr (congrArg Key.text (Json.str.inj (List.mem_singleton.mp htool)))⟩
  · obtain rfl : [.str (str "front")] = tools := Except.ok.inj htools
    exact .inr ⟨.inl rfl, congrArg Key.text (Json.str.inj (List.mem_singleton.mp htool))⟩
  · obtain rfl : [.str (str "front")] = tools := Except.ok.inj htools
    exact .inr ⟨.inr rfl, congrArg Key.text (Json.str.inj (List.mem_singleton.mp htool))⟩

theorem dependsOn_mutuallyReferring_symm {name other : Key}
    (h : DependsOn dictionaryGet mutuallyReferring name other) :
    DependsOn dictionaryGet mutuallyReferring other name := by
  have hback : ∀ agent, agent = str "first" ∨ agent = str "second" →
      DependsOn dictionaryGet mutuallyReferring (.text agent) (.text (str "front")) := by
    rintro agent (rfl | rfl)
    · exact ⟨_, _, _, rfl, rfl, List.mem_singleton_self _, rfl, by decide⟩
    · exact ⟨_, _, _, rfl, rfl, List.mem_singleton_self _, rfl, by decide⟩
  rcases dependsOn_mutuallyReferring h with ⟨rfl, rfl | rfl⟩ | ⟨rfl | rfl, rfl⟩
  · exact hback _ (.inl rfl)
  · exact hback _ (.inr rfl)
  · exact ⟨_, _, _, rfl, rfl, List.mem_cons_self, rfl, by decide⟩
  · exact ⟨_, _, _, rfl, rfl, List.mem_cons_of_mem _ (List.mem_singleton_self _), rfl, by decide⟩

/-- Where every reference is returned, no agent is passed by. -/
theorem found_mutuallyReferring :
    (∃ cyclicalAgents, findCyclicalAgents dictionaryGet mutuallyReferring = .ok cyclicalAgents) ∧
    ∀ other cyclicalAgents, Relisting mutuallyReferring other →
      findCyclicalAgents dictionaryGet other = .ok cyclicalAgents →
      ∀ name, name ∈ cyclicalAgents ↔ OnCycle dictionaryGet mutuallyReferring name := by
  have hspecs : ∀ agent ∈ mutuallyReferring.items, ∃ members, agent.2 = .obj members := by
    intro agent hagent
    simp only [mutuallyReferring, List.mem_cons, List.not_mem_nil, or_false] at hagent
    rcases hagent with rfl | rfl | rfl
    all_goals exact ⟨_, rfl⟩
  obtain ⟨hfound, hexact⟩ :=
    findCyclicalAgents_iff dictionaryGet getsTools_dictionaryGet mutuallyReferring hspecs
  have hlisted : Relisting mutuallyReferring mutuallyReferring :=
    ⟨.refl _, fun name agentSpec hspec => ⟨agentSpec, hspec, .unchanged _⟩⟩
  obtain ⟨cyclicalAgents, hcyclical, -⟩ := hfound mutuallyReferring hlisted
  refine ⟨⟨cyclicalAgents, hcyclical⟩, hexact.mpr ?_⟩
  rintro name hcycle ⟨path, hdetour⟩
  obtain ⟨before, last, rfl⟩ := List.eq_nil_or_concat path |>.resolve_left (hdetour.ne_nil hcycle)
  have hchain := hdetour.chain
  rw [List.concat_eq_append, List.append_assoc] at hchain
  have hleads := (List.isChain_cons_cons.mp (List.isChain_append.mp hchain).2.1).1
  exact hdetour.not_leads (by simp) (dependsOn_mutuallyReferring_symm hleads)

/-- A front man with two agents, of which one refers back and the other one to the first. -/
def crossReferring : NameToSpec where
  items := [
    (.text (str "front"), .obj [(str "tools", .arr [.str (str "first"), .str (str "second")])]),
    (.text (str "first"), .obj [(str "tools", .arr [.str (str "front")])]),
    (.text (str "second"), .obj [(str "tools", .arr [.str (str "first")])])]
  nodup := by decide

theorem second_missed : ¬∀ cyclicalAgents,
    findCyclicalAgents dictionaryGet crossReferring = .ok cyclicalAgents →
      ∀ name, name ∈ cyclicalAgents ↔ OnCycle dictionaryGet crossReferring name := by
  intro h
  have hcyclical : findCyclicalAgents dictionaryGet crossReferring =
      .ok [.text (str "front"), .text (str "first"), .text (str "front")].toFinset := by
    rfl
  have hsecond := (h _ hcyclical (.text (str "second"))).mpr ?_
  · revert hsecond
    decide
  · have hstep : ∀ name other tools, crossReferring.get? (.text name) =
        some (.obj [(str "tools", .arr tools)]) → .str other ∈ tools →
        .text other ∈ crossReferring →
        DependsOn dictionaryGet crossReferring (.text name) (.text other) :=
      fun name other tools hspec hother hin => ⟨_, tools, other, hspec, rfl, hother, rfl, hin⟩
    have hfirst := hstep (str "second") (str "first") _ rfl List.mem_cons_self (by decide)
    have hfront := hstep (str "first") (str "front") _ rfl List.mem_cons_self (by decide)
    have hback := hstep (str "front") (str "second") _ rfl
      (List.mem_cons_of_mem _ List.mem_cons_self) (by decide)
    exact ((Relation.TransGen.single hfirst).tail hfront).tail hback

end CyclesNetworkValidator

end NoraFleet.Validation
