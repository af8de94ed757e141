import Mathlib
import NoraFleet.Base.Traversal
import NoraFleet.Validation.NetworkValidators

/-!
# Unreachable agents

`UnreachableNodesNetworkValidator` looks for the front man of a network, an agent that refers
to others and is referred to by none, and then for agents that cannot be reached from there.

* `mem_getAgentDownChains` — which references the search follows;
* `of_findAllFrontManAgents` — what an only front man is;
* `reach_of_findUnreachableAgents` — without unreachable agents, all are reached;
* `mem_findUnreachableAgents_iff` — what is reported as unreachable.
-/

namespace NoraFleet.Validation

open Base Networks AbstractNetworkValidator

namespace UnreachableNodesNetworkValidator

variable (extractorGet : ExtractorGet)

/-- `get_agent_down_chains(agent_spec)`. -/
def getAgentDownChains (agentSpec : Json) : Except PyError (List PyStr) :=
  match coerceTools extractorGet agentSpec with
  | .error e => .error e
  | .ok tools =>
      (coerceArgsTools extractorGet agentSpec).map fun argsTools =>
        (removeDictionaryTools (tools ++ argsTools)).filter fun tool => !isUrlOrPath tool

/-- The front men, from the down-chains of all agents. -/
def frontMenOf (downChains : List (Key × List PyStr)) : List Key :=
  let hasDownChains := (downChains.filter fun entry => entry.2 ≠ []).map Prod.fst
  let allDownChains := downChains.flatMap fun entry => entry.2.map Key.text
  let frontMen := hasDownChains.filter (· ∉ allDownChains)
  match frontMen, downChains with
  | [], [entry] => [entry.1]
  | _, _ => frontMen

/-- `find_all_front_man_agents(name_to_spec)`. -/
def findAllFrontManAgents (nameToSpec : NameToSpec) : Except PyError (List Key) :=
  (nameToSpec.items.mapM fun agent =>
    (getAgentDownChains extractorGet agent.2).map fun downChains => (agent.1, downChains)).map
      frontMenOf

/-- What a traversal finds at an agent: its down-chains. -/
def lookAt (nameToSpec : NameToSpec) : Traversal.Look Key Unit := fun agent =>
  match nameToSpec.get? agent with
  | none => .ok none
  | some agentSpec =>
      (getAgentDownChains extractorGet agentSpec).map fun downChains =>
        some ((), downChains.map .text)

/-- `find_unreachable_agents(name_to_spec, front_man_agent)`. -/
def findUnreachableAgents (nameToSpec : NameToSpec) (frontManAgent : Key) :
    Except PyError (List Key) :=
  (Traversal.traverse (lookAt extractorGet nameToSpec) (nameToSpec.length + 1) frontManAgent).map
    fun reachable => nameToSpec.keys.filter fun agent => decide (agent ∉ reachable.map Prod.fst)

/-- `x < y`, where the two can be compared. -/
def isLess : Key → Key → Except PyError Bool
  | .text s, .text t => .ok (decide (s < t))
  | .number p, .number q => .ok (decide (p < q))
  | .nan, .number _ | .number _, .nan | .nan, .nan => .ok false
  | _, _ => .error .typeError

/-- Insert a name into a sorted list. -/
def insertName (name : Key) : List Key → Except PyError (List Key)
  | [] => .ok [name]
  | other :: rest =>
      match isLess name other with
      | .error e => .error e
      | .ok true => .ok (name :: other :: rest)
      | .ok false => (insertName name rest).map (other :: ·)

/-- `sorted(names)`. -/
def sorted : List Key → Except PyError (List Key)
  | [] => .ok []
  | name :: rest =>
      match sorted rest with
      | .error e => .error e
      | .ok rest => insertName name rest

/-- `validate_name_to_spec_dict(name_to_spec)`. -/
def errorsOf (nameToSpec : NameToSpec) : Except PyError (List NetworkError) :=
  match findAllFrontManAgents extractorGet nameToSpec with
  | .error e => .error e
  | .ok [] => .ok [.noFrontMan]
  | .ok [frontManAgent] =>
      match findUnreachableAgents extractorGet nameToSpec frontManAgent with
      | .error e => .error e
      | .ok [] => .ok []
      | .ok unreachableAgents => (sorted unreachableAgents).map fun names => [.unreachable names]
  | .ok frontManAgents => (sorted frontManAgents).map fun names => [.multipleFrontMen names]

/-! ### What is found -/

variable {extractorGet} {nameToSpec : NameToSpec}

/-- The references that are followed: those that are no URL or path. -/
theorem mem_getAgentDownChains {agentSpec : Json} {downChains : List PyStr}
    (h : getAgentDownChains extractorGet agentSpec = .ok downChains) (tool : PyStr) :
    tool ∈ downChains ↔ Refers extractorGet agentSpec tool ∧ isUrlOrPath tool = false := by
  unfold getAgentDownChains at h
  cases htools : coerceTools extractorGet agentSpec with
  | error e =>
      rw [htools] at h
      cases h
  | ok tools =>
      rw [htools] at h
      obtain ⟨argsTools, hargsTools, rfl⟩ := exists_of_map_eq_ok h
      rw [List.mem_filter, mem_removeDictionaryTools, refers_iff htools hargsTools,
        Bool.not_eq_true']

/-- A single front man is an agent of its own, and either there is no other agent, or none
refers to it. -/
theorem frontMenOf_eq_singleton {downChains : List (Key × List PyStr)} {frontMan : Key}
    (h : frontMenOf downChains = [frontMan]) :
    frontMan ∈ downChains.map Prod.fst ∧
      (downChains.length = 1 ∨ ∀ entry ∈ downChains, frontMan ∉ entry.2.map Key.text) := by
  unfold frontMenOf at h
  dsimp only at h
  split at h
  · rename_i entry _
    obtain rfl := List.singleton_inj.mp h
    exact ⟨List.mem_singleton_self _, .inl rfl⟩
  · have hmem : frontMan ∈ [frontMan] := List.mem_singleton_self frontMan
    rw [← h, List.mem_filter, decide_eq_true_eq] at hmem
    obtain ⟨hhas, hnot⟩ := hmem
    refine ⟨List.map_subset Prod.fst List.filter_sublist.subset hhas,
      .inr fun entry hentry hin => ?_⟩
    exact hnot (List.mem_flatMap.mpr ⟨entry, hentry, hin⟩)

/-- The down-chains stand by the names of the agents. -/
theorem map_fst_downChains {chains : List (Key × List PyStr)}
    (h : nameToSpec.items.mapM (fun agent =>
      (getAgentDownChains extractorGet agent.2).map fun downChains => (agent.1, downChains)) =
        .ok chains) : chains.map Prod.fst = nameToSpec.keys := by
  refine map_eq_of_mapM_eq_ok (fun agent entry hentry => ?_) h
  obtain ⟨downChains, -, rfl⟩ := exists_of_map_eq_ok hentry
  rfl

/-- An only front man is an agent, and either there is no other one, or no agent is followed to
it. -/
theorem of_findAllFrontManAgents {frontMan : Key}
    (h : findAllFrontManAgents extractorGet nameToSpec = .ok [frontMan]) :
    frontMan ∈ nameToSpec ∧ (nameToSpec.items.length = 1 ∨ ∀ agent ∈ nameToSpec.items,
      ∀ downChains, getAgentDownChains extractorGet agent.2 = .ok downChains →
        frontMan ∉ downChains.map Key.text) := by
  obtain ⟨chains, hchains, hfrontMen⟩ := exists_of_map_eq_ok h
  obtain ⟨hmem, hnone⟩ := frontMenOf_eq_singleton hfrontMen
  have hkeys := map_fst_downChains hchains
  refine ⟨?_, ?_⟩
  · rwa [Dict.mem_iff_keys, ← hkeys]
  · rcases hnone with hone | hnone
    · left
      have hlength := congrArg List.length hkeys
      rw [Dict.keys, List.length_map, List.length_map] at hlength
      omega
    · right
      intro agent hagent downChains hdown
      refine hnone (agent.1, downChains) ((mem_iff_of_mapM_eq_ok hchains _).mpr ⟨agent, hagent, ?_⟩)
      rw [hdown]
      rfl

/-- Where the search goes on from an agent. -/
theorem edge_lookAt_iff {node other : Key} :
    Traversal.Edge (lookAt extractorGet nameToSpec) node other ↔
      ∃ agentSpec downChains, nameToSpec.get? node = some agentSpec ∧
        getAgentDownChains extractorGet agentSpec = .ok downChains ∧
        other ∈ downChains.map Key.text := by
  unfold Traversal.Edge lookAt
  constructor
  · rintro ⟨report, next, hlook, hmem⟩
    cases hspec : nameToSpec.get? node with
    | none =>
        rw [hspec] at hlook
        cases hlook
    | some agentSpec =>
        rw [hspec] at hlook
        obtain ⟨downChains, hdown, hsame⟩ := exists_of_map_eq_ok hlook
        obtain ⟨-, rfl⟩ := Prod.mk.inj (Option.some.inj hsame)
        exact ⟨agentSpec, downChains, rfl, hdown, hmem⟩
  · rintro ⟨agentSpec, downChains, hspec, hdown, hmem⟩
    refine ⟨(), downChains.map Key.text, ?_, hmem⟩
    rw [hspec]
    dsimp only
    rw [hdown]
    rfl

/-- Where there are no unreachable agents, the search has come to all of them. -/
theorem reach_of_findUnreachableAgents {frontMan : Key}
    (h : findUnreachableAgents extractorGet nameToSpec frontMan = .ok []) {name : Key}
    (hname : name ∈ nameToSpec) :
    Traversal.Reach (lookAt extractorGet nameToSpec) frontMan name := by
  obtain ⟨reachable, hreachable, hnone⟩ := exists_of_map_eq_ok h
  rw [List.filter_eq_nil_iff] at hnone
  have hmem : name ∈ reachable.map Prod.fst := by
    have hnot := hnone name hname
    rw [decide_eq_true_eq, not_not] at hnot
    exact hnot
  exact ((Traversal.mem_traverse_iff hreachable name).mp hmem).1

/-! ### All that is unreachable -/

variable (extractorGet nameToSpec) in
/-- An agent of a network refers to another name, which is no URL or path. -/
def LeadsTo (name other : Key) : Prop :=
  ∃ agentSpec tool, nameToSpec.get? name = some agentSpec ∧ Refers extractorGet agentSpec tool ∧
    isUrlOrPath tool = false ∧ other = .text tool

theorem exists_getAgentDownChains {agentSpec : Json} (h : Readable extractorGet agentSpec) :
    ∃ downChains, getAgentDownChains extractorGet agentSpec = .ok downChains := by
  obtain ⟨⟨tools, htools⟩, argsTools, hargsTools⟩ := h
  unfold getAgentDownChains
  rw [htools, hargsTools]
  exact ⟨_, rfl⟩

/-- Where the references of all agents can be read, the search follows all of them. -/
theorem edge_iff_leadsTo (h : ∀ agent ∈ nameToSpec.items, Readable extractorGet agent.2)
    {node other : Key} :
    Traversal.Edge (lookAt extractorGet nameToSpec) node other ↔
      LeadsTo extractorGet nameToSpec node other := by
  rw [edge_lookAt_iff]
  constructor
  · rintro ⟨agentSpec, downChains, hspec, hdown, hmem⟩
    obtain ⟨tool, htool, rfl⟩ := List.mem_map.mp hmem
    obtain ⟨hrefers, hurl⟩ := (mem_getAgentDownChains hdown tool).mp htool
    exact ⟨agentSpec, tool, hspec, hrefers, hurl, rfl⟩
  · rintro ⟨agentSpec, tool, hspec, hrefers, hurl, rfl⟩
    obtain ⟨downChains, hdown⟩ :=
      exists_getAgentDownChains (h _ (Dict.get?_eq_some_iff.mp hspec))
    exact ⟨agentSpec, downChains, hspec, hdown,
      List.mem_map_of_mem ((mem_getAgentDownChains hdown tool).mpr ⟨hrefers, hurl⟩)⟩

theorem found_lookAt_iff (h : ∀ agent ∈ nameToSpec.items, Readable extractorGet agent.2)
    {node : Key} : Traversal.Found (lookAt extractorGet nameToSpec) node ↔ node ∈ nameToSpec := by
  unfold Traversal.Found lookAt
  constructor
  · rintro ⟨report, next, hlook⟩
    cases hspec : nameToSpec.get? node with
    | none =>
        rw [hspec] at hlook
        cases hlook
    | some agentSpec => exact Dict.mem_of_get?_eq_some hspec
  · intro hmem
    obtain ⟨agentSpec, hspec⟩ := Dict.exists_get?_of_mem hmem
    obtain ⟨downChains, hdown⟩ :=
      exists_getAgentDownChains (h _ (Dict.get?_eq_some_iff.mp hspec))
    refine ⟨(), downChains.map Key.text, ?_⟩
    rw [hspec]
    dsimp only
    rw [hdown]
    rfl

theorem looks_lookAt (h : ∀ agent ∈ nameToSpec.items, Readable extractorGet agent.2)
    (node : Key) : Traversal.Looks (lookAt extractorGet nameToSpec) node := by
  by_cases hmem : node ∈ nameToSpec
  · obtain ⟨report, next, hlook⟩ := (found_lookAt_iff h).mpr hmem
    exact ⟨_, hlook⟩
  · refine ⟨none, ?_⟩
    unfold lookAt
    cases hspec : nameToSpec.get? node with
    | none => rfl
    | some agentSpec => exact absurd (Dict.mem_of_get?_eq_some hspec) hmem

/-- Where the references of all agents can be read, the search ends. -/
theorem exists_traverse_lookAt (h : ∀ agent ∈ nameToSpec.items, Readable extractorGet agent.2)
    (start : Key) : ∃ reachable, Traversal.traverse (lookAt extractorGet nameToSpec)
      (nameToSpec.length + 1) start = .ok reachable := by
  have hholds : Traversal.Holds (lookAt extractorGet nameToSpec) nameToSpec.keys.toFinset := by
    intro node other hedge
    obtain ⟨agentSpec, -, hspec, -⟩ := (edge_iff_leadsTo h).mp hedge
    exact List.mem_toFinset.mpr (Dict.mem_of_get?_eq_some hspec)
  have hroom : nameToSpec.keys.toFinset.card < nameToSpec.length + 1 := by
    have hcard := List.toFinset_card_le nameToSpec.keys
    rw [Dict.keys, List.length_map] at hcard
    exact Nat.lt_succ_of_le hcard
  exact (Traversal.exists_traverse_iff hholds hroom start).mpr fun node _ => looks_lookAt h node

/-- **Unreachable agents.** The search ends, and it reports the agents to which no references
lead from where it starts. -/
theorem mem_findUnreachableAgents_iff (extractorGet : ExtractorGet)
    (hget : ∀ members path default, ∃ value, extractorGet (.obj members) path default = .ok value)
    (nameToSpec : NameToSpec)
    (hspecs : ∀ agent ∈ nameToSpec.items, ∃ members, agent.2 = .obj members)
    (start : Key) :
    ∃ unreachableAgents, findUnreachableAgents extractorGet nameToSpec start =
      .ok unreachableAgents ∧
      ∀ name, name ∈ unreachableAgents ↔ name ∈ nameToSpec ∧
        ¬Relation.ReflTransGen (LeadsTo extractorGet nameToSpec) start name := by
  have hreadable : ∀ agent ∈ nameToSpec.items, Readable extractorGet agent.2 := by
    intro agent hagent
    obtain ⟨members, hmembers⟩ := hspecs agent hagent
    rw [hmembers]
    exact readable_of_get hget members
  obtain ⟨reachable, hreachable⟩ := exists_traverse_lookAt hreadable start
  refine ⟨_, congrArg (Except.map _) hreachable, fun name => ?_⟩
  rw [List.mem_filter, decide_eq_true_eq, Traversal.mem_traverse_iff hreachable,
    found_lookAt_iff hreadable]
  have hedge : Traversal.Edge (lookAt extractorGet nameToSpec) =
      LeadsTo extractorGet nameToSpec := by
    funext node other
    exact propext (edge_iff_leadsTo hreadable)
  unfold Traversal.Reach
  rw [hedge, ← Dict.mem_iff_keys]
  constructor
  · rintro ⟨hmem, hnot⟩
    exact ⟨hmem, fun hreach => hnot ⟨hreach, hmem⟩⟩
  · rintro ⟨hmem, hnot⟩
    exact ⟨hmem, fun h => hnot h.1⟩

/-- Two agents that refer to each other, one of them also to nothing, and an agent apart. -/
def pairAndLoner : NameToSpec where
  items := [(.text (str "front"),
    .obj [(str "tools", .arr [.str (str "helper"), .str (str "ghost")])]),
    (.text (str "helper"), .obj [(str "tools", .arr [.str (str "front")])]),
    (.text (str "loner"), .obj [(str "tools", .str (str "front"))])]
  nodup := by decide

theorem unreachable_pairAndLoner : ∃ unreachableAgents,
    findUnreachableAgents dictionaryGet pairAndLoner (.text (str "front")) = .ok unreachableAgents ∧
      ∀ name, name ∈ unreachableAgents ↔ name ∈ pairAndLoner ∧
        ¬Relation.ReflTransGen (LeadsTo dictionaryGet pairAndLoner) (.text (str "front")) name := by
  refine mem_findUnreachableAgents_iff dictionaryGet (fun _ _ _ => ⟨_, rfl⟩) pairAndLoner ?_ _
  intro agent hagent
  rcases List.mem_cons.mp hagent with rfl | hagent
  · exact ⟨_, rfl⟩
  · rcases List.mem_cons.mp hagent with rfl | hagent
    · exact ⟨_, rfl⟩
    · rw [List.mem_singleton.mp hagent]
      exact ⟨_, rfl⟩

end UnreachableNodesNetworkValidator

/-- `UnreachableNodesNetworkValidator(network_name)`. -/
def unreachableNodesNetworkValidator (extractorGet : ExtractorGet) : Validator :=
  validate (UnreachableNodesNetworkValidator.errorsOf extractorGet)

end NoraFleet.Validation
