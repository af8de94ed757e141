import Mathlib
import NoraFleet.Validation.ManifestValidator

/-!
# Networks that are validated and networks that are run

A description that is accepted becomes an `AgentNetwork`, which makes a table of its own: it
raises where a name comes twice, a name under `function` goes before the other one, and its
front man is the agent that is listed first.

* `foldlM_register`, `of_foldlM_register` — the table of the runtime;
* `isFrontMan_of_unreferred` — the front man of the validator, by what refers to it;
* `agrees_iff` — the descriptions on which the two agree.
-/

namespace NoraFleet.Validation

open Base Networks AbstractNetworkValidator UnreachableNodesNetworkValidator

/-- An agent of a network refers to another. -/
def RefersTo (extractorGet : ExtractorGet) (network : AgentNetwork) (name other : PyStr) : Prop :=
  ∃ agentSpec, network.getAgentToolSpec (.str name) = some agentSpec ∧
    Refers extractorGet agentSpec other

/-- The runtime makes of a configuration what the validator has seen: one agent for each entry,
under the name it is given, the same front man, and every agent in reach of it. -/
def Agrees (extractorGet : ExtractorGet) (config : List (PyStr × Json)) (name : PyStr) : Prop :=
  ∃ agents nameToSpec network frontMan,
    Json.lookup config (str "tools") = some (.arr agents) ∧
    getNameToSpec config = .ok nameToSpec ∧
    AgentNetwork.new extractorGet config name = .ok network ∧
    network.agentSpecMap = agents.map (fun agent => (givenName agent, agent)) ∧
    findAllFrontManAgents extractorGet nameToSpec = .ok [.text frontMan] ∧
    network.findFrontMan = .ok (.str frontMan) ∧
    ∀ entry ∈ network.agentSpecMap, ∃ other, entry.1 = .str other ∧
      Relation.ReflTransGen (RefersTo extractorGet network) frontMan other

/-- Agents with names of their own, which are not given another one under `function`. The first
one is no coded tool and none of a toolbox, and is the only one or is not referred to. -/
structure Consistent (extractorGet : ExtractorGet) (agents : List Json) : Prop where
  distinct : (agents.map givenName).Nodup
  functionNames : ∀ agent ∈ agents,
    extractorGet agent (str "function.name") .null = .ok .null ∨
      extractorGet agent (str "function.name") .null = .ok (givenName agent)
  notCoded : ∀ members, agents.head? = some (.obj members) →
    AgentNetwork.isGiven members (str "class") = false ∧
      AgentNetwork.isGiven members (str "toolbox") = false
  unreferred : ∀ first name, agents.head? = some first → givenName first = .str name →
    agents.length = 1 ∨ ∀ agent ∈ agents, ¬Refers extractorGet agent name

/-! ## The table of the runtime -/

/-- An agent in the map of the runtime, by its name. -/
def specEntry (agent : PyStr × Json) : Json × Json := (.str agent.1, agent.2)

section Registering

variable {extractorGet : ExtractorGet}

/-- The name of an agent is the one it is given, unless there is another under `function`. -/
theorem getNameFromSpec_eq_given {members : List (PyStr × Json)} {name : PyStr}
    (hname : givenName (.obj members) = .str name) :
    AgentNetwork.getNameFromSpec extractorGet (.obj members) = .ok (.str name) ↔
      extractorGet (.obj members) (str "function.name") .null = .ok .null ∨
        extractorGet (.obj members) (str "function.name") .null = .ok (.str name) := by
  unfold AgentNetwork.getNameFromSpec
  constructor
  · intro h
    split at h
    · cases h
    · rename_i hnull
      exact .inl hnull
    · rename_i other hother
      obtain rfl := Except.ok.inj h
      exact .inr hother
  · rintro (hnull | hsame)
    · rw [hnull]
      exact congrArg Except.ok hname
    · rw [hsame]

theorem sameKey_str (name other : PyStr) :
    AgentNetwork.sameKey (.str name) (.str other) = decide (name = other) := rfl

/-- Agents with names of their own are registered one after the other. -/
theorem foldlM_register {before agents : List (PyStr × Json)}
    (hnames : ∀ agent ∈ agents, agent.2 ≠ .null ∧
      AgentNetwork.getNameFromSpec extractorGet agent.2 = .ok (.str agent.1))
    (hnodup : ((before ++ agents).map Prod.fst).Nodup) :
    (agents.map Prod.snd).foldlM (AgentNetwork.register extractorGet) (before.map specEntry) =
      .ok ((before ++ agents).map specEntry) := by
  induction agents generalizing before with
  | nil => simp [pure, Except.pure]
  | cons agent rest ih =>
      rw [List.forall_mem_cons] at hnames
      obtain ⟨⟨hne, hname⟩, hrest⟩ := hnames
      rw [List.append_cons] at hnodup ⊢
      have hnew : (before.map specEntry).any
          (fun entry => AgentNetwork.sameKey entry.1 (.str agent.1)) = false := by
        rw [List.any_map, List.any_eq_false]
        intro other hother hsame
        rw [List.append_assoc, List.map_append] at hnodup
        have hdisjoint := (List.nodup_append.mp hnodup).2.2 other.1 (List.mem_map_of_mem hother)
          agent.1 (by simp)
        exact hdisjoint (of_decide_eq_true hsame)
      have hregister : AgentNetwork.register extractorGet (before.map specEntry) agent.2 =
          .ok ((before ++ [agent]).map specEntry) := by
        unfold AgentNetwork.register
        split
        · rename_i hnull
          exact absurd hnull hne
        · rw [hname]
          dsimp only
          rw [if_neg (by rw [hnew]; exact Bool.false_ne_true), List.map_append]
          rfl
      rw [List.map_cons, List.foldlM_cons, hregister]
      exact ih hrest hnodup

/-- What registering an agent adds. -/
theorem of_register {agentSpecMap map : List (Json × Json)} {agentSpec : Json}
    (hne : agentSpec ≠ .null)
    (h : AgentNetwork.register extractorGet agentSpecMap agentSpec = .ok map) :
    ∃ key, AgentNetwork.getNameFromSpec extractorGet agentSpec = .ok key ∧
      map = agentSpecMap ++ [(key, agentSpec)] ∧
      ∀ entry ∈ agentSpecMap, AgentNetwork.sameKey entry.1 key = false := by
  unfold AgentNetwork.register at h
  split at h
  · exact absurd rfl hne
  · split at h
    · cases h
    · cases h
    · cases h
    · rename_i key _ _ hkey
      split at h
      · cases h
      · rename_i hnew
        refine ⟨key, hkey, (Except.ok.inj h).symm, fun entry hentry => ?_⟩
        cases hsame : AgentNetwork.sameKey entry.1 key with
        | false => rfl
        | true => exact absurd (List.any_eq_true.mpr ⟨entry, hentry, hsame⟩) hnew

/-- Agents that are registered are, each under its name, and no two under one. -/
theorem of_foldlM_register {agents : List Json} {before map : List (Json × Json)}
    (hne : ∀ agent ∈ agents, agent ≠ .null)
    (hbefore : before.Pairwise fun entry other => AgentNetwork.sameKey entry.1 other.1 = false)
    (h : agents.foldlM (AgentNetwork.register extractorGet) before = .ok map) :
    ∃ added, map = before ++ added ∧ added.map Prod.snd = agents ∧
      (∀ entry ∈ added, AgentNetwork.getNameFromSpec extractorGet entry.2 = .ok entry.1) ∧
      map.Pairwise fun entry other => AgentNetwork.sameKey entry.1 other.1 = false := by
  induction agents generalizing before with
  | nil =>
      obtain rfl : before = map := Except.ok.inj h
      exact ⟨[], (List.append_nil before).symm, rfl, fun _ hentry => absurd hentry List.not_mem_nil,
        hbefore⟩
  | cons agent rest ih =>
      rw [List.forall_mem_cons] at hne
      rw [List.foldlM_cons] at h
      cases hregister : AgentNetwork.register extractorGet before agent with
      | error e => simp [hregister, bind, Except.bind] at h
      | ok between =>
          rw [hregister] at h
          obtain ⟨key, hkey, rfl, hnew⟩ := of_register hne.1 hregister
          have hbetween : (before ++ [(key, agent)]).Pairwise
              fun entry other => AgentNetwork.sameKey entry.1 other.1 = false := by
            refine List.pairwise_append.mpr ⟨hbefore, List.pairwise_singleton _ _, ?_⟩
            intro entry hentry other hother
            rw [List.mem_singleton.mp hother]
            exact hnew entry hentry
          obtain ⟨added, rfl, rfl, hnames, hpairs⟩ := ih hne.2 hbetween h
          refine ⟨(key, agent) :: added, List.append_assoc _ _ _, rfl, ?_, hpairs⟩
          rw [List.forall_mem_cons]
          exact ⟨hkey, hnames⟩

end Registering

/-! ## The table of the validator -/

section Tables

variable {extractorGet : ExtractorGet} {agents : List (PyStr × Json)} {network : AgentNetwork}

theorem items_table (hnodup : (agents.map Prod.fst).Nodup) :
    (Dict.empty.update (agents.map entryOf)).items = agents.map entryOf := by
  have hkeys : ((agents.map entryOf).map Prod.fst).Nodup := by
    have htexts := hnodup.map (f := Key.text) fun _ _ h => Key.text.inj h
    rw [List.map_map] at htexts ⊢
    exact htexts
  exact Dict.items_update_of_nodup hkeys

/-- The two tables have the same agent under a name. -/
theorem getAgentToolSpec_eq_get? (hnodup : (agents.map Prod.fst).Nodup)
    (hmap : network.agentSpecMap = agents.map specEntry) (name : PyStr) :
    network.getAgentToolSpec (.str name) =
      (Dict.empty.update (agents.map entryOf)).get? (.text name) := by
  unfold AgentNetwork.getAgentToolSpec Dict.get?
  dsimp only
  rw [hmap, items_table hnodup, List.find?_map, List.find?_map, Option.map_map, Option.map_map]
  have hsame : ((fun entry => AgentNetwork.sameKey entry.1 (.str name)) ∘ specEntry) =
      (fun entry : Key × Json => decide (entry.1 = .text name)) ∘ entryOf := by
    funext agent
    exact decide_eq_decide.mpr ⟨congrArg Key.text, Key.text.inj⟩
  rw [hsame]
  rfl

/-- What the search of the validator follows is a reference in the network. -/
theorem refersTo_of_edge (hnodup : (agents.map Prod.fst).Nodup)
    (hmap : network.agentSpecMap = agents.map specEntry) {name : PyStr} {key : Key}
    (h : Traversal.Edge (lookAt extractorGet (Dict.empty.update (agents.map entryOf))) (.text name)
      key) : ∃ other, key = .text other ∧ RefersTo extractorGet network name other := by
  obtain ⟨agentSpec, downChains, hspec, hdown, hmem⟩ := edge_lookAt_iff.mp h
  obtain ⟨other, hother, rfl⟩ := List.mem_map.mp hmem
  refine ⟨other, rfl, agentSpec, ?_, ((mem_getAgentDownChains hdown other).mp hother).1⟩
  rw [getAgentToolSpec_eq_get? hnodup hmap]
  exact hspec

/-- What the search of the validator reaches is in reach in the network. -/
theorem exists_of_reach (hnodup : (agents.map Prod.fst).Nodup)
    (hmap : network.agentSpecMap = agents.map specEntry) {name : PyStr} {key : Key}
    (h : Traversal.Reach (lookAt extractorGet (Dict.empty.update (agents.map entryOf))) (.text name)
      key) :
    ∃ other, key = .text other ∧
      Relation.ReflTransGen (RefersTo extractorGet network) name other := by
  induction h with
  | refl => exact ⟨name, rfl, Relation.ReflTransGen.refl⟩
  | tail _ hedge ih =>
      obtain ⟨between, rfl, hreach⟩ := ih
      obtain ⟨other, rfl, hrefers⟩ := refersTo_of_edge hnodup hmap hedge
      exact ⟨other, rfl, hreach.tail hrefers⟩

/-- The front man of the runtime is the agent that is listed first. -/
theorem findFrontMan_eq {first : PyStr × Json} {rest : List (PyStr × Json)}
    {members : List (PyStr × Json)} (hfirst : first.2 = .obj members)
    (hmap : network.agentSpecMap = (first :: rest).map specEntry) :
    network.findFrontMan =
      if AgentNetwork.isGiven members (str "class") || AgentNetwork.isGiven members (str "toolbox")
      then .error .valueError else .ok (.str first.1) := by
  have hspec : network.getAgentToolSpec (.str first.1) = some (.obj members) := by
    unfold AgentNetwork.getAgentToolSpec
    dsimp only
    rw [hmap, List.map_cons, List.find?_cons_of_pos (by simp [specEntry, sameKey_str]),
      Option.map_some, specEntry, hfirst]
  unfold AgentNetwork.findFrontMan
  rw [hmap, List.map_cons]
  dsimp only [specEntry]
  rw [hspec]

end Tables

/-! ## The front man -/

section FrontMan

variable {libraries : Libraries} {urls : List PyStr} {first : PyStr × Json}
  {rest : List (PyStr × Json)} {frontMan : Key}

/-- The front man of the validator is the first agent if that is the only one, or no agent
refers to it. -/
theorem isFrontMan_of_unreferred (hnodup : ((first :: rest).map Prod.fst).Nodup)
    (haccepted : Accepted libraries urls (Dict.empty.update ((first :: rest).map entryOf)))
    (h : rest = [] ∨ ∀ agent ∈ first :: rest, ¬Refers libraries.extractorGet agent.2 first.1) :
    findAllFrontManAgents libraries.extractorGet
      (Dict.empty.update ((first :: rest).map entryOf)) = .ok [.text first.1] := by
  obtain ⟨frontMan, hfrontMan, hunreachable⟩ := haccepted.frontMan
  have hitems := items_table hnodup
  obtain ⟨hmem, -⟩ := of_findAllFrontManAgents hfrontMan
  suffices hsame : frontMan = .text first.1 by rw [← hsame]; exact hfrontMan
  rcases h with rfl | hunreferred
  · rw [Dict.mem_iff_keys, Dict.keys, hitems] at hmem
    exact List.mem_singleton.mp hmem
  · have hfirst : Key.text first.1 ∈ Dict.empty.update ((first :: rest).map entryOf) := by
      rw [Dict.mem_iff_keys, Dict.keys, hitems]
      exact List.mem_cons_self
    rcases Relation.ReflTransGen.cases_tail (reach_of_findUnreachableAgents hunreachable hfirst)
      with hsame | ⟨between, -, hedge⟩
    · exact hsame.symm
    · -- what leads to the first agent would refer to it
      obtain ⟨agentSpec, downChains, hspec, hdown, hin⟩ := edge_lookAt_iff.mp hedge
      rw [Dict.get?_eq_some_iff, hitems] at hspec
      obtain ⟨agent, hagent, heq⟩ := List.mem_map.mp hspec
      obtain ⟨-, rfl⟩ := Prod.mk.inj heq
      obtain ⟨other, hother, hsame⟩ := List.mem_map.mp hin
      obtain rfl := Key.text.inj hsame
      exact absurd ((mem_getAgentDownChains hdown _).mp hother).1 (hunreferred agent hagent)

/-- If the first agent is the front man of the validator, it is the only one or no agent refers
to it. -/
theorem unreferred_of_isFrontMan (hnodup : ((first :: rest).map Prod.fst).Nodup)
    (haccepted : Accepted libraries urls (Dict.empty.update ((first :: rest).map entryOf)))
    (h : findAllFrontManAgents libraries.extractorGet
      (Dict.empty.update ((first :: rest).map entryOf)) = .ok [.text first.1]) :
    rest = [] ∨ ∀ agent ∈ first :: rest, ¬Refers libraries.extractorGet agent.2 first.1 := by
  have hitems := items_table hnodup
  obtain ⟨-, hone | hnone⟩ := of_findAllFrontManAgents h
  · left
    rw [hitems, List.length_map, List.length_cons] at hone
    exact List.length_eq_zero_iff.mp (by omega)
  · right
    intro agent hagent hrefers
    rw [hitems] at hnone
    obtain ⟨chains, hchains, -⟩ := exists_of_map_eq_ok h
    rw [hitems] at hchains
    have hmem : entryOf agent ∈ (first :: rest).map entryOf := List.mem_map_of_mem hagent
    obtain ⟨entry, hentry⟩ := (exists_mapM_ok_iff _ _).mp ⟨chains, hchains⟩ _ hmem
    obtain ⟨downChains, hdown, -⟩ := exists_of_map_eq_ok hentry
    have hname : ToolNameNetworkValidator.matchesPattern first.1 = true := by
      have hfirst : entryOf first ∈ (Dict.empty.update ((first :: rest).map entryOf)).items := by
        rw [hitems]
        exact List.mem_cons_self
      obtain ⟨name, members, specName, heq, hmatches, -⟩ := haccepted.named _ hfirst
      obtain ⟨hsame, -⟩ := Prod.mk.inj heq
      rw [Key.text.inj hsame]
      exact hmatches
    have hin := (mem_getAgentDownChains hdown first.1).mpr
      ⟨hrefers, ToolNameNetworkValidator.isUrlOrPath_of_matchesPattern hname⟩
    exact hnone _ hmem downChains hdown (List.mem_map_of_mem hin)

end FrontMan

/-! ## Agreement -/

section Agreement

variable {libraries : Libraries} {urls : List PyStr} {config : List (PyStr × Json)} {name : PyStr}
  {first : PyStr × Json} {rest : List (PyStr × Json)}

/-- A network is what its agents are registered to. -/
theorem new_eq_ok_iff {extractorGet : ExtractorGet} {specs : List Json} {network : AgentNetwork}
    (htools : Json.lookup config (str "tools") = some (.arr specs)) :
    AgentNetwork.new extractorGet config name = .ok network ↔
      ∃ map, specs.foldlM (AgentNetwork.register extractorGet) [] = .ok map ∧
        network = ⟨config, name, map⟩ := by
  unfold AgentNetwork.new
  rw [htools]
  dsimp only [Json.iterate]
  constructor
  · intro h
    obtain ⟨map, hmap, rfl⟩ := exists_of_map_eq_ok h
    exact ⟨map, hmap, rfl⟩
  · rintro ⟨map, hmap, rfl⟩
    rw [hmap]
    rfl

/-- The agents with the names that they are given. -/
theorem map_givenName {agents : List (PyStr × Json)}
    (hgiven : ∀ agent ∈ agents, givenName agent.2 = .str agent.1) :
    (agents.map Prod.snd).map (fun agent => (givenName agent, agent)) = agents.map specEntry ∧
      (agents.map Prod.snd).map givenName = (agents.map Prod.fst).map Json.str := by
  rw [List.map_map, List.map_map, List.map_map]
  constructor
  · apply List.map_congr_left
    intro agent hagent
    exact Prod.ext (hgiven agent hagent) rfl
  · apply List.map_congr_left
    intro agent hagent
    exact hgiven agent hagent

theorem nodup_map_str (names : List PyStr) : (names.map Json.str).Nodup ↔ names.Nodup :=
  List.nodup_map_iff fun _ _ h => Json.str.inj h

/-- Agents that are consistent become a network that agrees. -/
theorem agrees_of_consistent
    (htools : Json.lookup config (str "tools") = some (.arr ((first :: rest).map Prod.snd)))
    (hgiven : ∀ agent ∈ first :: rest, (∃ members, agent.2 = .obj members) ∧
      givenName agent.2 = .str agent.1)
    (htable : getNameToSpec config = .ok (Dict.empty.update ((first :: rest).map entryOf)))
    (haccepted : Accepted libraries urls (Dict.empty.update ((first :: rest).map entryOf)))
    (h : Consistent libraries.extractorGet ((first :: rest).map Prod.snd)) :
    Agrees libraries.extractorGet config name := by
  obtain ⟨hnames, hdistinct⟩ := map_givenName fun agent hagent => (hgiven agent hagent).2
  have hnodup : ((first :: rest).map Prod.fst).Nodup := by
    rw [← nodup_map_str, ← hdistinct]
    exact h.distinct
  have hregistered := @foldlM_register libraries.extractorGet [] (first :: rest) (by
    intro agent hagent
    obtain ⟨⟨members, hmembers⟩, hname⟩ := hgiven agent hagent
    have hfunction := h.functionNames agent.2 (List.mem_map_of_mem hagent)
    rw [hname] at hfunction
    rw [hmembers] at hname hfunction ⊢
    exact ⟨Json.noConfusion, (getNameFromSpec_eq_given hname).mpr hfunction⟩) hnodup
  obtain ⟨⟨members, hmembers⟩, hname⟩ := hgiven first List.mem_cons_self
  have hfrontMan := isFrontMan_of_unreferred hnodup haccepted (by
    rcases h.unreferred first.2 first.1 rfl hname with hone | hnone
    · left
      rw [List.map_cons, List.length_cons, List.length_map] at hone
      exact List.length_eq_zero_iff.mp (by omega)
    · exact .inr fun agent hagent => hnone agent.2 (List.mem_map_of_mem hagent))
  obtain ⟨hclass, htoolbox⟩ := h.notCoded members (congrArg some hmembers)
  have hfind := @findFrontMan_eq ⟨config, name, (first :: rest).map specEntry⟩ first rest members
    hmembers rfl
  rw [hclass, htoolbox] at hfind
  refine ⟨_, _, ⟨config, name, (first :: rest).map specEntry⟩, first.1, htools, htable,
    (new_eq_ok_iff htools).mpr ⟨_, hregistered, rfl⟩, hnames.symm, hfrontMan, hfind, ?_⟩
  intro entry hentry
  obtain ⟨agent, hagent, rfl⟩ := List.mem_map.mp hentry
  refine ⟨agent.1, rfl, ?_⟩
  obtain ⟨frontMan, hfound, hunreachable⟩ := haccepted.frontMan
  obtain rfl := List.singleton_inj.mp (Except.ok.inj (hfrontMan.symm.trans hfound))
  have hmem : Key.text agent.1 ∈ Dict.empty.update ((first :: rest).map entryOf) := by
    rw [Dict.mem_iff_keys, Dict.keys, items_table hnodup, List.map_map]
    exact List.mem_map_of_mem (f := Prod.fst ∘ entryOf) hagent
  obtain ⟨other, hother, hreach⟩ := @exists_of_reach libraries.extractorGet (first :: rest)
    ⟨config, name, (first :: rest).map specEntry⟩ hnodup rfl _ _
    (reach_of_findUnreachableAgents hunreachable hmem)
  rw [Key.text.inj hother]
  exact hreach

/-- Agents that become a network that agrees are consistent. -/
theorem consistent_of_agrees
    (htools : Json.lookup config (str "tools") = some (.arr ((first :: rest).map Prod.snd)))
    (hgiven : ∀ agent ∈ first :: rest, (∃ members, agent.2 = .obj members) ∧
      givenName agent.2 = .str agent.1)
    (htable : getNameToSpec config = .ok (Dict.empty.update ((first :: rest).map entryOf)))
    (haccepted : Accepted libraries urls (Dict.empty.update ((first :: rest).map entryOf)))
    (h : Agrees libraries.extractorGet config name) :
    Consistent libraries.extractorGet ((first :: rest).map Prod.snd) := by
  obtain ⟨hnames, hdistinct⟩ := map_givenName fun agent hagent => (hgiven agent hagent).2
  obtain ⟨specs, nameToSpec, network, frontMan, htools', htable', hnew, hmap, hall, hfind, -⟩ := h
  obtain rfl := Json.arr.inj (Option.some.inj (htools.symm.trans htools'))
  obtain rfl := Except.ok.inj (htable.symm.trans htable')
  obtain ⟨map, hregistered, rfl⟩ := (new_eq_ok_iff htools).mp hnew
  replace hmap : map = (first :: rest).map specEntry := hmap.trans hnames
  obtain ⟨added, hadded, -, hregisteredNames, hpairs⟩ := of_foldlM_register (by
    intro spec hspec
    obtain ⟨agent, hagent, rfl⟩ := List.mem_map.mp hspec
    obtain ⟨⟨members, hmembers⟩, -⟩ := hgiven agent hagent
    rw [hmembers]
    exact Json.noConfusion) List.Pairwise.nil hregistered
  rw [List.nil_append] at hadded
  subst hadded
  subst hmap
  -- a name that comes twice is not registered
  have hnodup : ((first :: rest).map Prod.fst).Nodup := by
    rw [List.pairwise_map] at hpairs
    rw [List.Nodup, List.pairwise_map]
    exact hpairs.imp fun hne hsame => of_decide_eq_false hne hsame
  obtain ⟨⟨members, hmembers⟩, hname⟩ := hgiven first List.mem_cons_self
  rw [@findFrontMan_eq ⟨config, name, (first :: rest).map specEntry⟩ first rest members hmembers
    rfl]
    at hfind
  split at hfind
  case isTrue => cases hfind
  case isFalse hnotCoded =>
      obtain rfl := Json.str.inj (Except.ok.inj hfind)
      rw [Bool.or_eq_true, not_or, Bool.not_eq_true, Bool.not_eq_true] at hnotCoded
      refine ⟨?_, ?_, ?_, ?_⟩
      · rw [hdistinct, nodup_map_str]
        exact hnodup
      · intro spec hspec
        obtain ⟨agent, hagent, rfl⟩ := List.mem_map.mp hspec
        obtain ⟨⟨members', hmembers'⟩, hname'⟩ := hgiven agent hagent
        have hregisteredName := hregisteredNames (specEntry agent) (List.mem_map_of_mem hagent)
        unfold specEntry at hregisteredName
        dsimp only at hregisteredName
        rw [hname']
        rw [hmembers'] at hname' hregisteredName ⊢
        exact (getNameFromSpec_eq_given hname').mp hregisteredName
      · intro others hothers
        have hsame : Json.obj members = .obj others := hmembers.symm.trans (Option.some.inj hothers)
        obtain rfl := Json.obj.inj hsame
        exact hnotCoded
      · intro spec other hspec hother
        obtain rfl : first.2 = spec := Option.some.inj hspec
        obtain rfl := Json.str.inj (hname.symm.trans hother)
        -- the front man is the only agent, or nobody refers to it
        rcases unreferred_of_isFrontMan hnodup haccepted hall with rfl | hnone
        · exact .inl rfl
        · right
          intro spec hspec
          obtain ⟨agent, hagent, rfl⟩ := List.mem_map.mp hspec
          exact hnone agent hagent

end Agreement

/-- **Agreement.** Of the configurations that are accepted, the runtime makes what the validator
has seen exactly of those with a list of consistent agents. -/
theorem agrees_iff (libraries : Libraries) (externalNetworkNames mcpServers : List PyStr)
    (config : List (PyStr × Json)) (name : PyStr)
    (h : Accepts libraries externalNetworkNames mcpServers config) :
    Agrees libraries.extractorGet config name ↔
      ∃ agents, Json.lookup config (str "tools") = some (.arr agents) ∧
        Consistent libraries.extractorGet agents := by
  obtain ⟨nameToSpec, htable, haccepted⟩ := accepted_of_accepts h
  constructor
  · intro hagrees
    obtain ⟨specs, -, -, -, htools, -⟩ := id hagrees
    obtain ⟨agents, hspecs, hne, hgiven, rfl⟩ := exists_agents htable haccepted htools
    obtain rfl := Json.arr.inj hspecs
    obtain ⟨first, rest, rfl⟩ := List.exists_cons_of_ne_nil hne
    exact ⟨_, htools, consistent_of_agrees htools hgiven htable haccepted hagrees⟩
  · rintro ⟨specs, htools, hconsistent⟩
    obtain ⟨agents, hspecs, hne, hgiven, rfl⟩ := exists_agents htable haccepted htools
    obtain rfl := Json.arr.inj hspecs
    obtain ⟨first, rest, rfl⟩ := List.exists_cons_of_ne_nil hne
    exact agrees_of_consistent htools hgiven htable haccepted hconsistent

/-- Libraries that do what they are documented to do, for descriptions without defaults. -/
def plainLibraries : Libraries where
  extractorGet := dictionaryGet
  overlay := fun basis other => basis ++ other
  strOf := fun _ => .ok []
  texts := ⟨fun _ => [], fun s => s⟩
  hasBaseModelAttribute := fun _ => false
  composite := fun validators candidate =>
    (validators.mapM fun validator : Validator => validator candidate).map List.flatten
  composite_eq := fun _ _ => rfl

/-- A front man and a helper. -/
def frontAndHelper : List (PyStr × Json) :=
  [(str "tools", .arr [
    .obj [(str "name", .str (str "front")), (str "tools", .arr [.str (str "helper")])],
    .obj [(str "name", .str (str "helper"))]])]

theorem agrees_frontAndHelper : Agrees dictionaryGet frontAndHelper (str "demo") := by
  refine (agrees_iff plainLibraries [] [] frontAndHelper (str "demo") rfl).mpr
    ⟨_, rfl, ?_, ?_, ?_, ?_⟩
  · have hne : str "front" ≠ str "helper" := by decide
    simpa [givenName, Json.lookup] using hne
  · intro agent hagent
    rcases List.mem_cons.mp hagent with rfl | hagent
    · exact .inl rfl
    · rw [List.mem_singleton.mp hagent]
      exact .inl rfl
  · intro members hmembers
    obtain rfl := Json.obj.inj (Option.some.inj hmembers)
    exact ⟨rfl, rfl⟩
  · intro first name hfirst hname
    obtain rfl := Option.some.inj hfirst
    obtain rfl := Json.str.inj hname
    right
    intro agent hagent hrefers
    rcases List.mem_cons.mp hagent with rfl | hagent
    · rw [refers_iff rfl rfl] at hrefers
      have hsame := Json.str.inj (List.mem_singleton.mp hrefers)
      exact absurd hsame (by decide)
    · rw [List.mem_singleton.mp hagent, refers_iff rfl rfl] at hrefers
      exact List.not_mem_nil hrefers

/-- An agent that is listed twice. -/
def listedTwice : List (PyStr × Json) :=
  [(str "tools", .arr [.obj [(str "name", .str (str "front"))],
    .obj [(str "name", .str (str "front"))]])]

/-- What is accepted may be no network at all. -/
theorem listedTwice_raises :
    ¬ ∀ (libraries : Libraries) (externalNetworkNames mcpServers : List PyStr)
      (config : List (PyStr × Json)) (name : PyStr),
      Accepts libraries externalNetworkNames mcpServers config →
      Agrees libraries.extractorGet config name := by
  intro h
  obtain ⟨agents, nameToSpec, network, frontMan, -, -, hnew, -⟩ :=
    h plainLibraries [] [] listedTwice (str "demo") rfl
  cases hnew

end NoraFleet.Validation
