import Mathlib
import NoraFleet.Validation.ManifestValidator

/-!
# Agents that the validators can look at

Every validator makes the table of the agents by their names, and goes through it. What it finds
there it takes for a dictionary under a text.

* `getNameToSpec_eq`, `validate_eq` — the table, and the validators on it;
* `ToolNameNetworkValidator.exists_errorsOf_iff` — the validator that asks most of an agent;
* `UnreachableNodesNetworkValidator.exists_errorsOf` — the one that goes along the references.
-/

namespace NoraFleet.Validation

open Base Networks AbstractNetworkValidator

/-! ## The table of agents -/

/-- The agents of a configuration as they are listed, by their names. -/
def listedAgents (config : List (PyStr × Json)) : Except PyError (List (Key × Json)) :=
  match Json.lookup config (str "tools") with
  | none => .ok (config.map fun member => (.text member.1, member.2))
  | some agents =>
      match agents.iterate with
      | none => .error .typeError
      | some agents => agents.mapM named

/-- What is listed, by its names: a later entry takes the place of an earlier one. -/
def tableOf {α : Type} (entries : List (Key × α)) : Dict Key α := Dict.empty.update entries

theorem getNameToSpec_eq (config : List (PyStr × Json)) :
    getNameToSpec config = (listedAgents config).map tableOf := by
  unfold getNameToSpec listedAgents
  cases Json.lookup config (str "tools") with
  | none => rfl
  | some agents =>
      dsimp only
      cases agents.iterate with
      | none => rfl
      | some agents => exact foldlM_addAgent agents .empty

section Validating

variable {config : List (PyStr × Json)}
    {validateDict : NameToSpec → Except PyError (List NetworkError)}

/-- A validator looks at the table of the agents. -/
theorem validate_eq (hconfig : config ≠ []) {entries : List (Key × Json)}
    (hentries : listedAgents config = .ok entries) :
    validate validateDict (.obj config) = validateDict (tableOf entries) := by
  unfold validate
  rw [if_pos (Json.truthy_obj hconfig)]
  dsimp only
  rw [getNameToSpec_eq, hentries]
  rfl

/-- A validator that returns has made the table. -/
theorem exists_listed_of_validate (hconfig : config ≠ []) {errors : List NetworkError}
    (h : validate validateDict (.obj config) = .ok errors) :
    ∃ entries, listedAgents config = .ok entries := by
  unfold validate at h
  rw [if_pos (Json.truthy_obj hconfig)] at h
  dsimp only at h
  rw [getNameToSpec_eq] at h
  cases hentries : listedAgents config with
  | error e =>
      rw [hentries] at h
      cases h
  | ok entries => exact ⟨entries, rfl⟩

end Validating

/-! ## What the validators can look at -/

/-- An agent that the validators can look at: a dictionary under a text, which has a text for its
name if the other is one for a tool. -/
def Legible (agent : Key × Json) : Prop :=
  ∃ name members, agent = (.text name, .obj members) ∧
    (ToolNameNetworkValidator.matchesPattern name = true →
      ∃ specName, Json.lookup members (str "name") = some (.str specName))

theorem Legible.obj {agent : Key × Json} (h : Legible agent) :
    ∃ members, agent.2 = .obj members := by
  obtain ⟨name, members, rfl, -⟩ := h
  exact ⟨members, rfl⟩

namespace ToolNameNetworkValidator

/-- The pattern is matched against the name of an agent if the agent can be looked at. -/
theorem exists_errorsOf_iff (agent : Key × Json) :
    (∃ errors, errorsOf agent.1 agent.2 = .ok errors) ↔ Legible agent := by
  obtain ⟨agentName, spec⟩ := agent
  unfold errorsOf Legible
  constructor
  · rintro ⟨errors, h⟩
    cases spec with
    | obj members =>
        cases agentName with
        | text name =>
            refine ⟨name, members, rfl, fun hmatches => ?_⟩
            dsimp only [asDict] at h
            rw [if_pos hmatches] at h
            split at h
            · rename_i specName hspec
              exact ⟨specName, hspec⟩
            · cases h
        | none => cases h
        | number place => cases h
        | nan => cases h
    | null => cases h
    | bool b => cases h
    | int n => cases h
    | float x => cases h
    | str s => cases h
    | arr items => cases h
  · rintro ⟨name, members, heq, hname⟩
    obtain ⟨rfl, rfl⟩ := Prod.mk.inj heq
    dsimp only [asDict]
    split
    · rename_i hmatches
      obtain ⟨specName, hspec⟩ := hname hmatches
      rw [hspec]
      exact ⟨_, rfl⟩
    · exact ⟨_, rfl⟩

end ToolNameNetworkValidator

namespace UnreachableNodesNetworkValidator

theorem exists_insertName (name : PyStr) (names : List PyStr) : ∃ inserted : List PyStr,
    insertName (.text name) (names.map .text) = .ok (inserted.map .text) := by
  induction names with
  | nil => exact ⟨[name], rfl⟩
  | cons other rest ih =>
      obtain ⟨inserted, hinserted⟩ := ih
      rw [List.map_cons, insertName, isLess]
      cases hless : decide (name < other) with
      | true => exact ⟨name :: other :: rest, by simp⟩
      | false => exact ⟨other :: inserted, by simp [hinserted, Except.map]⟩

/-- Texts can be sorted. -/
theorem exists_sorted (names : List PyStr) :
    ∃ others : List PyStr, sorted (names.map .text) = .ok (others.map .text) := by
  induction names with
  | nil => exact ⟨[], rfl⟩
  | cons name rest ih =>
      obtain ⟨others, hothers⟩ := ih
      rw [List.map_cons, sorted, hothers]
      exact exists_insertName name others

theorem exists_sorted_of_texts {names : List Key} (h : ∀ name ∈ names, ∃ s, name = .text s) :
    ∃ others, sorted names = .ok others := by
  choose! textOf htext using h
  have hmap : names = (names.map textOf).map Key.text := by
    rw [List.map_map]
    exact ((List.map_congr_left fun name hname => (htext name hname).symm).trans
      (List.map_id names)).symm
  rw [hmap]
  obtain ⟨others, hothers⟩ := exists_sorted (names.map textOf)
  exact ⟨_, hothers⟩

/-- Front men are agents. -/
theorem mem_of_mem_findAllFrontManAgents {extractorGet : ExtractorGet} {nameToSpec : NameToSpec}
    {frontMen : List Key} (h : findAllFrontManAgents extractorGet nameToSpec = .ok frontMen)
    {name : Key} (hname : name ∈ frontMen) : name ∈ nameToSpec := by
  obtain ⟨chains, hchains, rfl⟩ := exists_of_map_eq_ok h
  rw [Dict.mem_iff_keys, ← map_fst_downChains hchains]
  unfold frontMenOf at hname
  dsimp only at hname
  split at hname
  · rw [List.mem_singleton.mp hname]
    exact List.mem_singleton_self _
  · exact List.map_subset Prod.fst List.filter_sublist.subset (List.mem_of_mem_filter hname)

/-- The front men are looked for, and what cannot be reached is, in a table of dictionaries under
texts. -/
theorem exists_errorsOf {extractorGet : ExtractorGet}
    (hget : ∀ members path default, ∃ value, extractorGet (.obj members) path default = .ok value)
    {nameToSpec : NameToSpec} (hlegible : ∀ agent ∈ nameToSpec.items, Legible agent) :
    ∃ errors, errorsOf extractorGet nameToSpec = .ok errors := by
  have hreadable : ∀ agent ∈ nameToSpec.items, Readable extractorGet agent.2 := by
    intro agent hagent
    obtain ⟨members, hmembers⟩ := (hlegible agent hagent).obj
    rw [hmembers]
    exact readable_of_get hget members
  have htexts : ∀ name ∈ nameToSpec, ∃ s, name = Key.text s := by
    intro name hname
    obtain ⟨agent, hagent, rfl⟩ := List.mem_map.mp hname
    obtain ⟨s, members, rfl, -⟩ := hlegible agent hagent
    exact ⟨s, rfl⟩
  obtain ⟨frontMen, hfrontMen⟩ :
      ∃ frontMen, findAllFrontManAgents extractorGet nameToSpec = .ok frontMen := by
    unfold findAllFrontManAgents
    rw [exists_map_ok_iff, exists_mapM_ok_iff]
    intro agent hagent
    rw [exists_map_ok_iff]
    exact exists_getAgentDownChains (hreadable agent hagent)
  have hsorted := exists_sorted_of_texts fun name hname =>
    htexts name (mem_of_mem_findAllFrontManAgents hfrontMen hname)
  unfold errorsOf
  rw [hfrontMen]
  split
  · rename_i e herror
    cases herror
  · exact ⟨_, rfl⟩
  · rename_i frontMan hsingle
    obtain ⟨reachable, hreachable⟩ := exists_traverse_lookAt hreadable frontMan
    unfold findUnreachableAgents
    rw [hreachable]
    split
    · rename_i e herror
      cases herror
    · exact ⟨_, rfl⟩
    · rename_i agents _ hagents
      obtain rfl := Except.ok.inj hagents
      rw [exists_map_ok_iff]
      exact exists_sorted_of_texts fun name hname => htexts name (List.mem_of_mem_filter hname)
  · rename_i agents _ _ hagents
    obtain rfl := Except.ok.inj hagents
    rw [exists_map_ok_iff]
    exact hsorted

end UnreachableNodesNetworkValidator

end NoraFleet.Validation
