import Mathlib
import NoraFleet.Networks.ConfigFilters
import NoraFleet.Validation.Reachability

/-!
# The validator of manifests

`ManifestNetworkValidator` runs the validators of networks that a description has to pass when
it is read in. What it accepts it reports nothing of, so that each of its validators has
looked at every agent and reported nothing.

* `accepts_iff` — what is accepted, by the validators;
* `accepted_of_accepts` — what is known of the agents of a network that is accepted;
* `exists_agents` — what is known of the list that they come from.
-/

namespace NoraFleet.Validation

open Base Networks AbstractNetworkValidator

/-- What the validators use and is not part of the program. -/
structure Libraries where
  extractorGet : ExtractorGet
  overlay : Overlay
  strOf : StrOf
  texts : Texts
  hasBaseModelAttribute : PyStr → Bool
  /-- `CompositeDictionaryValidator(validators)`. -/
  composite : List Validator → Validator
  /-- It runs its validators in order, and reports what they report. -/
  composite_eq : ∀ (validators : List Validator) (candidate : Json),
    composite validators candidate =
      (validators.mapM fun validator : Validator => validator candidate).map List.flatten

variable (libraries : Libraries)

/-- The two phases of `ParametersSchemaNetworkValidator`. -/
def parametersPhases : List Validator :=
  [pydanticParametersNetworkValidator libraries.hasBaseModelAttribute,
    semanticParametersNetworkValidator]

/-- `ParametersSchemaNetworkValidator(network_name)`. -/
def parametersSchemaNetworkValidator : Validator := fun candidate =>
  if candidate.truthy then
    match NetworkConfigFilterChain.filterConfig libraries.extractorGet libraries.overlay
        libraries.strOf candidate with
    | .error e => .error e
    | .ok filtered => libraries.composite (parametersPhases libraries) filtered
  else libraries.composite (parametersPhases libraries) candidate

/-- The validators of a `ManifestNetworkValidator`. -/
def manifestValidators (externalNetworkNames mcpServers : List PyStr) : List Validator :=
  [toolsShapeValidator libraries.texts, keywordNetworkValidator libraries.texts,
    missingNodesNetworkValidator libraries.extractorGet,
    unreachableNodesNetworkValidator libraries.extractorGet, toolNameNetworkValidator,
    parametersSchemaNetworkValidator libraries,
    urlNetworkValidator libraries.extractorGet externalNetworkNames mcpServers]

/-- `ManifestNetworkValidator(external_network_names, mcp_servers, network_name)`. -/
def manifestNetworkValidator (externalNetworkNames mcpServers : List PyStr) : Validator :=
  libraries.composite (manifestValidators libraries externalNetworkNames mcpServers)

/-- A configuration is accepted without errors. -/
def Accepts (externalNetworkNames mcpServers : List PyStr) (config : List (PyStr × Json)) : Prop :=
  manifestNetworkValidator libraries externalNetworkNames mcpServers (.obj config) = .ok []

variable {libraries} {externalNetworkNames mcpServers : List PyStr} {config : List (PyStr × Json)}

/-- What is accepted, by the validators. -/
theorem accepts_iff :
    Accepts libraries externalNetworkNames mcpServers config ↔
      ∀ validator ∈ manifestValidators libraries externalNetworkNames mcpServers,
        validator (.obj config) = .ok [] := by
  unfold Accepts manifestNetworkValidator
  rw [libraries.composite_eq]
  exact flatten_mapM_eq_nil_iff _ _

/-- A validator reports nothing of a network if it reports nothing of its table. -/
theorem exists_of_validate_eq_nil {validateDict : NameToSpec → Except PyError (List NetworkError)}
    (h : validate validateDict (.obj config) = .ok []) :
    ∃ nameToSpec, getNameToSpec config = .ok nameToSpec ∧ validateDict nameToSpec = .ok [] := by
  unfold validate at h
  split at h
  · dsimp only at h
    cases htable : getNameToSpec config with
    | error e =>
        rw [htable] at h
        cases h
    | ok nameToSpec =>
        rw [htable] at h
        exact ⟨nameToSpec, rfl, h⟩
  · cases h

/-- `one_agent.get("name")`. -/
def givenName : Json → Json
  | .obj members => (Json.lookup members (str "name")).getD .null
  | _ => .null

/-- What the validators have found of the agents of a network. -/
structure Accepted (libraries : Libraries) (urls : List PyStr) (nameToSpec : NameToSpec) :
    Prop where
  named : ∀ agent ∈ nameToSpec.items, ∃ name members specName, agent = (.text name, .obj members) ∧
    ToolNameNetworkValidator.matchesPattern name = true ∧ givenName agent.2 = .str specName
  shaped : ∀ agent ∈ nameToSpec.items, ∀ members, agent.2 = .obj members →
    toolsShapeErrors libraries.texts agent.1 members = []
  missing : ∀ agent ∈ nameToSpec.items,
    MissingNodesNetworkValidator.missingTools libraries.extractorGet nameToSpec agent.2 = .ok []
  frontMan : ∃ frontMan,
    UnreachableNodesNetworkValidator.findAllFrontManAgents libraries.extractorGet nameToSpec =
      .ok [frontMan] ∧
    UnreachableNodesNetworkValidator.findUnreachableAgents libraries.extractorGet nameToSpec
      frontMan = .ok []
  recognized : ∀ agent ∈ nameToSpec.items, ∃ tools,
    coerceTools libraries.extractorGet agent.2 = .ok tools ∧
    ∀ tool ∈ removeDictionaryTools tools, UrlNetworkValidator.isUnrecognized urls tool = false

namespace ToolNameNetworkValidator

/-- An agent whose name passes. -/
theorem of_errorsOf_eq_nil {agentName : Key} {agent : Json}
    (h : errorsOf agentName agent = .ok []) :
    ∃ name members specName, (agentName, agent) = (Key.text name, .obj members) ∧
      matchesPattern name = true ∧ givenName agent = .str specName := by
  unfold errorsOf at h
  cases agent with
  | obj members =>
      dsimp only [asDict] at h
      cases agentName with
      | text name =>
          dsimp only at h
          split at h
          case isTrue hmatches =>
              split at h
              · rename_i specName hspec
                refine ⟨name, members, specName, rfl, hmatches, ?_⟩
                rw [givenName, hspec]
                rfl
              · cases h
          case isFalse => cases h
      | none => cases h
      | number place => cases h
      | nan => cases h
  | null => cases h
  | bool b => cases h
  | int n => cases h
  | float x => cases h
  | str s => cases h
  | arr items => cases h

end ToolNameNetworkValidator

namespace UnreachableNodesNetworkValidator

/-- There is one front man, and nothing that cannot be reached from it. -/
theorem of_errorsOf_eq_nil {extractorGet : ExtractorGet} {nameToSpec : NameToSpec}
    (h : errorsOf extractorGet nameToSpec = .ok []) :
    ∃ frontMan, findAllFrontManAgents extractorGet nameToSpec = .ok [frontMan] ∧
      findUnreachableAgents extractorGet nameToSpec frontMan = .ok [] := by
  unfold errorsOf at h
  split at h
  · cases h
  · cases h
  · rename_i frontMan hfrontMan
    refine ⟨frontMan, hfrontMan, ?_⟩
    split at h
    · cases h
    · assumption
    · obtain ⟨names, -, hnames⟩ := exists_of_map_eq_ok h
      cases hnames
  · obtain ⟨names, -, hnames⟩ := exists_of_map_eq_ok h
    cases hnames

end UnreachableNodesNetworkValidator

/-- What is known of the agents of a network that is accepted. -/
theorem accepted_of_accepts (h : Accepts libraries externalNetworkNames mcpServers config) :
    ∃ nameToSpec, getNameToSpec config = .ok nameToSpec ∧
      Accepted libraries (externalNetworkNames ++ mcpServers) nameToSpec := by
  have hall := accepts_iff.mp h
  simp only [manifestValidators, List.forall_mem_cons] at hall
  obtain ⟨hshape, -, hmissing, hunreachable, htoolName, -, hurl, -⟩ := hall
  obtain ⟨nameToSpec, htable, hnames⟩ := exists_of_validate_eq_nil htoolName
  have of_validate : ∀ {validateDict : NameToSpec → Except PyError (List NetworkError)},
      validate validateDict (.obj config) = .ok [] → validateDict nameToSpec = .ok [] := by
    intro validateDict hvalidate
    obtain ⟨other, hother, hnil⟩ := exists_of_validate_eq_nil hvalidate
    obtain rfl := Except.ok.inj (htable.symm.trans hother)
    exact hnil
  rw [collect_eq_nil_iff] at hnames
  refine ⟨nameToSpec, htable, ?_, ?_, ?_, ?_, ?_⟩
  · intro agent hagent
    exact ToolNameNetworkValidator.of_errorsOf_eq_nil (hnames agent hagent)
  · intro agent hagent members hmembers
    have hshapes := (collect_eq_nil_iff _ _).mp (of_validate hshape) agent hagent
    rw [hmembers] at hshapes
    exact Except.ok.inj hshapes
  · have hreported :
      collect (MissingNodesNetworkValidator.errorsOf libraries.extractorGet nameToSpec)
        nameToSpec = .ok [] :=
      @of_validate (fun table => collect (MissingNodesNetworkValidator.errorsOf
        libraries.extractorGet table) table) hmissing
    intro agent hagent
    have hnone := (collect_eq_nil_iff _ _).mp hreported agent hagent
    obtain ⟨missing, hmissing, hnil⟩ := exists_of_map_eq_ok hnone
    rw [hmissing]
    split at hnil
    case isTrue hempty => rw [hempty]
    case isFalse => cases hnil
  · exact UnreachableNodesNetworkValidator.of_errorsOf_eq_nil (of_validate hunreachable)
  · intro agent hagent
    have hurls := (collect_eq_nil_iff _ _).mp (of_validate hurl) agent hagent
    obtain ⟨tools, htools, hnil⟩ := exists_of_map_eq_ok hurls
    refine ⟨tools, htools, fun tool htool => ?_⟩
    rw [List.map_eq_nil_iff, List.filter_eq_nil_iff] at hnil
    simpa using hnil tool htool

/-! ## The list of agents -/

/-- An agent in the table, by its name. -/
def entryOf (agent : PyStr × Json) : Key × Json := (.text agent.1, agent.2)

theorem Accepted.items_ne_nil {urls : List PyStr} {nameToSpec : NameToSpec}
    (h : Accepted libraries urls nameToSpec) : nameToSpec.items ≠ [] := by
  intro hnil
  obtain ⟨frontMan, hfrontMan, -⟩ := h.frontMan
  unfold UnreachableNodesNetworkValidator.findAllFrontManAgents at hfrontMan
  rw [hnil] at hfrontMan
  cases hfrontMan

theorem named_eq_ok {agent : Json} {key : Key} {spec : Json} (h : named agent = .ok (key, spec)) :
    spec = agent ∧ (∃ members, agent = .obj members) ∧ Key.ofJson (givenName agent) = .ok key := by
  obtain ⟨name, hname, heq⟩ := exists_of_map_eq_ok h
  obtain ⟨rfl, rfl⟩ := Prod.mk.inj heq
  refine ⟨rfl, ?_⟩
  unfold nameOf at hname
  cases agent with
  | obj members => exact ⟨⟨members, rfl⟩, hname⟩
  | null => cases hname
  | bool b => cases hname
  | int n => cases hname
  | float x => cases hname
  | str s => cases hname
  | arr items => cases hname

/-- What is known of the list that the agents come from. -/
theorem exists_agents {urls : List PyStr} {nameToSpec : NameToSpec} {tools : Json}
    (htable : getNameToSpec config = .ok nameToSpec) (h : Accepted libraries urls nameToSpec)
    (htools : Json.lookup config (str "tools") = some tools) :
    ∃ agents : List (PyStr × Json), tools = .arr (agents.map Prod.snd) ∧ agents ≠ [] ∧
      (∀ agent ∈ agents, (∃ members, agent.2 = .obj members) ∧ givenName agent.2 = .str agent.1) ∧
      nameToSpec = Dict.empty.update (agents.map entryOf) := by
  unfold getNameToSpec at htable
  rw [htools] at htable
  dsimp only at htable
  cases hiterate : tools.iterate with
  | none =>
      rw [hiterate] at htable
      cases htable
  | some specs =>
      rw [hiterate] at htable
      dsimp only at htable
      rw [foldlM_addAgent] at htable
      obtain ⟨entries, hentries, rfl⟩ := exists_of_map_eq_ok htable
      -- every agent is in the table under a text
      have hspecs : ∀ spec ∈ specs, (∃ members, spec = .obj members) ∧
          ∃ name, givenName spec = .str name ∧ named spec = .ok (.text name, spec) := by
        intro spec hspec
        obtain ⟨entry, hentry⟩ := (exists_mapM_ok_iff named specs).mp ⟨entries, hentries⟩ spec hspec
        obtain ⟨key, other⟩ := entry
        obtain ⟨rfl, hobj, hkey⟩ := named_eq_ok hentry
        have hmem : key ∈ (Dict.empty : NameToSpec).update entries := by
          rw [Dict.mem_update]
          exact .inr (List.mem_map.mpr
            ⟨_, (mem_iff_of_mapM_eq_ok hentries _).mpr ⟨_, hspec, hentry⟩, rfl⟩)
        obtain ⟨held, hheld⟩ := Dict.exists_get?_of_mem hmem
        obtain ⟨name, members, specName, hagent, -, -⟩ :=
          h.named _ (Dict.get?_eq_some_iff.mp hheld)
        obtain ⟨rfl, -⟩ := Prod.mk.inj hagent
        exact ⟨hobj, name, Key.ofJson_eq_text hkey, hentry⟩
      choose! textOf htext using fun spec hspec => (hspecs spec hspec).2
      have hmap : entries = (specs.map fun spec => (textOf spec, spec)).map entryOf := by
        rw [List.map_map]
        exact Except.ok.inj (hentries.symm.trans (mapM_eq_ok_map fun spec hspec =>
          (htext spec hspec).2))
      refine ⟨specs.map fun spec => (textOf spec, spec), ?_, ?_, ?_, by rw [hmap]⟩
      · rw [List.map_map]
        show tools = .arr (specs.map id)
        rw [List.map_id]
        refine Json.eq_arr_of_iterate hiterate ?_ fun spec hspec => (hspecs spec hspec).1
        rintro rfl
        apply h.items_ne_nil
        rw [hmap]
        rfl
      · intro hnil
        apply h.items_ne_nil
        rw [hmap, hnil]
        rfl
      · intro agent hagent
        obtain ⟨spec, hspec, rfl⟩ := List.mem_map.mp hagent
        exact ⟨(hspecs spec hspec).1, (htext spec hspec).1⟩

end NoraFleet.Validation
