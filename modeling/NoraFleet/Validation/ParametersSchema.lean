import Mathlib
import NoraFleet.Validation.Faults

/-!
# The validator of parameters

`ParametersSchemaNetworkValidator` filters a configuration and runs its two phases over what comes
out. The filters keep the names of the agents, and the parameters that they have once the
definitions are put in.

* `exists_parametersSchema_iff` — when the validator returns;
* `exists_parametersOf_phases_iff` — what it reports.
-/

namespace NoraFleet.Validation

open Base Networks AbstractNetworkValidator AbstractCommonDefsConfigFilter

variable {libraries : Libraries} {externalNetworkNames mcpServers : List PyStr}
    {config : List (PyStr × Json)}

/-! ## The configuration that is filtered -/

/-- Agents that are listed are dictionaries. -/
theorem hasDictAgents_of_listed {entries : List (Key × Json)}
    (h : listedAgents config = .ok entries) : HasDictAgents config := by
  unfold listedAgents at h
  unfold HasDictAgents agentsOf
  cases htools : Json.lookup config (str "tools") with
  | none => exact .inl rfl
  | some tools =>
      rw [htools] at h
      dsimp only at h
      rw [Option.getD_some]
      right
      cases hitems : tools.iterate with
      | none =>
          rw [hitems] at h
          cases h
      | some items =>
          rw [hitems] at h
          have hdicts : ∀ item ∈ items, ∃ members, item = .obj members := by
            intro item hitem
            obtain ⟨⟨key, spec⟩, hnamed⟩ :=
              (exists_mapM_ok_iff named items).mp ⟨entries, h⟩ item hitem
            exact (named_eq_ok hnamed).2.1
          obtain ⟨agents, rfl⟩ := exists_map_obj hdicts
          exact ⟨agents, rfl⟩

/-- What is filtered is a dictionary, and lists the same names with the same parameters. -/
theorem of_resolve_listed {extractorGet : ExtractorGet} {overlay : Overlay} {strOf : StrOf}
    (hconfig : config ≠ []) (hdicts : HasDictAgents config) {filtered : Json}
    (h : resolve extractorGet overlay strOf config = .ok filtered) :
    ∃ resolved, filtered = .obj resolved ∧ resolved ≠ [] ∧
      (listedAgents resolved).map located = (listedAgents config).map located := by
  rcases hdicts with htools | ⟨agents, hagents⟩
  · rw [resolve_of_lookup_none htools] at h
    exact ⟨config, (Except.ok.inj h).symm, hconfig, rfl⟩
  · obtain ⟨resolved, newAgents, rfl, hne, hnew, hsame⟩ := of_resolve hagents h
    refine ⟨resolved, rfl, hne, ?_⟩
    rw [listed_of_agentsOf hagents, listed_of_agentsOf hnew]
    exact located_of_same hsame

/-! ## The two phases -/

/-- A configuration whose parameters can be looked through, by the names of its agents. -/
def HasParameters (P : Option Json → Prop) (config : List (PyStr × Json)) : Prop :=
  ∃ entries, listedAgents config = .ok entries ∧
    ∀ agent ∈ (tableOf (located entries)).items, P agent.2

theorem exists_phases_iff {resolved : List (PyStr × Json)} (hne : resolved ≠ []) :
    (∃ errors, libraries.composite (parametersPhases libraries) (.obj resolved) = .ok errors) ↔
      HasParameters CanCheck resolved := by
  rw [libraries.composite_eq, exists_map_ok_iff, exists_mapM_ok_iff]
  unfold parametersPhases HasParameters
  simp only [List.forall_mem_cons, List.not_mem_nil, false_implies, implies_true, and_true]
  have hsemantic : ∀ {entries : List (Key × Json)}, listedAgents resolved = .ok entries →
      ((∃ errors, semanticParametersNetworkValidator (.obj resolved) = .ok errors) ↔
        ∀ agent ∈ (tableOf (located entries)).items, CanCheck agent.2) := by
    intro entries hentries
    unfold semanticParametersNetworkValidator validateSemanticParameters
    rw [validate_eq hne hentries, exists_map_ok_iff, exists_map_ok_iff, exists_mapM_ok_iff]
    constructor
    · rintro h ⟨name, params⟩ hagent
      obtain ⟨spec, hspec, rfl⟩ := mem_tableOf_located.mp hagent
      have hchecked := h _ hspec
      rwa [exists_map_ok_iff, exists_semanticErrors_iff] at hchecked
    · rintro h ⟨name, spec⟩ hagent
      rw [exists_map_ok_iff, exists_semanticErrors_iff]
      exact h _ (mem_tableOf_located.mpr ⟨spec, hagent, rfl⟩)
  constructor
  · rintro ⟨⟨errors, hpydantic⟩, hsem⟩
    obtain ⟨entries, hentries⟩ := exists_listed_of_validate hne hpydantic
    exact ⟨entries, hentries, (hsemantic hentries).mp hsem⟩
  · rintro ⟨entries, hentries, hcan⟩
    refine ⟨?_, (hsemantic hentries).mpr hcan⟩
    unfold pydanticParametersNetworkValidator
    rw [validate_eq hne hentries]
    exact ⟨_, rfl⟩

theorem hasParameters_congr {P : Option Json → Prop} {resolved defined : List (PyStr × Json)}
    (h : (listedAgents resolved).map located = (listedAgents defined).map located) :
    HasParameters P resolved ↔ HasParameters P defined := by
  have hto : ∀ {first next : List (PyStr × Json)},
      (listedAgents first).map located = (listedAgents next).map located →
      HasParameters P first → HasParameters P next := by
    rintro first next hsame ⟨entries, hentries, hall⟩
    rw [hentries] at hsame
    obtain ⟨others, hothers, heq⟩ := exists_of_map_eq_ok hsame.symm
    refine ⟨others, hothers, ?_⟩
    rwa [heq]
  exact ⟨hto h, hto h.symm⟩

/-- The parameters can be validated if the filters return and the parameters can be looked
through. -/
theorem exists_parametersSchema_iff
    (hextracts : DefaultsConfigFilter.Extracts libraries.extractorGet) (hconfig : config ≠ [])
    (hdicts : HasDictAgents config) :
    (∃ errors, parametersSchemaNetworkValidator libraries (.obj config) = .ok errors) ↔
      Definable config ∧ ∀ defined, putDefinitions config = .ok (.obj defined) →
        CanResolve libraries.strOf defined ∧ HasParameters CanCheck defined := by
  rw [← exists_putDefinitions_iff hconfig]
  unfold parametersSchemaNetworkValidator
  rw [if_pos (Json.truthy_obj hconfig)]
  constructor
  · rintro ⟨errors, h⟩
    cases hfiltered : NetworkConfigFilterChain.filterConfig libraries.extractorGet
        libraries.overlay libraries.strOf (.obj config) with
    | error e =>
        rw [hfiltered] at h
        cases h
    | ok filtered =>
        rw [hfiltered] at h
        dsimp only at h
        have hbind := hfiltered
        rw [NetworkConfigFilterChain.filterConfig_eq_bind] at hbind
        obtain ⟨middle, hmiddle, -⟩ := exists_of_bind_ok hbind
        refine ⟨⟨middle, hmiddle⟩, fun defined hdefined => ?_⟩
        rw [NetworkConfigFilterChain.filterConfig_eq _ _ _ hdefined] at hfiltered
        obtain ⟨defined', heq, hne, hkept⟩ := of_putDefinitions hconfig hdefined
        obtain rfl := Json.obj.inj heq
        obtain ⟨resolved, rfl, hresolved, hsame⟩ :=
          of_resolve_listed hne (hkept hdicts) hfiltered
        refine ⟨(exists_resolve_iff_canResolve hextracts (hkept hdicts)).mp ⟨_, hfiltered⟩, ?_⟩
        rw [← hasParameters_congr hsame]
        exact (exists_phases_iff hresolved).mp ⟨errors, h⟩
  · rintro ⟨⟨filtered, hdefined⟩, hall⟩
    obtain ⟨defined, rfl, hne, hkept⟩ := of_putDefinitions hconfig hdefined
    obtain ⟨hresolvable, hparameters⟩ := hall defined hdefined
    obtain ⟨resolved', hresolved'⟩ :=
      (@exists_resolve_iff_canResolve _ libraries.overlay _ _ hextracts (hkept hdicts)).mpr
        hresolvable
    rw [NetworkConfigFilterChain.filterConfig_eq _ _ _ hdefined, hresolved']
    obtain ⟨resolved, rfl, hresolved, hsame⟩ := of_resolve_listed hne (hkept hdicts) hresolved'
    rw [← hasParameters_congr hsame] at hparameters
    exact (exists_phases_iff hresolved).mpr hparameters

theorem parametersSchemaNetworkValidator_eq (hconfig : config ≠ []) {filtered : List (PyStr × Json)}
    (hfiltered : NetworkConfigFilterChain.filterConfig libraries.extractorGet libraries.overlay
      libraries.strOf (.obj config) = .ok (.obj filtered)) :
    parametersSchemaNetworkValidator libraries (.obj config) =
      libraries.composite (parametersPhases libraries) (.obj filtered) := by
  unfold parametersSchemaNetworkValidator
  rw [if_pos (Json.truthy_obj hconfig), hfiltered]

/-! ## What is reported -/

/-- The agent whose shape an error is about. -/
def NetworkError.shapeOf : NetworkError → Option Key
  | .toolsShape agentName _ | .keyword agentName _ => some agentName
  | _ => none

/-- The agent whose parameters an error is about. -/
def NetworkError.parametersOf : NetworkError → Option Key
  | .parameters agentName _ => some agentName
  | _ => none

/-- Parameters of a shape that is not allowed. -/
def IsFaulty (libraries : Libraries) (params : Option Json) : Prop :=
  ¬FaultlessParameters libraries.hasBaseModelAttribute params

section Parameters

variable {resolved : List (PyStr × Json)} {entries : List (Key × Json)}
    {errors : List NetworkError}

theorem mem_of_pydantic {hasBaseModelAttribute : PyStr → Bool} (hne : resolved ≠ [])
    (hentries : listedAgents resolved = .ok entries)
    (h : pydanticParametersNetworkValidator hasBaseModelAttribute (.obj resolved) = .ok errors)
    (e : NetworkError) :
    e ∈ errors ↔ ∃ agent ∈ (tableOf entries).items,
      ∃ fault ∈ pydanticErrors hasBaseModelAttribute (locateParameters agent.2),
        e = .parameters agent.1 fault := by
  unfold pydanticParametersNetworkValidator at h
  rw [validate_eq hne hentries] at h
  obtain rfl := Except.ok.inj h
  unfold validatePydanticParameters
  rw [List.map_flatMap, List.mem_flatMap]
  refine exists_congr fun agent => and_congr_right fun _ => ?_
  rw [List.map_map, List.mem_map]
  exact exists_congr fun fault => and_congr_right fun _ => eq_comm

theorem mem_of_semantic (hne : resolved ≠ []) (hentries : listedAgents resolved = .ok entries)
    (h : semanticParametersNetworkValidator (.obj resolved) = .ok errors) (e : NetworkError) :
    e ∈ errors ↔ ∃ agent ∈ (tableOf entries).items, ∃ faults,
      semanticErrors (locateParameters agent.2) = .ok faults ∧
        ∃ fault ∈ faults, e = .parameters agent.1 fault := by
  unfold semanticParametersNetworkValidator at h
  rw [validate_eq hne hentries] at h
  obtain ⟨reports, hreports, rfl⟩ := exists_of_map_eq_ok h
  rw [List.mem_map]
  constructor
  · rintro ⟨report, hreport, rfl⟩
    obtain ⟨agent, hagent, part, hpart, hmem⟩ := (mem_of_flatten_mapM hreports report).mp hreport
    obtain ⟨faults, hfaults, rfl⟩ := exists_of_map_eq_ok hpart
    obtain ⟨fault, hfault, rfl⟩ := List.mem_map.mp hmem
    exact ⟨agent, hagent, faults, hfaults, fault, hfault, rfl⟩
  · rintro ⟨agent, hagent, faults, hfaults, fault, hfault, rfl⟩
    refine ⟨(agent.1, fault), (mem_of_flatten_mapM hreports _).mpr
      ⟨agent, hagent, _, ?_, List.mem_map_of_mem hfault⟩, rfl⟩
    rw [hfaults]
    rfl

/-- The two phases report of the parameters in the table that are at fault. -/
theorem exists_parametersOf_phases_iff (hne : resolved ≠ [])
    (hentries : listedAgents resolved = .ok entries)
    (h : libraries.composite (parametersPhases libraries) (.obj resolved) = .ok errors) :
    ∀ name, (∃ e ∈ errors, e.parametersOf = some name) ↔
      ∃ params, (name, params) ∈ (tableOf (located entries)).items ∧
        IsFaulty libraries params := by
  obtain ⟨checked, hchecked, hcan⟩ := (exists_phases_iff hne).mp ⟨errors, h⟩
  obtain rfl := Except.ok.inj (hentries.symm.trans hchecked)
  rw [libraries.composite_eq] at h
  obtain ⟨⟨first, hfirst⟩, ⟨second, hsecond⟩, -⟩ :
      (∃ first, pydanticParametersNetworkValidator libraries.hasBaseModelAttribute
        (.obj resolved) = .ok first) ∧
      (∃ second, semanticParametersNetworkValidator (.obj resolved) = .ok second) ∧ True := by
    have hall := (exists_mapM_ok_iff _ _).mp (exists_map_ok_iff.mp ⟨errors, h⟩)
    unfold parametersPhases at hall
    simpa using hall
  have hmem : ∀ e, e ∈ errors ↔ e ∈ first ∨ e ∈ second := by
    intro e
    rw [mem_of_flatten_mapM h]
    unfold parametersPhases
    simp [hfirst, hsecond]
  intro name
  constructor
  · rintro ⟨e, he, habout⟩
    rcases (hmem e).mp he with he | he
    · obtain ⟨agent, hagent, fault, hfault, rfl⟩ :=
        (mem_of_pydantic hne hentries hfirst e).mp he
      obtain rfl := Option.some.inj habout
      refine ⟨_, mem_tableOf_located.mpr ⟨_, hagent, rfl⟩, fun hfaultless => ?_⟩
      rw [← parametersErrors_eq_nil_iff] at hfaultless
      rw [hfaultless.1] at hfault
      exact absurd hfault List.not_mem_nil
    · obtain ⟨agent, hagent, faults, hfaults, fault, hfault, rfl⟩ :=
        (mem_of_semantic hne hentries hsecond e).mp he
      obtain rfl := Option.some.inj habout
      refine ⟨_, mem_tableOf_located.mpr ⟨_, hagent, rfl⟩, fun hfaultless => ?_⟩
      rw [← parametersErrors_eq_nil_iff] at hfaultless
      obtain rfl := Except.ok.inj (hfaults.symm.trans hfaultless.2)
      exact absurd hfault List.not_mem_nil
  · rintro ⟨params, hparams, hfaulty⟩
    obtain ⟨spec, hspec, rfl⟩ := mem_tableOf_located.mp hparams
    -- the second phase has returned, so that one of the two has an error
    obtain ⟨faults, hfaults⟩ := (exists_semanticErrors_iff _).mpr (hcan _ hparams)
    unfold IsFaulty at hfaulty
    rw [← parametersErrors_eq_nil_iff, hfaults, not_and_or] at hfaulty
    rcases hfaulty with hpydantic | hsemantic
    · obtain ⟨fault, hfault⟩ := List.exists_mem_of_ne_nil _ hpydantic
      exact ⟨_, (hmem _).mpr (.inl ((mem_of_pydantic hne hentries hfirst _).mpr
        ⟨_, hspec, fault, hfault, rfl⟩)), rfl⟩
    · obtain ⟨fault, hfault⟩ := List.exists_mem_of_ne_nil faults fun hnil =>
        hsemantic (congrArg Except.ok hnil)
      exact ⟨_, (hmem _).mpr (.inr ((mem_of_semantic hne hentries hsecond _).mpr
        ⟨_, hspec, faults, hfaults, fault, hfault, rfl⟩)), rfl⟩

end Parameters

/-- What a validator reports of a table, it reports; and of what is empty, that it is. -/
theorem of_mem_validate {validateDict : NameToSpec → Except PyError (List NetworkError)}
    {P : NetworkError → Prop} (hempty : P .emptyNetwork)
    (hdict : ∀ nameToSpec errors, validateDict nameToSpec = .ok errors → ∀ e ∈ errors, P e)
    {candidate : Json} {errors : List NetworkError}
    (h : validate validateDict candidate = .ok errors) : ∀ e ∈ errors, P e := by
  unfold validate at h
  split at h
  · split at h
    · split at h
      · cases h
      · exact hdict _ _ h
    · cases h
    · cases h
    · cases h
  · obtain rfl := Except.ok.inj h
    intro e he
    rwa [List.mem_singleton.mp he]

/-- The validator of parameters reports nothing of shapes. -/
theorem shapeOf_of_mem_phases {candidate : Json} {errors : List NetworkError}
    (h : libraries.composite (parametersPhases libraries) candidate = .ok errors)
    {e : NetworkError} (he : e ∈ errors) : e.shapeOf = none := by
  rw [libraries.composite_eq] at h
  obtain ⟨validator, hvalidator, part, hpart, he⟩ := (mem_of_flatten_mapM h e).mp he
  rcases List.mem_cons.mp hvalidator with rfl | hvalidator
  · refine of_mem_validate (P := fun e => e.shapeOf = none) rfl ?_ hpart e he
    intro nameToSpec reported hreported e he
    obtain rfl := Except.ok.inj hreported
    obtain ⟨report, -, rfl⟩ := List.mem_map.mp he
    rfl
  · obtain rfl := List.mem_singleton.mp hvalidator
    refine of_mem_validate (P := fun e => e.shapeOf = none) rfl ?_ hpart e he
    intro nameToSpec reported hreported e he
    obtain ⟨reports, -, rfl⟩ := exists_of_map_eq_ok hreported
    obtain ⟨report, -, rfl⟩ := List.mem_map.mp he
    rfl

theorem shapeOf_of_mem_parametersSchema {candidate : Json} {errors : List NetworkError}
    (h : parametersSchemaNetworkValidator libraries candidate = .ok errors) {e : NetworkError}
    (he : e ∈ errors) : e.shapeOf = none := by
  unfold parametersSchemaNetworkValidator at h
  split at h
  · split at h
    · cases h
    · exact shapeOf_of_mem_phases h he
  · exact shapeOf_of_mem_phases h he

end NoraFleet.Validation
