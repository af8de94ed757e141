import Mathlib
import NoraFleet.Validation.Agreement
import NoraFleet.Validation.ParametersSchema

/-!
# When the validator of manifests reports

`ManifestNetworkValidator` is to report what is wrong with a description, and it raises on some of
the descriptions in which something is. An agent has to be a dictionary, and its name a text; the
definitions and the defaults have to be of the types that the filters take them for; what a schema
requires has to be hashable.

* `exists_manifest_iff` — when the validators return;
* `exists_shapeOf_iff`, `exists_parametersOf_iff` — what they report;
* `KeepsFaults` — an agent that is listed again is not looked at the first time;
* `reports_iff` — the descriptions that are reported on.
-/

namespace NoraFleet.Validation

open Base Networks AbstractNetworkValidator AbstractCommonDefsConfigFilter

variable {libraries : Libraries} {externalNetworkNames mcpServers : List PyStr}
    {config : List (PyStr × Json)}

/-! ## Faults -/

section Faults

variable {α : Type} (Faulty : α → Prop)

/-- What is at fault is told of, by its name. -/
def ToldOf (about : NetworkError → Option Key) (entries : List (Key × α))
    (errors : List NetworkError) : Prop :=
  ∀ entry ∈ entries, Faulty entry.2 → ∃ e ∈ errors, about e = some entry.1

/-- What is at fault does not give its place to what is not. -/
def KeepsFaults (entries : List (Key × α)) : Prop :=
  ∀ entry ∈ entries, Faulty entry.2 →
    ∃ other, (entry.1, other) ∈ (tableOf entries).items ∧ Faulty other

variable {Faulty}

theorem toldOf_iff {about : NetworkError → Option Key} {entries : List (Key × α)}
    {errors : List NetworkError}
    (h : ∀ name, (∃ e ∈ errors, about e = some name) ↔
      ∃ other, (name, other) ∈ (tableOf entries).items ∧ Faulty other) :
    ToldOf Faulty about entries errors ↔ KeepsFaults Faulty entries := by
  unfold ToldOf KeepsFaults
  simp only [h]

/-- Where no name comes twice, every fault keeps its place. -/
theorem keepsFaults_of_nodup {entries : List (Key × α)} (h : (entries.map Prod.fst).Nodup) :
    KeepsFaults Faulty entries := by
  intro entry hentry hfaulty
  refine ⟨entry.2, ?_, hfaulty⟩
  unfold tableOf
  rw [Dict.items_update_of_nodup (show (Dict.empty.keys ++ entries.map Prod.fst).Nodup from h)]
  exact List.mem_append_right _ hentry

end Faults

/-- An agent of a shape that is not allowed. -/
def IsMalformed (agent : Json) : Prop := ∃ members, agent = .obj members ∧ ¬WellShaped members

/-! ### Validators of shapes -/

/-- What a validator reports that looks at the members of each agent. -/
theorem mem_of_validate_members {check : Key → List (PyStr × Json) → List NetworkError}
    (hconfig : config ≠ []) {entries : List (Key × Json)}
    (hentries : listedAgents config = .ok entries)
    {errors : List NetworkError}
    (h : validate (collect fun agentName agent => (asDict agent).map (check agentName))
      (.obj config) = .ok errors) (e : NetworkError) :
    e ∈ errors ↔ ∃ name members, (name, .obj members) ∈ (tableOf entries).items ∧
      e ∈ check name members := by
  rw [validate_eq hconfig hentries] at h
  rw [mem_collect h]
  constructor
  · rintro ⟨⟨name, spec⟩, hagent, reported, hreported, he⟩
    obtain ⟨members, hmembers, rfl⟩ := exists_of_map_eq_ok hreported
    cases spec with
    | obj given =>
        obtain rfl := Except.ok.inj hmembers
        exact ⟨name, given, hagent, he⟩
    | null => cases hmembers
    | bool b => cases hmembers
    | int n => cases hmembers
    | float x => cases hmembers
    | str s => cases hmembers
    | arr items => cases hmembers
  · rintro ⟨name, members, hagent, he⟩
    exact ⟨_, hagent, _, rfl, he⟩

/-! ### The other validators of tables -/

/-- An error that is about no shape and no parameters. -/
def IsOther (e : NetworkError) : Prop := e.shapeOf = none ∧ e.parametersOf = none

theorem isOther_of_missingNodes {nameToSpec : NameToSpec} {errors : List NetworkError}
    (h : collect (MissingNodesNetworkValidator.errorsOf libraries.extractorGet nameToSpec)
      nameToSpec = .ok errors) {e : NetworkError} (he : e ∈ errors) : IsOther e := by
  obtain ⟨agent, -, reported, hreported, he⟩ := (mem_collect h e).mp he
  obtain ⟨missing, -, rfl⟩ := exists_of_map_eq_ok hreported
  split at he
  · exact absurd he List.not_mem_nil
  · rw [List.mem_singleton.mp he]
    exact ⟨rfl, rfl⟩

theorem isOther_of_unreachableNodes {nameToSpec : NameToSpec} {errors : List NetworkError}
    (h : UnreachableNodesNetworkValidator.errorsOf libraries.extractorGet nameToSpec = .ok errors)
    {e : NetworkError} (he : e ∈ errors) : IsOther e := by
  unfold UnreachableNodesNetworkValidator.errorsOf at h
  split at h
  · cases h
  · obtain rfl := Except.ok.inj h
    rw [List.mem_singleton.mp he]
    exact ⟨rfl, rfl⟩
  · split at h
    · cases h
    · obtain rfl := Except.ok.inj h
      exact absurd he List.not_mem_nil
    · obtain ⟨names, -, rfl⟩ := exists_of_map_eq_ok h
      rw [List.mem_singleton.mp he]
      exact ⟨rfl, rfl⟩
  · obtain ⟨names, -, rfl⟩ := exists_of_map_eq_ok h
    rw [List.mem_singleton.mp he]
    exact ⟨rfl, rfl⟩

theorem isOther_of_toolName {nameToSpec : NameToSpec} {errors : List NetworkError}
    (h : collect ToolNameNetworkValidator.errorsOf nameToSpec = .ok errors) {e : NetworkError}
    (he : e ∈ errors) : IsOther e := by
  obtain ⟨agent, -, reported, hreported, he⟩ := (mem_collect h e).mp he
  have hname : e = .toolName agent.1 := by
    unfold ToolNameNetworkValidator.errorsOf at hreported
    split at hreported
    · cases hreported
    · split at hreported
      · split at hreported
        · split at hreported
          · obtain rfl := Except.ok.inj hreported
            split at he
            · exact absurd he List.not_mem_nil
            · exact List.mem_singleton.mp he
          · cases hreported
        · obtain rfl := Except.ok.inj hreported
          exact List.mem_singleton.mp he
      · cases hreported
  rw [hname]
  exact ⟨rfl, rfl⟩

theorem isOther_of_url {urls : List PyStr} {nameToSpec : NameToSpec} {errors : List NetworkError}
    (h : collect (UrlNetworkValidator.errorsOf libraries.extractorGet urls) nameToSpec =
      .ok errors) {e : NetworkError} (he : e ∈ errors) : IsOther e := by
  obtain ⟨agent, -, reported, hreported, he⟩ := (mem_collect h e).mp he
  obtain ⟨tools, -, rfl⟩ := exists_of_map_eq_ok hreported
  obtain ⟨tool, -, rfl⟩ := List.mem_map.mp he
  exact ⟨rfl, rfl⟩

/-! ## The whole validator -/

/-- The validators return where the agents can be looked at and the parameters can be
validated. -/
theorem exists_manifest_iff
    (hget : ∀ members path default, ∃ value,
      libraries.extractorGet (.obj members) path default = .ok value)
    (hconfig : config ≠ []) :
    (∃ errors, manifestNetworkValidator libraries externalNetworkNames mcpServers (.obj config) =
      .ok errors) ↔
      (∃ entries, listedAgents config = .ok entries ∧
        ∀ agent ∈ (tableOf entries).items, Legible agent) ∧
        ∃ errors, parametersSchemaNetworkValidator libraries (.obj config) = .ok errors := by
  unfold manifestNetworkValidator
  rw [libraries.composite_eq, exists_map_ok_iff, exists_mapM_ok_iff]
  unfold manifestValidators
  simp only [List.forall_mem_cons]
  constructor
  · rintro ⟨⟨errors, hshape⟩, -, -, -, htoolName, hparameters, -⟩
    obtain ⟨entries, hentries⟩ := exists_listed_of_validate hconfig hshape
    refine ⟨⟨entries, hentries, fun agent hagent => ?_⟩, hparameters⟩
    unfold toolNameNetworkValidator at htoolName
    rw [validate_eq hconfig hentries, exists_collect_iff] at htoolName
    exact (ToolNameNetworkValidator.exists_errorsOf_iff agent).mp (htoolName agent hagent)
  · rintro ⟨⟨entries, hentries, hlegible⟩, hparameters⟩
    -- what goes through the tools of the agents
    have htools : ∀ agent ∈ (tableOf entries).items,
        ∃ tools, coerceTools libraries.extractorGet agent.2 = .ok tools := by
      intro agent hagent
      obtain ⟨members, hmembers⟩ := (hlegible agent hagent).obj
      rw [hmembers]
      exact (readable_of_get hget members).1
    have hdicts : ∀ {check : Key → List (PyStr × Json) → List NetworkError},
        ∃ errors, validate (collect fun agentName agent => (asDict agent).map (check agentName))
          (.obj config) = .ok errors := by
      intro check
      rw [validate_eq hconfig hentries, exists_collect_iff]
      intro agent hagent
      obtain ⟨members, hmembers⟩ := (hlegible agent hagent).obj
      rw [hmembers]
      exact ⟨_, rfl⟩
    refine ⟨hdicts, hdicts, ?_, ?_, ?_, hparameters, ?_, fun _ h => absurd h List.not_mem_nil⟩
    · unfold missingNodesNetworkValidator
      rw [validate_eq hconfig hentries, exists_collect_iff]
      intro agent hagent
      unfold MissingNodesNetworkValidator.errorsOf MissingNodesNetworkValidator.missingTools
      rw [exists_map_ok_iff, exists_map_ok_iff]
      exact htools agent hagent
    · unfold unreachableNodesNetworkValidator
      rw [validate_eq hconfig hentries]
      exact UnreachableNodesNetworkValidator.exists_errorsOf hget hlegible
    · unfold toolNameNetworkValidator
      rw [validate_eq hconfig hentries, exists_collect_iff]
      exact fun agent hagent =>
        (ToolNameNetworkValidator.exists_errorsOf_iff agent).mpr (hlegible agent hagent)
    · unfold urlNetworkValidator
      rw [validate_eq hconfig hentries, exists_collect_iff]
      intro agent hagent
      unfold UrlNetworkValidator.errorsOf
      rw [exists_map_ok_iff]
      exact htools agent hagent

section Manifest

variable {entries : List (Key × Json)} {errors : List NetworkError}

/-- What the validators report is about shapes, about parameters, or about neither. -/
theorem exists_parts (hconfig : config ≠ []) (hentries : listedAgents config = .ok entries)
    (h : manifestNetworkValidator libraries externalNetworkNames mcpServers (.obj config) =
      .ok errors) :
    ∃ shapes keywords parameters,
      toolsShapeValidator libraries.texts (.obj config) = .ok shapes ∧
      keywordNetworkValidator libraries.texts (.obj config) = .ok keywords ∧
      parametersSchemaNetworkValidator libraries (.obj config) = .ok parameters ∧
      (∀ e, e ∈ shapes ∨ e ∈ keywords ∨ e ∈ parameters → e ∈ errors) ∧
      ∀ e ∈ errors, e ∈ shapes ∨ e ∈ keywords ∨ e ∈ parameters ∨ IsOther e := by
  unfold manifestNetworkValidator at h
  rw [libraries.composite_eq] at h
  have hall := (exists_mapM_ok_iff _ _).mp (exists_map_ok_iff.mp ⟨errors, h⟩)
  have hmem := mem_of_flatten_mapM h
  unfold manifestValidators at hall hmem
  simp only [List.forall_mem_cons] at hall
  simp only [List.mem_cons, List.not_mem_nil, or_false, exists_eq_or_imp, exists_eq_left] at hmem
  obtain ⟨⟨shapes, hshapes⟩, ⟨keywords, hkeywords⟩, ⟨missing, hmissing⟩,
    ⟨unreachable, hunreachable⟩, ⟨toolNames, htoolNames⟩, ⟨parameters, hparameters⟩,
    ⟨urls, hurls⟩, -⟩ := hall
  simp only [hshapes, hkeywords, hmissing, hunreachable, htoolNames, hparameters, hurls,
    Except.ok.injEq, exists_eq_left'] at hmem
  refine ⟨shapes, keywords, parameters, hshapes, hkeywords, hparameters, ?_, ?_⟩
  · rintro e (he | he | he)
    · exact (hmem e).mpr (.inl he)
    · exact (hmem e).mpr (.inr (.inl he))
    · exact (hmem e).mpr (.inr (.inr (.inr (.inr (.inr (.inl he))))))
  · unfold missingNodesNetworkValidator at hmissing
    unfold unreachableNodesNetworkValidator at hunreachable
    unfold toolNameNetworkValidator at htoolNames
    unfold urlNetworkValidator at hurls
    rw [validate_eq hconfig hentries] at hmissing hunreachable htoolNames hurls
    intro e he
    rcases (hmem e).mp he with he | he | he | he | he | he | he
    · exact .inl he
    · exact .inr (.inl he)
    · exact .inr (.inr (.inr (isOther_of_missingNodes hmissing he)))
    · exact .inr (.inr (.inr (isOther_of_unreachableNodes hunreachable he)))
    · exact .inr (.inr (.inr (isOther_of_toolName htoolNames he)))
    · exact .inr (.inr (.inl he))
    · exact .inr (.inr (.inr (isOther_of_url hurls he)))

/-- What the two validators of shapes report of an agent in the table. -/
theorem mem_of_shapes (hconfig : config ≠ []) (hentries : listedAgents config = .ok entries)
    {shapes keywords : List NetworkError}
    (hshapes : toolsShapeValidator libraries.texts (.obj config) = .ok shapes)
    (hkeywords : keywordNetworkValidator libraries.texts (.obj config) = .ok keywords)
    (e : NetworkError) :
    e ∈ shapes ∨ e ∈ keywords ↔ ∃ name members,
      (name, .obj members) ∈ (tableOf entries).items ∧
        (e ∈ toolsShapeErrors libraries.texts name members ∨
          e ∈ keywordErrors libraries.texts name members) := by
  rw [mem_of_validate_members hconfig hentries hshapes,
    mem_of_validate_members hconfig hentries hkeywords]
  simp only [and_or_left, exists_or]

theorem shapeOf_of_mem_shapeErrors {texts : Texts} {name : Key} {members : List (PyStr × Json)}
    {e : NetworkError}
    (h : e ∈ toolsShapeErrors texts name members ∨ e ∈ keywordErrors texts name members) :
    e.shapeOf = some name ∧ e.parametersOf = none ∧ ¬WellShaped members := by
  rw [← shapeErrors_eq_nil_iff texts name]
  rcases h with he | he
  · obtain ⟨text, -, rfl⟩ := List.mem_map.mp he
    exact ⟨rfl, rfl, fun hnil => List.ne_nil_of_mem he hnil.1⟩
  · obtain ⟨text, -, rfl⟩ := List.mem_map.mp he
    exact ⟨rfl, rfl, fun hnil => List.ne_nil_of_mem he hnil.2⟩

/-- The shapes that are reported are those of the agents in the table that are malformed. -/
theorem exists_shapeOf_iff (hconfig : config ≠ []) (hentries : listedAgents config = .ok entries)
    (h : manifestNetworkValidator libraries externalNetworkNames mcpServers (.obj config) =
      .ok errors) (name : Key) :
    (∃ e ∈ errors, e.shapeOf = some name) ↔
      ∃ spec, (name, spec) ∈ (tableOf entries).items ∧ IsMalformed spec := by
  obtain ⟨shapes, keywords, parameters, hshapes, hkeywords, hparameters, hparts, hall⟩ :=
    exists_parts hconfig hentries h
  have hmem := mem_of_shapes hconfig hentries hshapes hkeywords
  constructor
  · rintro ⟨e, he, habout⟩
    have hshape : e ∈ shapes ∨ e ∈ keywords := by
      rcases hall e he with he | he | he | he
      · exact .inl he
      · exact .inr he
      · rw [shapeOf_of_mem_parametersSchema hparameters he] at habout
        cases habout
      · rw [he.1] at habout
        cases habout
    obtain ⟨other, members, hagent, he⟩ := (hmem e).mp hshape
    obtain ⟨hother, -, hmalformed⟩ := shapeOf_of_mem_shapeErrors he
    obtain rfl := Option.some.inj (hother.symm.trans habout)
    exact ⟨_, hagent, members, rfl, hmalformed⟩
  · rintro ⟨spec, hagent, members, rfl, hmalformed⟩
    obtain ⟨e, he⟩ : ∃ e, e ∈ toolsShapeErrors libraries.texts name members ∨
        e ∈ keywordErrors libraries.texts name members := by
      rw [← shapeErrors_eq_nil_iff libraries.texts name, not_and_or] at hmalformed
      rcases hmalformed with hne | hne
      · obtain ⟨e, he⟩ := List.exists_mem_of_ne_nil _ hne
        exact ⟨e, .inl he⟩
      · obtain ⟨e, he⟩ := List.exists_mem_of_ne_nil _ hne
        exact ⟨e, .inr he⟩
    refine ⟨e, hparts e ?_, (shapeOf_of_mem_shapeErrors he).1⟩
    rw [← or_assoc]
    exact .inl ((hmem e).mpr ⟨name, members, hagent, he⟩)

/-- The parameters that are reported are those that the validator of parameters reports. -/
theorem exists_parametersOf_iff (hconfig : config ≠ [])
    (hentries : listedAgents config = .ok entries)
    (h : manifestNetworkValidator libraries externalNetworkNames mcpServers (.obj config) =
      .ok errors) {parameters : List NetworkError}
    (hparameters : parametersSchemaNetworkValidator libraries (.obj config) = .ok parameters)
    (name : Key) :
    (∃ e ∈ errors, e.parametersOf = some name) ↔
      ∃ e ∈ parameters, e.parametersOf = some name := by
  obtain ⟨shapes, keywords, others, hshapes, hkeywords, hothers, hparts, hall⟩ :=
    exists_parts hconfig hentries h
  obtain rfl := Except.ok.inj (hparameters.symm.trans hothers)
  have hmem := mem_of_shapes hconfig hentries hshapes hkeywords
  constructor
  · rintro ⟨e, he, habout⟩
    have hnone : e ∈ shapes ∨ e ∈ keywords → e ∈ parameters := by
      intro he
      obtain ⟨other, members, -, he⟩ := (hmem e).mp he
      rw [(shapeOf_of_mem_shapeErrors he).2.1] at habout
      cases habout
    rcases hall e he with he | he | he | he
    · exact ⟨e, hnone (.inl he), habout⟩
    · exact ⟨e, hnone (.inr he), habout⟩
    · exact ⟨e, he, habout⟩
    · rw [he.2] at habout
      cases habout
  · rintro ⟨e, he, habout⟩
    exact ⟨e, hparts e (.inr (.inr he)), habout⟩

end Manifest

variable (libraries externalNetworkNames mcpServers) in
/-- The validator reports: it returns a list of errors, and in it are errors of a network that is
empty, of every agent whose shape is not allowed, and, where the configuration can be filtered, of
every agent whose parameters are not. -/
def Reports (candidate : Json) : Prop :=
  ∃ errors, manifestNetworkValidator libraries externalNetworkNames mcpServers candidate =
      .ok errors ∧
    (candidate.truthy = false → NetworkError.emptyNetwork ∈ errors) ∧
    ∀ config, candidate = .obj config →
      (∀ entries, listedAgents config = .ok entries →
        ToldOf IsMalformed NetworkError.shapeOf entries errors) ∧
      ∀ filtered entries, NetworkConfigFilterChain.filterConfig libraries.extractorGet
          libraries.overlay libraries.strOf (.obj config) = .ok (.obj filtered) →
        listedAgents filtered = .ok entries →
        ToldOf (IsFaulty libraries) NetworkError.parametersOf (located entries) errors

/-- A configuration that can be validated. Its agents can be listed and looked at, its definitions
and defaults can be put in, the parameters that are there then can be looked through, and no agent
with a fault of its own gives its place to one of its name without. -/
structure CanValidate (libraries : Libraries) (config : List (PyStr × Json)) : Prop where
  legible : ∃ entries, listedAgents config = .ok entries ∧
    ∀ agent ∈ (tableOf entries).items, Legible agent
  shapes : ∀ entries, listedAgents config = .ok entries → KeepsFaults IsMalformed entries
  definable : Definable config
  resolvable : ∀ defined, putDefinitions config = .ok (.obj defined) →
    CanResolve libraries.strOf defined
  parameters : ∀ defined, putDefinitions config = .ok (.obj defined) →
    HasParameters CanCheck defined
  faults : ∀ defined entries, putDefinitions config = .ok (.obj defined) →
    listedAgents defined = .ok entries → KeepsFaults (IsFaulty libraries) (located entries)

/-- What is empty is reported as such. -/
theorem reports_of_falsy {candidate : Json} (h : candidate.truthy = false) :
    Reports libraries externalNetworkNames mcpServers candidate := by
  have hnot : ¬candidate.truthy = true := by simp [h]
  have hempty : ∀ {validateDict : NameToSpec → Except PyError (List NetworkError)},
      validate validateDict candidate = .ok [.emptyNetwork] := if_neg hnot
  have hparameters : parametersSchemaNetworkValidator libraries candidate =
      .ok [.emptyNetwork, .emptyNetwork] := by
    unfold parametersSchemaNetworkValidator
    rw [if_neg hnot, libraries.composite_eq]
    unfold parametersPhases
    rw [List.mapM_cons, List.mapM_cons, List.mapM_nil]
    unfold pydanticParametersNetworkValidator semanticParametersNetworkValidator
    rw [hempty, hempty]
    rfl
  obtain ⟨errors, herrors⟩ : ∃ errors,
      manifestNetworkValidator libraries externalNetworkNames mcpServers candidate =
        .ok errors := by
    unfold manifestNetworkValidator
    rw [libraries.composite_eq, exists_map_ok_iff, exists_mapM_ok_iff]
    unfold manifestValidators
    simp only [List.forall_mem_cons]
    exact ⟨⟨_, hempty⟩, ⟨_, hempty⟩, ⟨_, hempty⟩, ⟨_, hempty⟩, ⟨_, hempty⟩, ⟨_, hparameters⟩,
      ⟨_, hempty⟩, fun _ hmem => absurd hmem List.not_mem_nil⟩
  refine ⟨errors, herrors, fun _ => ?_, fun config hconfig => ?_⟩
  · unfold manifestNetworkValidator at herrors
    rw [libraries.composite_eq] at herrors
    exact (mem_of_flatten_mapM herrors _).mpr
      ⟨_, List.mem_cons_self, _, hempty, List.mem_singleton_self _⟩
  · subst hconfig
    -- a configuration that is empty lists no agents
    obtain rfl : config = [] := by
      cases config with
      | nil => rfl
      | cons member rest => cases h
    constructor
    · intro entries hentries
      obtain rfl : [] = entries := Except.ok.inj hentries
      exact fun _ hentry => absurd hentry List.not_mem_nil
    · intro filtered entries hfiltered hentries
      obtain rfl : [] = filtered := Json.obj.inj (Except.ok.inj hfiltered)
      obtain rfl : [] = entries := Except.ok.inj hentries
      exact fun _ hentry => absurd hentry List.not_mem_nil

/-- What is no configuration raises. -/
theorem not_reports_of_not_obj {candidate : Json} (htruthy : candidate.truthy = true)
    (h : ∀ config, candidate ≠ .obj config) :
    ¬Reports libraries externalNetworkNames mcpServers candidate := by
  rintro ⟨errors, herrors, -⟩
  unfold manifestNetworkValidator at herrors
  rw [libraries.composite_eq] at herrors
  have hall := (exists_mapM_ok_iff _ _).mp (exists_map_ok_iff.mp ⟨errors, herrors⟩)
  obtain ⟨part, hpart⟩ := hall _ List.mem_cons_self
  unfold toolsShapeValidator validate at hpart
  rw [if_pos htruthy] at hpart
  cases candidate with
  | obj config => exact h config rfl
  | arr items => cases hpart
  | str s => cases hpart
  | null => cases hpart
  | bool b => cases hpart
  | int n => cases hpart
  | float x => cases hpart

/-- The validator returns if and only if the configuration can be validated, but for faults. -/
theorem exists_manifest_iff_conditions
    (hextracts : DefaultsConfigFilter.Extracts libraries.extractorGet)
    (hget : ∀ members path default, ∃ value,
      libraries.extractorGet (.obj members) path default = .ok value)
    (hconfig : config ≠ []) :
    (∃ errors, manifestNetworkValidator libraries externalNetworkNames mcpServers (.obj config) =
      .ok errors) ↔
      (∃ entries, listedAgents config = .ok entries ∧
        ∀ agent ∈ (tableOf entries).items, Legible agent) ∧
      Definable config ∧ ∀ defined, putDefinitions config = .ok (.obj defined) →
        CanResolve libraries.strOf defined ∧ HasParameters CanCheck defined := by
  rw [exists_manifest_iff hget hconfig]
  refine and_congr_right ?_
  rintro ⟨entries, hentries, -⟩
  exact exists_parametersSchema_iff hextracts hconfig (hasDictAgents_of_listed hentries)

/-- Where it returns, all faults are told of if and only if none is lost. -/
theorem toldOf_iff_keepsFaults
    (hextracts : DefaultsConfigFilter.Extracts libraries.extractorGet)
    (hget : ∀ members path default, ∃ value,
      libraries.extractorGet (.obj members) path default = .ok value)
    (hconfig : config ≠ [])
    {errors : List NetworkError}
    (herrors : manifestNetworkValidator libraries externalNetworkNames mcpServers (.obj config) =
      .ok errors) :
    ((∀ entries, listedAgents config = .ok entries →
        ToldOf IsMalformed NetworkError.shapeOf entries errors) ∧
      ∀ filtered entries, NetworkConfigFilterChain.filterConfig libraries.extractorGet
          libraries.overlay libraries.strOf (.obj config) = .ok (.obj filtered) →
        listedAgents filtered = .ok entries →
        ToldOf (IsFaulty libraries) NetworkError.parametersOf (located entries) errors) ↔
      (∀ entries, listedAgents config = .ok entries → KeepsFaults IsMalformed entries) ∧
        ∀ defined entries, putDefinitions config = .ok (.obj defined) →
          listedAgents defined = .ok entries →
            KeepsFaults (IsFaulty libraries) (located entries) := by
  obtain ⟨⟨entries, hentries, -⟩, hdefinable, hchecked⟩ :=
    (exists_manifest_iff_conditions hextracts hget hconfig).mp ⟨errors, herrors⟩
  have hdicts := hasDictAgents_of_listed hentries
  obtain ⟨middle, hdefined⟩ := (exists_putDefinitions_iff hconfig).mpr hdefinable
  obtain ⟨defined, rfl, hne, hkept⟩ := of_putDefinitions hconfig hdefined
  obtain ⟨hresolvable, hcan⟩ := hchecked defined hdefined
  obtain ⟨filtered, hfiltered⟩ := (@exists_resolve_iff_canResolve _ libraries.overlay _ _ hextracts
    (hkept hdicts)).mpr hresolvable
  obtain ⟨resolved, rfl, hresolved, hsame⟩ := of_resolve_listed hne (hkept hdicts) hfiltered
  rw [← NetworkConfigFilterChain.filterConfig_eq _ _ _ hdefined] at hfiltered
  obtain ⟨others, hothers, -⟩ := (hasParameters_congr hsame).mpr hcan
  obtain ⟨part, hpart⟩ := (exists_manifest_iff hget hconfig).mp ⟨errors, herrors⟩ |>.2
  have hshapes := exists_shapeOf_iff hconfig hentries herrors
  have hparameters : ∀ name, (∃ e ∈ errors, e.parametersOf = some name) ↔
      ∃ params, (name, params) ∈ (tableOf (located others)).items ∧ IsFaulty libraries params := by
    intro name
    rw [exists_parametersOf_iff hconfig hentries herrors hpart]
    rw [parametersSchemaNetworkValidator_eq hconfig hfiltered] at hpart
    exact exists_parametersOf_phases_iff hresolved hothers hpart name
  rw [hothers] at hsame
  obtain ⟨kept, hkeptEntries, hlocated⟩ := exists_of_map_eq_ok hsame.symm
  constructor
  · rintro ⟨htoldShapes, htoldParameters⟩
    constructor
    · intro entries' hentries'
      obtain rfl := Except.ok.inj (hentries.symm.trans hentries')
      exact (toldOf_iff hshapes).mp (htoldShapes entries hentries)
    · intro defined' entries' hdefined' hentries'
      obtain rfl := Json.obj.inj (Except.ok.inj (hdefined.symm.trans hdefined'))
      obtain rfl := Except.ok.inj (hkeptEntries.symm.trans hentries')
      rw [hlocated]
      exact (toldOf_iff hparameters).mp (htoldParameters resolved others hfiltered hothers)
  · rintro ⟨hkeepsShapes, hkeepsParameters⟩
    constructor
    · intro entries' hentries'
      obtain rfl := Except.ok.inj (hentries.symm.trans hentries')
      exact (toldOf_iff hshapes).mpr (hkeepsShapes entries hentries)
    · intro filtered' entries' hfiltered' hentries'
      obtain rfl := Json.obj.inj (Except.ok.inj (hfiltered.symm.trans hfiltered'))
      obtain rfl := Except.ok.inj (hothers.symm.trans hentries')
      rw [toldOf_iff hparameters, ← hlocated]
      exact hkeepsParameters defined kept hdefined hkeptEntries

/-- A configuration that is not empty is reported on if and only if it can be validated. -/
theorem reports_obj_iff (hextracts : DefaultsConfigFilter.Extracts libraries.extractorGet)
    (hget : ∀ members path default, ∃ value,
      libraries.extractorGet (.obj members) path default = .ok value)
    (hconfig : config ≠ []) :
    Reports libraries externalNetworkNames mcpServers (.obj config) ↔
      CanValidate libraries config := by
  constructor
  · rintro ⟨errors, herrors, -, htold⟩
    obtain ⟨hlegible, hdefinable, hchecked⟩ :=
      (exists_manifest_iff_conditions hextracts hget hconfig).mp ⟨errors, herrors⟩
    obtain ⟨hshapes, hfaults⟩ :=
      (toldOf_iff_keepsFaults hextracts hget hconfig herrors).mp (htold config rfl)
    exact ⟨hlegible, hshapes, hdefinable, fun defined h => (hchecked defined h).1,
      fun defined h => (hchecked defined h).2, hfaults⟩
  · rintro ⟨hlegible, hshapes, hdefinable, hresolvable, hparameters, hfaults⟩
    obtain ⟨errors, herrors⟩ := (exists_manifest_iff_conditions hextracts hget hconfig).mpr
      ⟨hlegible, hdefinable, fun defined h => ⟨hresolvable defined h, hparameters defined h⟩⟩
    refine ⟨errors, herrors, fun hfalsy => ?_, fun config' heq => ?_⟩
    · cases config with
      | nil => exact absurd rfl hconfig
      | cons member rest => cases hfalsy
    · obtain rfl := Json.obj.inj heq
      exact (toldOf_iff_keepsFaults hextracts hget hconfig herrors).mpr ⟨hshapes, hfaults⟩

/-- An agent that is not given a name. -/
def unnamed : List (PyStr × Json) :=
  [(str "tools", .arr [.obj [(str "instructions", .str (str "Help."))]])]

/-- Definitions, a front man whose tools are no list and whose parameters become a number, and a
helper with a number for a tool. -/
def misshapen : List (PyStr × Json) :=
  [(str "commondefs", .obj [(str "replacement_values", .obj [(str "limit", .int 5)]),
      (str "replacement_strings", .obj [(str "company", .str (str "Acme"))])]),
    (str "tools", .arr [
      .obj [(str "name", .str (str "front")), (str "tools", .str (str "helper")),
        (str "instructions", .str (str "Work for \x7bcompany\x7d.")),
        (str "parameters", .str (str "limit"))],
      .obj [(str "name", .str (str "helper")), (str "tools", .arr [.int 1])]])]

/-- The agents with the definitions put in. -/
def misshapenAgents : List (List (PyStr × Json)) :=
  [[(str "name", .str (str "front")), (str "tools", .str (str "helper")),
    (str "instructions", .str (str "Work for Acme.")), (str "parameters", .int 5)],
    [(str "name", .str (str "helper")), (str "tools", .arr [.int 1])]]

theorem putDefinitions_misshapen : putDefinitions misshapen =
    .ok (.obj (Dict.setItems misshapen (str "tools") (.arr (misshapenAgents.map .obj)))) := by
  rfl

end NoraFleet.Validation
