import Mathlib
import NoraFleet.Networks.Defaults
import NoraFleet.Networks.DefinedConfigs
import NoraFleet.Networks.NameCorrection

/-!
# Configurations whose defaults and names can be put in

The last two filters go through agents that are dictionaries. A default goes into any of them, but
for the schema of the sly data: that of the front man and that at the top are merged, and a union
can be made of lists of what can be hashed, and of two texts. A name is corrected if it can be
written.

* `exists_resolve_iff` — when the two filters return;
* `of_resolve` — the agents keep their names and their parameters.
-/

namespace NoraFleet.Networks

open Base AbstractCommonDefsConfigFilter

theorem forall₂_trans {α : Type} {R : α → α → Prop} (h : ∀ {a b c}, R a b → R b c → R a c)
    {first second third : List α} (hfirst : List.Forall₂ R first second)
    (hnext : List.Forall₂ R second third) : List.Forall₂ R first third := by
  induction hfirst generalizing third with
  | nil => exact hnext
  | cons hhead _ ih =>
      cases hnext with
      | cons hhead' htail => exact .cons (h hhead hhead') (ih htail)

/-! ## Defaults -/

namespace DefaultsConfigFilter

/-- Two values of which a union can be made. -/
def CanUnite (basisField toolField : Json) : Prop :=
  (∃ first last, basisField = .arr first ∧ toolField = .arr last ∧
    ∀ v ∈ first ++ last, Key.IsHashable v) ∨
  ∃ s t, basisField = .str s ∧ toolField = .str t

theorem exists_unionOf_iff (basisField toolField : Json) :
    (∃ union, unionOf basisField toolField = .ok union) ↔ CanUnite basisField toolField := by
  unfold unionOf CanUnite
  split
  · rw [exists_fromKeys_iff]
    simp
  · rename_i s t
    rw [exists_fromKeys_iff]
    have hall : ∀ v ∈ (s ++ t).map fun c => Json.str [c], Key.IsHashable v := by
      intro v hv
      obtain ⟨c, -, rfl⟩ := List.mem_map.mp hv
      exact ⟨_, rfl⟩
    exact iff_of_true hall (.inr ⟨s, t, rfl, rfl⟩)
  · rename_i harr hstr
    constructor
    · rintro ⟨union, h⟩
      cases h
    · rintro (⟨first, last, rfl, rfl, -⟩ | ⟨s, t, rfl, rfl⟩)
      · exact (harr first last rfl rfl).elim
      · exact (hstr s t rfl rfl).elim

/-- The defaults that are the same for all agents. -/
def sharedDefaults : List Default := defaultsMapping.dropLast

/-- The default for the sly data of the front man. -/
def schemaDefault : Default :=
  ⟨str "sly_data_schema", str "function.sly_data_schema", true, [str "required"]⟩

theorem defaultsMapping_eq : defaultsMapping = sharedDefaults ++ [schemaDefault] := rfl

/-- The schema of an agent and the one at the top can be merged, if both are dictionaries. -/
def UnitesSchemas (config agent : List (PyStr × Json)) : Prop :=
  ∀ basis value, topValue config schemaDefault.sourceKey = .obj basis →
    (Json.obj agent).atPath schemaDefault.dest = some (.obj value) →
      CanUnite ((Json.lookup basis (str "required")).getD (.arr []))
        ((Json.lookup value (str "required")).getD (.arr []))

/-! ### What stays of an agent -/

/-- The parameters under the function of an agent. -/
def functionParameters (agent : List (PyStr × Json)) : Option Json :=
  match Json.lookup agent (str "function") with
  | some (.obj function) => Json.lookup function (str "parameters")
  | _ => none

/-- The name of an agent and its parameters stay. -/
structure SameParameters (agent newAgent : List (PyStr × Json)) : Prop where
  name : Json.lookup newAgent (str "name") = Json.lookup agent (str "name")
  own : Json.lookup newAgent (str "parameters") = Json.lookup agent (str "parameters")
  function : functionParameters newAgent = functionParameters agent

namespace SameParameters

theorem refl (agent : List (PyStr × Json)) : SameParameters agent agent := ⟨rfl, rfl, rfl⟩

theorem trans {agent newAgent newerAgent : List (PyStr × Json)}
    (hfirst : SameParameters agent newAgent) (hnext : SameParameters newAgent newerAgent) :
    SameParameters agent newerAgent :=
  ⟨hnext.name.trans hfirst.name, hnext.own.trans hfirst.own, hnext.function.trans hfirst.function⟩

/-- Values of other keys do not matter. -/
theorem of_lookup {agent newAgent : List (PyStr × Json)}
    (h : ∀ key ∈ [str "name", str "parameters", str "function"],
      Json.lookup newAgent key = Json.lookup agent key) : SameParameters agent newAgent := by
  simp only [List.forall_mem_cons] at h
  obtain ⟨hname, hown, hfunction, -⟩ := h
  refine ⟨hname, hown, ?_⟩
  unfold functionParameters
  rw [hfunction]

/-- Other values of a function do not matter. -/
theorem setAt_function {key : PyStr} (hkey : key ≠ str "parameters") (value : Json)
    (rest : List PyStr) (agent : List (PyStr × Json)) :
    SameParameters agent (Json.setAt value (str "function" :: key :: rest) agent) := by
  refine ⟨Json.lookup_setAt_of_ne value (by decide) _ _,
    Json.lookup_setAt_of_ne value (by decide) _ _, ?_⟩
  unfold functionParameters Json.setAt
  cases hpart : Json.partAt agent (str "function") with
  | none => rfl
  | some part =>
      dsimp only
      rw [Json.lookup_setItems, if_pos rfl]
      dsimp only
      rw [Json.lookup_setAt_of_ne value hkey.symm]
      rcases Json.of_partAt hpart with hthere | ⟨rfl, hnone | hnull⟩
      · rw [hthere]
      · rw [hnone]
        rfl
      · rw [hnull]
        rfl

end SameParameters

/-- A path at which a default sets values. -/
def Default.Sets (default : Default) (path : List PyStr) : Prop :=
  path = default.dest ∨ ∃ field, path = default.dest ++ [field]

theorem sameParameters_setAt {default : Default} (hdefault : default ∈ defaultsMapping)
    {path : List PyStr} (hpath : default.Sets path) (value : Json) (agent : List (PyStr × Json)) :
    SameParameters agent (Json.setAt value path agent) := by
  by_cases hschema : default = schemaDefault
  · subst hschema
    rcases hpath with rfl | ⟨field, rfl⟩
    · exact SameParameters.setAt_function (by decide) value [] agent
    · exact SameParameters.setAt_function (by decide) value [field] agent
  · have hshared : ∀ shared ∈ sharedDefaults, ∃ key rest, shared.dest = key :: rest ∧
        key ∉ [str "name", str "parameters", str "function"] := by
      have hheads : ∀ shared ∈ sharedDefaults, ∃ key ∈ shared.dest.head?,
          key ∉ [str "name", str "parameters", str "function"] := by
        decide
      intro shared hmem
      obtain ⟨key, hhead, hkey⟩ := hheads shared hmem
      obtain ⟨rest, hdest⟩ := List.head?_eq_some_iff.mp hhead
      exact ⟨key, rest, hdest, hkey⟩
    rw [defaultsMapping_eq, List.mem_append, List.mem_singleton, or_iff_left hschema] at hdefault
    obtain ⟨key, rest, hdest, hkey⟩ := hshared default hdefault
    refine .of_lookup fun other hother => ?_
    have hne : other ≠ key := fun heq => hkey (heq ▸ hother)
    rcases hpath with rfl | ⟨field, rfl⟩
    · rw [hdest]
      exact Json.lookup_setAt_of_ne value hne rest agent
    · rw [hdest]
      exact Json.lookup_setAt_of_ne value hne (rest ++ [field]) agent

/-- A dictionary stays one, with its name and parameters. -/
def KeepsParameters (tool newTool : Json) : Prop :=
  ∀ agent, tool = .obj agent → ∃ newAgent, newTool = .obj newAgent ∧ SameParameters agent newAgent

theorem KeepsParameters.refl (tool : Json) : KeepsParameters tool tool :=
  fun agent h => ⟨agent, h, .refl agent⟩

theorem KeepsParameters.trans {tool newTool newerTool : Json}
    (hfirst : KeepsParameters tool newTool) (hnext : KeepsParameters newTool newerTool) :
    KeepsParameters tool newerTool := by
  intro agent hagent
  obtain ⟨newAgent, hnew, hsame⟩ := hfirst agent hagent
  obtain ⟨newerAgent, hnewer, hsame'⟩ := hnext newAgent hnew
  exact ⟨newerAgent, hnewer, hsame.trans hsame'⟩

theorem keepsParameters_setToolValue {default : Default} (hdefault : default ∈ defaultsMapping)
    {path : List PyStr} (hpath : default.Sets path) {value tool newTool : Json}
    (h : setToolValue value path tool = .ok newTool) : KeepsParameters tool newTool := by
  rintro agent rfl
  rw [setToolValue_eq] at h
  exact ⟨_, (Except.ok.inj h).symm, sameParameters_setAt hdefault hpath value agent⟩

theorem keepsParameters_mergeDictionaries {overlay : Overlay} {default : Default}
    (hdefault : default ∈ defaultsMapping) {basis value : List (PyStr × Json)} {tool merged : Json}
    (h : mergeDictionaries overlay default basis value tool = .ok merged) :
    KeepsParameters tool merged := by
  unfold mergeDictionaries at h
  dsimp only at h
  split at h
  · cases h
  · rename_i first hfirst
    refine (keepsParameters_setToolValue hdefault (.inl rfl) hfirst).trans ?_
    -- the fields are set one after the other
    refine rel_of_foldlM_eq_ok KeepsParameters.refl KeepsParameters.trans ?_ h
    intro field _ next newer hnext
    split at hnext
    · cases hnext
    · exact keepsParameters_setToolValue hdefault (.inr ⟨field, rfl⟩) hnext

section Returns

variable {extractorGet : ExtractorGet} {overlay : Overlay} {config : List (PyStr × Json)}

/-- The name and the parameters stay where a default goes into an agent. -/
theorem keepsParameters_applyDefault {basisConfig : Json} {default : Default}
    (hdefault : default ∈ defaultsMapping) {isFrontMan : Bool} {tool newTool : Json}
    (h : applyDefault extractorGet overlay basisConfig isFrontMan tool default = .ok newTool) :
    KeepsParameters tool newTool := by
  unfold applyDefault at h
  split at h
  · cases h
  · exact Except.ok.inj h ▸ .refl tool
  · split at h
    · exact Except.ok.inj h ▸ .refl tool
    · split at h
      · cases h
      · exact keepsParameters_setToolValue hdefault (.inl rfl) h
      · split at h
        · exact keepsParameters_mergeDictionaries hdefault h
        · exact Except.ok.inj h ▸ .refl tool
      · exact Except.ok.inj h ▸ .refl tool

/-- The shared defaults go into every agent. -/
theorem applyDefaults_shared (hget : Extracts extractorGet) (isFrontMan : Bool)
    (tool : List (PyStr × Json)) :
    sharedDefaults.foldlM (applyDefault extractorGet overlay (.obj config) isFrontMan) (.obj tool) =
      .ok (.obj (putDefaults overlay (offer config isFrontMan) sharedDefaults tool)) := by
  have hshared : ∀ shared ∈ sharedDefaults, shared.dest ≠ [] ∧ shared.unionFields = [] := by
    decide
  unfold putDefaults
  refine foldlM_eq_ok sharedDefaults (fun shared hmem members => ?_) tool
  refine applyDefault_eq hget (hshared shared hmem).1 ?_
  intro basis value _ _ field hfield
  rw [(hshared shared hmem).2] at hfield
  exact absurd hfield List.not_mem_nil

theorem atPath_putDefaults_of_apart {offers : Default → Json} {path : List PyStr}
    (hpath : path ≠ []) (defaults : List Default)
    (hapart : ∀ default ∈ defaults, Apart default path)
    (tool : List (PyStr × Json)) :
    (Json.obj (putDefaults overlay offers defaults tool)).atPath path =
      (Json.obj tool).atPath path := by
  induction defaults generalizing tool with
  | nil => rfl
  | cons default rest ih =>
      rw [List.forall_mem_cons] at hapart
      exact (ih hapart.2 _).trans (atPath_putDefault hpath hapart.1)

/-- The default for the sly data goes into an agent, unless a union is to be made of what none can
be made. -/
theorem exists_applyDefault_schema_iff (hget : Extracts extractorGet) (isFrontMan : Bool)
    (tool : List (PyStr × Json)) :
    (∃ newTool, applyDefault extractorGet overlay (.obj config) isFrontMan (.obj tool)
      schemaDefault = .ok newTool) ↔ (isFrontMan = true → UnitesSchemas config tool) := by
  unfold applyDefault UnitesSchemas
  rw [hget, show ((Json.obj config).atPath _).getD _ = topValue config schemaDefault.sourceKey from
    rfl]
  cases isFrontMan with
  | false =>
      cases topValue config schemaDefault.sourceKey with
      | null => simp
      | _ => simp [schemaDefault]
  | true =>
      rw [hget, show schemaDefault.destKey.splitOn 46 = schemaDefault.dest from rfl]
      cases hoffered : topValue config schemaDefault.sourceKey with
      | null => simp
      | obj basis =>
          dsimp only
          rw [if_neg (by decide)]
          cases hvalue : (Json.obj tool).atPath schemaDefault.dest with
          | none => simp [setToolValue_eq]
          | some value =>
              rw [Option.getD_some]
              cases value with
              | obj value =>
                  dsimp only
                  unfold mergeDictionaries
                  dsimp only
                  rw [show schemaDefault.destKey.splitOn 46 = schemaDefault.dest from rfl,
                    setToolValue_eq, ← show [str "required"] = schemaDefault.unionFields from rfl]
                  dsimp only
                  rw [List.foldlM_cons]
                  have hunion := exists_unionOf_iff
                    ((Json.lookup basis (str "required")).getD (.arr []))
                    ((Json.lookup value (str "required")).getD (.arr []))
                  cases hu : unionOf ((Json.lookup basis (str "required")).getD (.arr []))
                      ((Json.lookup value (str "required")).getD (.arr [])) with
                  | error e =>
                      rw [hu] at hunion
                      simp only [reduceCtorEq, exists_false, false_iff] at hunion
                      simp [bind, Except.bind, hunion]
                  | ok union =>
                      rw [hu] at hunion
                      have hcan := hunion.mp ⟨union, rfl⟩
                      simp [bind, Except.bind, setToolValue_eq, hcan, pure, Except.pure]
              | null => simp [setToolValue_eq]
              | _ => simp
      | _ =>
          dsimp only
          rw [if_neg (by decide)]
          cases ((Json.obj tool).atPath schemaDefault.dest).getD .null with
          | null => simp [setToolValue_eq]
          | _ => simp

/-- All defaults go into an agent. -/
theorem exists_foldlM_applyDefault_iff (hget : Extracts extractorGet) (isFrontMan : Bool)
    (tool : List (PyStr × Json)) :
    (∃ newTool, defaultsMapping.foldlM
      (applyDefault extractorGet overlay (.obj config) isFrontMan) (.obj tool) = .ok newTool) ↔
        (isFrontMan = true → UnitesSchemas config tool) := by
  have hapart : ∀ shared ∈ sharedDefaults, Apart shared schemaDefault.dest := by
    unfold Apart
    decide
  have hsame := @atPath_putDefaults_of_apart overlay (offer config isFrontMan) _ (by decide)
    sharedDefaults hapart tool
  rw [defaultsMapping_eq, List.foldlM_append, applyDefaults_shared hget]
  show (∃ newTool, List.foldlM _ _ _ = _) ↔ _
  rw [List.foldlM_cons]
  have hiff := @exists_applyDefault_schema_iff extractorGet overlay config hget isFrontMan
    (putDefaults overlay (offer config isFrontMan) sharedDefaults tool)
  unfold UnitesSchemas at hiff ⊢
  rw [hsame] at hiff
  rw [← hiff]
  cases applyDefault extractorGet overlay (.obj config) isFrontMan _ schemaDefault with
  | error e => simp [bind, Except.bind]
  | ok newTool => simp [bind, Except.bind, pure, Except.pure]

end Returns

end DefaultsConfigFilter

/-! ### All agents -/

namespace DefaultsConfigFilter

variable {extractorGet : ExtractorGet} {overlay : Overlay} {config : List (PyStr × Json)}

/-- The defaults go into the agents, if the schema of the first can be merged. -/
theorem exists_applyDefaults_iff (hget : Extracts extractorGet)
    (agents : List (List (PyStr × Json))) :
    (∃ newAgents, applyDefaults extractorGet overlay (.obj config) (agents.map .obj) =
      .ok newAgents) ↔ ∀ first, agents.head? = some first → UnitesSchemas config first := by
  unfold applyDefaults
  rw [exists_mapM_ok_iff]
  constructor
  · intro h first hfirst
    have hmem : (Json.obj first, 0) ∈ (agents.map Json.obj).zipIdx := by
      rw [List.mk_mem_zipIdx_iff_getElem?, List.getElem?_map, ← List.head?_eq_getElem?, hfirst]
      rfl
    exact (exists_foldlM_applyDefault_iff hget true first).mp (h _ hmem) rfl
  · rintro h ⟨tool, i⟩ hmem
    rw [List.mk_mem_zipIdx_iff_getElem?, List.getElem?_map] at hmem
    obtain ⟨agent, hagent, rfl⟩ := Option.map_eq_some_iff.mp hmem
    refine (exists_foldlM_applyDefault_iff hget (i == 0) agent).mpr fun hfront => ?_
    obtain rfl : i = 0 := by simpa using hfront
    exact h agent (List.head?_eq_getElem? ▸ hagent)

/-- Names and parameters stay. -/
theorem keepsParameters_applyDefaults {basisConfig : Json} {tools newTools : List Json}
    (h : applyDefaults extractorGet overlay basisConfig tools = .ok newTools) :
    List.Forall₂ KeepsParameters tools newTools := by
  have hall := forall₂_of_mapM_eq_ok h
  have hkept : List.Forall₂ (fun (tool : Json × Nat) newTool => KeepsParameters tool.1 newTool)
      tools.zipIdx newTools := by
    refine hall.imp fun tool newTool htool => ?_
    exact rel_of_foldlM_eq_ok KeepsParameters.refl KeepsParameters.trans
      (fun default hdefault _ _ hstep => keepsParameters_applyDefault hdefault hstep) htool
  have hmap := (List.forall₂_map_left_iff (f := Prod.fst)).mpr hkept
  rwa [List.zipIdx_map_fst] at hmap

end DefaultsConfigFilter

/-! ## Names -/

namespace NameCorrectionConfigFilter

open DefaultsConfigFilter

variable {strOf : StrOf}

/-- The name of an agent can be written into a message. -/
def HasWritableName (strOf : StrOf) (agent : List (PyStr × Json)) : Prop :=
  ∀ name, Json.lookup agent (str "name") = some name →
    name = .null ∨ (∃ s, name = .str s) ∨ ∃ text, strOf name = .ok text

theorem exists_validateName_iff (name : Json) :
    (∃ newName, validateName strOf name = .ok newName) ↔
      name = .null ∨ (∃ s, name = .str s) ∨ ∃ text, strOf name = .ok text := by
  unfold validateName
  split
  · simp
  · simp
  · simp
  · rename_i hnull hempty hstr
    rw [exists_map_ok_iff, or_iff_right hnull, or_iff_right]
    rintro ⟨s, rfl⟩
    cases s with
    | nil => exact hempty rfl
    | cons c rest => exact hstr _ rfl

theorem exists_correctAgent_iff (agent : List (PyStr × Json)) :
    (∃ corrected, correctAgent strOf (.obj agent) = .ok corrected) ↔
      HasWritableName strOf agent := by
  have hname := @exists_validateName_iff strOf ((Json.lookup agent (str "name")).getD .null)
  have hwritable : HasWritableName strOf agent ↔ ∃ newName,
      validateName strOf ((Json.lookup agent (str "name")).getD .null) = .ok newName := by
    rw [hname]
    unfold HasWritableName
    cases Json.lookup agent (str "name") with
    | none => simp
    | some name => simp
  rw [hwritable]
  unfold correctAgent
  dsimp only
  cases validateName strOf ((Json.lookup agent (str "name")).getD .null) with
  | error e => simp
  | ok newName =>
      dsimp only
      refine iff_of_true ?_ ⟨newName, rfl⟩
      split
      · split <;> exact ⟨_, rfl⟩
      · exact ⟨_, rfl⟩

/-- A correction is stored under a key with a slash. -/
theorem keepsParameters_correctAgent {tool : Json} {corrected : Json × Option PyStr}
    (h : correctAgent strOf tool = .ok corrected) : KeepsParameters tool corrected.1 := by
  rintro agent rfl
  unfold correctAgent at h
  dsimp only at h
  split at h
  · cases h
  · rename_i newName hnew
    split at h
    · rename_i name hname
      split at h
      · obtain rfl := Except.ok.inj h
        exact ⟨agent, rfl, .refl agent⟩
      · rename_i hother
        obtain rfl := Except.ok.inj h
        refine ⟨_, rfl, .of_lookup fun key hkey => ?_⟩
        rw [Json.lookup_setItems, if_neg]
        rintro rfl
        -- the name has a slash, and none of these keys has
        have hslash : 47 ∈ key := by
          by_contra hfree
          obtain ⟨newName', hnew', hsame⟩ := exists_validateName strOf key
          rw [hname] at hnew
          obtain rfl := Except.ok.inj (hnew.symm.trans hnew')
          apply hother
          rcases hsame hfree with herror | heq
          · rw [herror, Bool.true_or]
          · rw [heq, beq_self_eq_true, Bool.or_true]
        simp only [List.mem_cons, List.not_mem_nil, or_false] at hkey
        rcases hkey with rfl | rfl | rfl
        · exact absurd hslash (by decide)
        · exact absurd hslash (by decide)
        · exact absurd hslash (by decide)
    · obtain rfl := Except.ok.inj h
      exact ⟨agent, rfl, .refl agent⟩

theorem keepsParameters_correctTools (corrections : List PyStr) (tool : Json) :
    KeepsParameters tool (correctTools corrections tool) := by
  rintro agent rfl
  unfold correctTools
  dsimp only
  split
  · refine ⟨_, rfl, .of_lookup fun key hkey => ?_⟩
    rw [Json.lookup_setItems, if_neg]
    rintro rfl
    exact absurd hkey (by decide)
  · exact ⟨agent, rfl, .refl agent⟩

theorem exists_correctNames_iff (agents : List (List (PyStr × Json))) :
    (∃ newAgents, correctNames strOf (agents.map .obj) = .ok newAgents) ↔
      ∀ agent ∈ agents, HasWritableName strOf agent := by
  unfold correctNames
  rw [exists_map_ok_iff, exists_mapM_ok_iff, List.forall_mem_map]
  exact forall_congr' fun agent => forall_congr' fun _ => exists_correctAgent_iff agent

theorem keepsParameters_correctNames {tools newTools : List Json}
    (h : correctNames strOf tools = .ok newTools) :
    List.Forall₂ KeepsParameters tools newTools := by
  obtain ⟨corrected, hcorrected, rfl⟩ := exists_of_map_eq_ok h
  rw [List.map_map, List.forall₂_map_right_iff]
  refine (forall₂_of_mapM_eq_ok hcorrected).imp fun tool entry hentry => ?_
  exact (keepsParameters_correctAgent hentry).trans (keepsParameters_correctTools _ entry.1)

end NameCorrectionConfigFilter

/-! ## Defaults and names together -/

open DefaultsConfigFilter NameCorrectionConfigFilter

/-- Tools of which dictionaries come are a list. -/
theorem lookup_tools_of_agentsOf {config : List (PyStr × Json)}
    {agents : List (List (PyStr × Json))} (hagents : agentsOf config = some (agents.map .obj))
    (hne : agents ≠ []) :
    Json.lookup config (str "tools") = some (.arr (agents.map .obj)) := by
  unfold agentsOf at hagents
  cases htools : Json.lookup config (str "tools") with
  | none =>
      rw [htools] at hagents
      cases hagents
  | some tools =>
      rw [htools, Option.getD_some] at hagents
      rw [Json.eq_arr_of_iterate hagents (by simpa using hne) fun agent hagent => by
        obtain ⟨members, -, rfl⟩ := List.mem_map.mp hagent
        exact ⟨members, rfl⟩]

/-- A change to the agents of a configuration. -/
theorem changeTools_of_agentsOf (change : List Json → Except PyError (List Json))
    {config : List (PyStr × Json)} {agents : List (List (PyStr × Json))}
    (hagents : agentsOf config = some (agents.map .obj)) :
    changeTools change (.obj config) =
      if agents = [] then .ok (.obj config)
      else (change (agents.map Json.obj)).map fun tools =>
        .obj (Dict.setItems config (str "tools") (.arr tools)) := by
  by_cases hne : agents = []
  · rw [if_pos hne, changeTools]
    rw [hne] at hagents
    unfold agentsOf at hagents
    have hnone : noTools ((Json.lookup config (str "tools")).getD .null) = .ok true := by
      unfold noTools
      split
      · rfl
      · rw [hagents]
        rfl
    rw [hnone]
  · exact changeTools_eq (lookup_tools_of_agentsOf hagents hne)

theorem changeTools_of_lookup_none (change : List Json → Except PyError (List Json))
    {config : List (PyStr × Json)} (htools : Json.lookup config (str "tools") = none) :
    changeTools change (.obj config) = .ok (.obj config) := by
  unfold changeTools
  dsimp only
  rw [htools]
  rfl

/-- The last two filters. -/
def resolve (extractorGet : ExtractorGet) (overlay : Overlay) (strOf : StrOf)
    (config : List (PyStr × Json)) : Except PyError Json :=
  DefaultsConfigFilter.filterConfig extractorGet overlay (.obj config) >>=
    NameCorrectionConfigFilter.filterConfig strOf

section Resolve

variable {extractorGet : ExtractorGet} {overlay : Overlay} {strOf : StrOf}
    {config : List (PyStr × Json)}

theorem agentsOf_setItems (config : List (PyStr × Json)) (agents : List Json) :
    agentsOf (Dict.setItems config (str "tools") (.arr agents)) = some agents := by
  unfold agentsOf
  rw [Json.lookup_setItems, if_pos rfl]
  rfl

/-- Dictionaries that are kept are dictionaries. -/
theorem exists_agents_of_kept {agents : List (List (PyStr × Json))} {newTools : List Json}
    (h : List.Forall₂ KeepsParameters (agents.map .obj) newTools) :
    ∃ newAgents, newTools = newAgents.map Json.obj ∧
      List.Forall₂ SameParameters agents newAgents := by
  induction agents generalizing newTools with
  | nil =>
      cases h
      exact ⟨[], rfl, .nil⟩
  | cons agent rest ih =>
      cases h with
      | cons hfirst hrest =>
          obtain ⟨newAgent, rfl, hsame⟩ := hfirst agent rfl
          obtain ⟨newAgents, rfl, hall⟩ := ih hrest
          exact ⟨newAgent :: newAgents, rfl, .cons hsame hall⟩

/-- Defaults and names are put into the agents, if the schemas can be merged and the names can be
written. -/
theorem exists_resolve_iff (hget : Extracts extractorGet) {agents : List (List (PyStr × Json))}
    (hagents : agentsOf config = some (agents.map .obj)) :
    (∃ resolved, resolve extractorGet overlay strOf config = .ok resolved) ↔
      (∀ first, agents.head? = some first → UnitesSchemas config first) ∧
        ∀ agent ∈ agents, HasWritableName strOf agent := by
  unfold resolve DefaultsConfigFilter.filterConfig
  rw [changeTools_of_agentsOf _ hagents]
  by_cases hne : agents = []
  · subst hne
    rw [if_pos rfl]
    show (∃ resolved, changeTools (correctNames strOf) (.obj config) = .ok resolved) ↔ _
    rw [changeTools_of_agentsOf _ hagents, if_pos rfl]
    simp
  · rw [if_neg hne, ← exists_applyDefaults_iff hget]
    cases hdefaults : applyDefaults extractorGet overlay (.obj config) (agents.map .obj) with
    | error e => simp [Except.map, bind, Except.bind]
    | ok newTools =>
        obtain ⟨newAgents, rfl, hsame⟩ :=
          exists_agents_of_kept (keepsParameters_applyDefaults hdefaults)
        have hnewne : newAgents ≠ [] := by
          rintro rfl
          exact hne (List.forall₂_nil_right_iff.mp hsame)
        show (∃ resolved, changeTools (correctNames strOf) (.obj (Dict.setItems config (str "tools")
          (.arr (newAgents.map .obj)))) = .ok resolved) ↔ _
        rw [changeTools_of_agentsOf _ (agentsOf_setItems config _), if_neg hnewne,
          exists_map_ok_iff, exists_correctNames_iff, and_iff_right ⟨_, rfl⟩]
        -- a name that stays can be written as before
        have hwritable : ∀ {agent newAgent : List (PyStr × Json)}, SameParameters agent newAgent →
            (HasWritableName strOf newAgent ↔ HasWritableName strOf agent) := by
          intro agent newAgent hkept
          unfold HasWritableName
          rw [hkept.name]
        clear hdefaults hnewne hne hagents
        induction hsame with
        | nil => simp
        | cons hfirst _ ih =>
            rw [List.forall_mem_cons, List.forall_mem_cons]
            exact and_congr (hwritable hfirst) ih

/-- What stays of the agents. -/
theorem of_resolve {agents : List (List (PyStr × Json))}
    (hagents : agentsOf config = some (agents.map .obj)) {resolved : Json}
    (h : resolve extractorGet overlay strOf config = .ok resolved) :
    ∃ newConfig newAgents, resolved = .obj newConfig ∧ newConfig ≠ [] ∧
      agentsOf newConfig = some (newAgents.map .obj) ∧
      List.Forall₂ SameParameters agents newAgents := by
  have hconfig : config ≠ [] := by
    rintro rfl
    cases hagents
  unfold resolve DefaultsConfigFilter.filterConfig at h
  rw [changeTools_of_agentsOf _ hagents] at h
  by_cases hne : agents = []
  · subst hne
    rw [if_pos rfl] at h
    obtain ⟨middle, hmiddle, h⟩ := exists_of_bind_ok h
    obtain rfl := Except.ok.inj hmiddle
    unfold NameCorrectionConfigFilter.filterConfig at h
    rw [changeTools_of_agentsOf _ hagents, if_pos rfl] at h
    exact ⟨config, [], (Except.ok.inj h).symm, hconfig, hagents, .nil⟩
  · rw [if_neg hne] at h
    obtain ⟨middle, hmiddle, h⟩ := exists_of_bind_ok h
    obtain ⟨tools, htools, rfl⟩ := exists_of_map_eq_ok hmiddle
    obtain ⟨middleAgents, rfl, hsame⟩ :=
      exists_agents_of_kept (keepsParameters_applyDefaults htools)
    have hmiddlene : middleAgents ≠ [] := by
      rintro rfl
      exact hne (List.forall₂_nil_right_iff.mp hsame)
    unfold NameCorrectionConfigFilter.filterConfig at h
    rw [changeTools_of_agentsOf _ (agentsOf_setItems config _), if_neg hmiddlene] at h
    obtain ⟨newTools, hnew, rfl⟩ := exists_of_map_eq_ok h
    obtain ⟨newAgents, rfl, hsame'⟩ :=
      exists_agents_of_kept (keepsParameters_correctNames hnew)
    exact ⟨_, newAgents, rfl, Json.setItems_ne_nil _ _ _, agentsOf_setItems _ _,
      forall₂_trans (R := SameParameters) SameParameters.trans hsame hsame'⟩

theorem resolve_of_lookup_none (htools : Json.lookup config (str "tools") = none) :
    resolve extractorGet overlay strOf config = .ok (.obj config) := by
  unfold resolve DefaultsConfigFilter.filterConfig
  rw [changeTools_of_lookup_none _ htools]
  exact changeTools_of_lookup_none _ htools

/-- A configuration into which defaults and names can be put: the schema of its front man and the
one at the top can be merged, and the names of its agents can be written. -/
structure CanResolve (strOf : StrOf) (config : List (PyStr × Json)) : Prop where
  united : ∀ agents : List (List (PyStr × Json)), agentsOf config = some (agents.map .obj) →
    ∀ first, agents.head? = some first → UnitesSchemas config first
  writable : ∀ agents : List (List (PyStr × Json)), agentsOf config = some (agents.map .obj) →
    ∀ agent ∈ agents, HasWritableName strOf agent

theorem exists_resolve_iff_canResolve (hget : Extracts extractorGet)
    (hdicts : HasDictAgents config) :
    (∃ resolved, resolve extractorGet overlay strOf config = .ok resolved) ↔
      CanResolve strOf config := by
  rcases hdicts with htools | ⟨agents, hagents⟩
  · have hnone : ∀ agents : List (List (PyStr × Json)),
        agentsOf config ≠ some (agents.map .obj) := by
      intro agents h
      unfold agentsOf at h
      rw [htools] at h
      cases h
    exact iff_of_true ⟨_, resolve_of_lookup_none htools⟩
      ⟨fun agents h => absurd h (hnone agents), fun agents h => absurd h (hnone agents)⟩
  · rw [exists_resolve_iff hget hagents]
    have honly : ∀ {others : List (List (PyStr × Json))},
        agentsOf config = some (others.map .obj) → others = agents := by
      intro others hothers
      have hsame := Option.some.inj (hothers.symm.trans hagents)
      exact List.map_injective_iff.mpr (fun _ _ => Json.obj.inj) hsame
    constructor
    · rintro ⟨hunited, hwritable⟩
      refine ⟨fun others hothers => ?_, fun others hothers => ?_⟩
      · rwa [honly hothers]
      · rwa [honly hothers]
    · intro h
      exact ⟨h.united agents hagents, h.writable agents hagents⟩

end Resolve

/-! ## All filters -/

namespace NetworkConfigFilterChain

/-- The filters for definitions come first, and then those for defaults and names. -/
theorem filterConfig_eq_bind (extractorGet : ExtractorGet) (overlay : Overlay) (strOf : StrOf)
    (config : List (PyStr × Json)) :
    filterConfig extractorGet overlay strOf (.obj config) =
      putDefinitions config >>= fun defined =>
        DefaultsConfigFilter.filterConfig extractorGet overlay defined >>=
          NameCorrectionConfigFilter.filterConfig strOf := by
  unfold filterConfig putDefinitions
  simp only [List.foldlM_cons, List.foldlM_nil, bind_assoc, bind_pure]

theorem filterConfig_eq (extractorGet : ExtractorGet) (overlay : Overlay) (strOf : StrOf)
    {config defined : List (PyStr × Json)} (h : putDefinitions config = .ok (.obj defined)) :
    filterConfig extractorGet overlay strOf (.obj config) =
      resolve extractorGet overlay strOf defined := by
  rw [filterConfig_eq_bind, h]
  rfl

end NetworkConfigFilterChain

end NoraFleet.Networks
