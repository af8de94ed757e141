import Mathlib
import NoraFleet.Networks.ResolvedConfigs
import NoraFleet.Validation.Legibility

/-!
# What is reported of an agent

Two validators look at the shapes of an agent, and two at its parameters.

* `shapeErrors_eq_nil_iff` — the agents whose shapes are not reported;
* `parametersErrors_eq_nil_iff` — the parameters that are not reported;
* `exists_semanticErrors_iff` — the parameters that can be looked through;
* `located_of_same` — agents that keep their names and parameters are reported alike.
-/

namespace NoraFleet.Validation

open Base Networks AbstractNetworkValidator

/-! ## Shapes -/

/-- A list in which every value is of a kind, or null. -/
structure WellShaped (agent : List (PyStr × Json)) : Prop where
  tools : ∀ tools, Json.lookup agent (str "tools") = some tools → tools = .null ∨
    ∃ items, tools = .arr items ∧
      ∀ tool ∈ items, (∃ name, tool = .str name) ∨ ∃ members, tool = .obj members
  argsTools : ∀ args, Json.lookup agent (str "args") = some (.obj args) →
    ∀ argsTools, Json.lookup args (str "tools") = some argsTools →
    (∃ items, argsTools = .arr items ∧ ∀ tool ∈ items, ∃ name, tool = .str name) ∨
      ∃ entries, argsTools = .obj entries ∧ ∀ entry ∈ entries, ∃ name, entry.2 = .str name
  function : ∀ function, Json.lookup agent (str "function") = some function →
    function = .null ∨ ∃ members, function = .obj members
  description : ∀ function, Json.lookup agent (str "function") = some (.obj function) →
    ∀ description, Json.lookup function (str "description") = some description →
    description = .null ∨ ∃ s, description = .str s ∧ strip s ≠ []
  instructions : ∀ instructions, Json.lookup agent (str "instructions") = some instructions →
    instructions = .null ∨ ∃ s, instructions = .str s ∧ strip s ≠ []

namespace ToolsShapeValidator

theorem isStr_iff (value : Json) : isStr value = true ↔ ∃ name, value = .str name := by
  cases value <;> simp [isStr]

theorem isStrOrDict_iff (value : Json) : isStrOrDict value = true ↔
    (∃ name, value = .str name) ∨ ∃ members, value = .obj members := by
  cases value <;> simp [isStrOrDict]

theorem validateTools_eq_nil_iff (agentName : PyStr) (agent : List (PyStr × Json)) :
    validateTools agentName agent = [] ↔
      ∀ tools, Json.lookup agent (str "tools") = some tools → tools = .null ∨
        ∃ items, tools = .arr items ∧
          ∀ tool ∈ items, (∃ name, tool = .str name) ∨ ∃ members, tool = .obj members := by
  unfold validateTools
  cases Json.lookup agent (str "tools") with
  | none => simp
  | some tools =>
      cases tools with
      | arr items => simp [checkElementTypes_eq_nil_iff, isStrOrDict_iff]
      | null => simp
      | bool b => simp
      | int n => simp
      | float x => simp
      | str s => simp
      | obj members => simp

theorem checkEntryTypes_eq_nil_iff (repr : PyStr → PyStr) (allowed : Json → Bool)
    (typeLabel agentName fieldPrefix : PyStr) (items : List (PyStr × Json)) :
    checkEntryTypes repr allowed typeLabel agentName fieldPrefix items = [] ↔
      ∀ entry ∈ items, allowed entry.2 = true := by
  unfold checkEntryTypes
  rw [List.filterMap_eq_nil_iff]
  refine forall_congr' fun entry => forall_congr' fun _ => ?_
  cases allowed entry.2 with
  | true => simp
  | false => simp

theorem validateArgsTools_eq_nil_iff (repr : PyStr → PyStr) (agentName : PyStr)
    (agent : List (PyStr × Json)) :
    validateArgsTools repr agentName agent = [] ↔
      ∀ args, Json.lookup agent (str "args") = some (.obj args) →
        ∀ argsTools, Json.lookup args (str "tools") = some argsTools →
        (∃ items, argsTools = .arr items ∧ ∀ tool ∈ items, ∃ name, tool = .str name) ∨
          ∃ entries, argsTools = .obj entries ∧ ∀ entry ∈ entries, ∃ name, entry.2 = .str name := by
  unfold validateArgsTools
  cases Json.lookup agent (str "args") with
  | none => simp
  | some args =>
      cases args with
      | obj args =>
          dsimp only
          cases hargs : Json.lookup args (str "tools") with
          | none => simp [hargs]
          | some argsTools =>
              cases argsTools with
              | arr items => simp [hargs, checkElementTypes_eq_nil_iff, isStr_iff]
              | obj entries => simp [hargs, checkEntryTypes_eq_nil_iff, isStr_iff]
              | null => simp [hargs]
              | bool b => simp [hargs]
              | int n => simp [hargs]
              | float x => simp [hargs]
              | str s => simp [hargs]
      | null => simp
      | bool b => simp
      | int n => simp
      | float x => simp
      | str s => simp
      | arr items => simp

end ToolsShapeValidator

namespace KeywordNetworkValidator

theorem validateInstructions_eq_nil_iff (agentName : PyStr) (agent : List (PyStr × Json)) :
    validateInstructions agentName agent = [] ↔
      ∀ instructions, Json.lookup agent (str "instructions") = some instructions →
        instructions = .null ∨ ∃ s, instructions = .str s ∧ strip s ≠ [] := by
  unfold validateInstructions
  cases Json.lookup agent (str "instructions") with
  | none => simp
  | some instructions =>
      cases instructions with
      | str s => simp
      | null => simp
      | bool b => simp
      | int n => simp
      | float x => simp
      | arr items => simp
      | obj members => simp

theorem validateDescription_eq_nil_iff (agentName : PyStr) (agent : List (PyStr × Json)) :
    validateDescription agentName agent = [] ↔
      (∀ function, Json.lookup agent (str "function") = some function →
        function = .null ∨ ∃ members, function = .obj members) ∧
      ∀ function, Json.lookup agent (str "function") = some (.obj function) →
        ∀ description, Json.lookup function (str "description") = some description →
        description = .null ∨ ∃ s, description = .str s ∧ strip s ≠ [] := by
  unfold validateDescription
  cases Json.lookup agent (str "function") with
  | none => simp
  | some function =>
      cases function with
      | obj function =>
          dsimp only
          cases hdescription : Json.lookup function (str "description") with
          | none => simp [hdescription]
          | some description =>
              cases description with
              | str s => simp [hdescription]
              | null => simp [hdescription]
              | bool b => simp [hdescription]
              | int n => simp [hdescription]
              | float x => simp [hdescription]
              | arr items => simp [hdescription]
              | obj members => simp [hdescription]
      | null => simp
      | bool b => simp
      | int n => simp
      | float x => simp
      | str s => simp
      | arr items => simp

end KeywordNetworkValidator

/-- Nothing is reported of the shape of an agent if and only if it is well shaped. -/
theorem shapeErrors_eq_nil_iff (texts : Texts) (agentName : Key) (agent : List (PyStr × Json)) :
    toolsShapeErrors texts agentName agent = [] ∧ keywordErrors texts agentName agent = [] ↔
      WellShaped agent := by
  unfold toolsShapeErrors keywordErrors
  rw [List.map_eq_nil_iff, List.map_eq_nil_iff, List.append_eq_nil_iff, List.append_eq_nil_iff,
    ToolsShapeValidator.validateTools_eq_nil_iff, ToolsShapeValidator.validateArgsTools_eq_nil_iff,
    KeywordNetworkValidator.validateDescription_eq_nil_iff,
    KeywordNetworkValidator.validateInstructions_eq_nil_iff]
  constructor
  · rintro ⟨⟨htools, hargsTools⟩, ⟨hfunction, hdescription⟩, hinstructions⟩
    exact ⟨htools, hargsTools, hfunction, hdescription, hinstructions⟩
  · rintro ⟨htools, hargsTools, hfunction, hdescription, hinstructions⟩
    exact ⟨⟨htools, hargsTools⟩, ⟨hfunction, hdescription⟩, hinstructions⟩

/-! ## Parameters -/

/-- A schema on its own: what it requires can be looked for. -/
def HasHashableRequired (schema : List (PyStr × Json)) : Prop :=
  ∀ properties, Json.lookup schema (str "properties") = some (.obj properties) →
    ∀ required, Json.lookup schema (str "required") = some (.arr required) →
      ∀ r ∈ required, Key.IsHashable r

theorem isUnhashable_eq_false_iff (v : Json) : isUnhashable v = false ↔ Key.IsHashable v := by
  unfold Key.IsHashable
  cases v with
  | float x => cases hplace : x.place <;> simp [isUnhashable, Key.ofJson, hplace]
  | null => simp [isUnhashable, Key.ofJson]
  | bool b => simp [isUnhashable, Key.ofJson]
  | int n => simp [isUnhashable, Key.ofJson]
  | str s => simp [isUnhashable, Key.ofJson]
  | arr items => simp [isUnhashable, Key.ofJson]
  | obj members => simp [isUnhashable, Key.ofJson]

theorem exists_undefinedRequired_iff (schema : List (PyStr × Json)) (path : PyStr) :
    (∃ errors, undefinedRequired schema path = .ok errors) ↔ HasHashableRequired schema := by
  unfold undefinedRequired HasHashableRequired
  split
  · rename_i properties required hproperties hrequired
    rw [hproperties, hrequired]
    simp only [Option.some.injEq, Json.obj.injEq, Json.arr.injEq, forall_eq']
    split
    · rename_i hany
      obtain ⟨r, hr, hunhashable⟩ := List.any_eq_true.mp hany
      constructor
      · rintro ⟨errors, h⟩
        cases h
      · intro h
        rw [(isUnhashable_eq_false_iff r).mpr (h r hr)] at hunhashable
        cases hunhashable
    · rename_i hany
      refine iff_of_true ⟨_, rfl⟩ fun r hr => ?_
      rw [← isUnhashable_eq_false_iff]
      rw [Bool.not_eq_true, List.any_eq_false] at hany
      simpa using hany r hr
  · rename_i hnot
    refine iff_of_true ⟨_, rfl⟩ fun properties hproperties required hrequired => ?_
    exact absurd hrequired (hnot properties required hproperties)

/-- The required fields are looked for, in a schema and in all below it, where they can be. -/
theorem exists_checkRequiredRefs_iff (schema : List (PyStr × Json)) (path : PyStr) :
    (∃ errors, checkRequiredRefs schema path = .ok errors) ↔
      ∀ inner, Within schema inner → HasHashableRequired inner := by
  induction hsize : sizeOf schema using Nat.strong_induction_on generalizing schema path with
  | _ size ih =>
      have hbelow : (∃ below, ((iterSubschemas schema path).attach.mapM fun child =>
            checkRequiredRefs child.1.1 child.1.2) = .ok below) ↔
          ∀ child, IsSubschema schema child →
            ∀ inner, Within child inner → HasHashableRequired inner := by
        rw [exists_mapM_ok_iff]
        constructor
        · intro h child hchild
          obtain ⟨childPath, hmem⟩ := (exists_mem_iterSubschemas_iff path).mpr hchild
          have hchecked := h ⟨(child, childPath), hmem⟩ (List.mem_attach _ _)
          exact (ih (sizeOf child) (hsize ▸ hchild.sizeOf_lt) child childPath rfl).mp hchecked
        · intro h child _
          have hchild := (exists_mem_iterSubschemas_iff path).mp ⟨child.1.2, child.2⟩
          exact (ih (sizeOf child.1.1) (hsize ▸ hchild.sizeOf_lt) child.1.1 child.1.2 rfl).mpr
            (h child.1.1 hchild)
      rw [checkRequiredRefs, forall_within_iff (P := HasHashableRequired), ← hbelow,
        ← exists_undefinedRequired_iff schema path]
      cases undefinedRequired schema path with
      | error e => simp
      | ok errors =>
          dsimp only
          rw [exists_map_ok_iff]
          simp

/-- Parameters that can be looked through. -/
def CanCheck (params : Option Json) : Prop :=
  ∀ members, params = some (.obj members) →
    ∀ inner, Within members inner → HasHashableRequired inner

theorem exists_semanticErrors_iff (params : Option Json) :
    (∃ errors, semanticErrors params = .ok errors) ↔ CanCheck params := by
  unfold semanticErrors CanCheck
  split
  · rename_i members
    rw [exists_map_ok_iff, exists_checkRequiredRefs_iff]
    simp
  · rename_i hnot
    refine iff_of_true ⟨_, rfl⟩ fun members hmembers => ?_
    exact absurd hmembers (hnot members)

/-- Parameters of which nothing is reported: there are none, or they are an object that can be
converted and whose required fields are all there. -/
def FaultlessParameters (hasBaseModelAttribute : PyStr → Bool) (params : Option Json) : Prop :=
  params = none ∨ ∃ members, params = some (.obj members) ∧ IsSound members ∧
    ∀ properties, Json.lookup members (str "properties") = some (.obj properties) →
      properties ≠ [] → Tools.SupportedObject hasBaseModelAttribute members

theorem parametersErrors_eq_nil_iff (hasBaseModelAttribute : PyStr → Bool) (params : Option Json) :
    pydanticErrors hasBaseModelAttribute params = [] ∧ semanticErrors params = .ok [] ↔
      FaultlessParameters hasBaseModelAttribute params := by
  unfold FaultlessParameters
  cases params with
  | none => exact iff_of_true ⟨rfl, rfl⟩ (.inl rfl)
  | some params =>
      rw [or_iff_right (Option.some_ne_none params)]
      cases params with
      | obj members =>
          rw [silent_pydantic_iff, silent_semantic_iff, and_comm]
          simp
      | null => simp [pydanticErrors]
      | bool b => simp [pydanticErrors]
      | int n => simp [pydanticErrors]
      | float x => simp [pydanticErrors]
      | str s => simp [pydanticErrors]
      | arr items => simp [pydanticErrors]

/-! ## Parameters by name -/

/-- The names of agents with their parameters. -/
def located (entries : List (Key × Json)) : List (Key × Option Json) :=
  entries.map fun agent => (agent.1, locateParameters agent.2)

/-- The table of the parameters is that of the agents. -/
theorem mem_tableOf_located {entries : List (Key × Json)} {name : Key} {params : Option Json} :
    (name, params) ∈ (tableOf (located entries)).items ↔
      ∃ spec, (name, spec) ∈ (tableOf entries).items ∧ locateParameters spec = params := by
  have hempty : ∀ key : Key, (Dict.empty : Dict Key (Option Json)).get? key =
      ((Dict.empty : Dict Key Json).get? key).map locateParameters := fun _ => rfl
  have hview := Dict.get?_update_map hempty Prod.fst Prod.snd entries name
  rw [show (entries.map fun x => (x.1, x.2)) = entries from List.map_id entries] at hview
  rw [← Dict.get?_eq_some_iff]
  show (Dict.empty.update (located entries)).get? name = some params ↔ _
  unfold located
  rw [hview, Option.map_eq_some_iff]
  exact exists_congr fun spec => and_congr_left fun _ => Dict.get?_eq_some_iff

theorem locateParameters_obj (agent : List (PyStr × Json)) :
    locateParameters (.obj agent) =
      (DefaultsConfigFilter.functionParameters agent <|> Json.lookup agent (str "parameters")) := by
  unfold locateParameters DefaultsConfigFilter.functionParameters
  dsimp only
  cases Json.lookup agent (str "function") with
  | none => rfl
  | some function => cases function <;> rfl

theorem listed_of_agentsOf {config : List (PyStr × Json)} {agents : List Json}
    (h : AbstractCommonDefsConfigFilter.agentsOf config = some agents) :
    listedAgents config = agents.mapM named := by
  unfold AbstractCommonDefsConfigFilter.agentsOf at h
  unfold listedAgents
  cases htools : Json.lookup config (str "tools") with
  | none =>
      rw [htools] at h
      cases h
  | some tools =>
      rw [htools, Option.getD_some] at h
      dsimp only
      rw [h]

theorem map_map_mapM {α β γ : Type} (f : α → Except PyError β) (g : β → γ) (l : List α) :
    (l.mapM f).map (List.map g) = l.mapM fun a => (f a).map g := by
  induction l with
  | nil => rfl
  | cons a rest ih =>
      rw [List.mapM_cons, List.mapM_cons, ← ih]
      cases f a with
      | error e => rfl
      | ok b =>
          cases rest.mapM f with
          | error e => rfl
          | ok bs => rfl

/-- Agents that keep their names and parameters are listed with them. -/
theorem located_of_same {agents newAgents : List (List (PyStr × Json))}
    (h : List.Forall₂ DefaultsConfigFilter.SameParameters agents newAgents) :
    ((newAgents.map Json.obj).mapM named).map located =
      ((agents.map Json.obj).mapM named).map located := by
  unfold located
  rw [map_map_mapM, map_map_mapM]
  induction h with
  | nil => rfl
  | @cons agent newAgent rest newRest hfirst _ ih =>
      have hnames : nameOf (.obj newAgent) = nameOf (.obj agent) := by
        unfold nameOf
        dsimp only [asDict]
        rw [hfirst.name]
      have hparams : locateParameters (.obj newAgent) = locateParameters (.obj agent) := by
        rw [locateParameters_obj, locateParameters_obj, hfirst.function, hfirst.own]
      have hsame : (named (.obj newAgent)).map (fun agent => (agent.1, locateParameters agent.2)) =
          (named (.obj agent)).map fun agent => (agent.1, locateParameters agent.2) := by
        unfold named
        rw [hnames]
        cases nameOf (.obj agent) with
        | error e => rfl
        | ok name =>
            show Except.ok (name, _) = Except.ok (name, _)
            rw [hparams]
      rw [List.map_cons, List.map_cons, List.mapM_cons, List.mapM_cons, hsame, ih]

end NoraFleet.Validation
