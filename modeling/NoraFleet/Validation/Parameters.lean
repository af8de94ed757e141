import NoraFleet.Base.Flow
import NoraFleet.Tools.BaseModels

/-!
# Validating parameters

`PydanticParametersNetworkValidator` converts the parameters of every agent as the runtime
does, where they have properties. `SemanticParametersNetworkValidator` looks through them,
their properties and their items for a nested `parameters` key and for required fields that
are not there.

* `silent_pydantic_iff` — when the first reports nothing of an agent;
* `silent_semantic_iff` — when the second reports nothing, in terms of everything that is
  `Within` the parameters.
-/

namespace NoraFleet.Validation

open Base Tools

/-! ## The validators -/

/-- What the validators report of an agent. -/
inductive ParametersError where
  | isNull
  | notObject (got : PyStr)
  | conversionFailed (detail : ToolSpecError)
  | nestedParameters (nestedPath : PyStr)
  | undefinedRequired (path : PyStr) (missing : List Json)

/-- `_locate_parameters(agent_spec)`; `none` is `_PARAMS_NOT_FOUND`. -/
def locateParameters (agentSpec : Json) : Option Json :=
  match agentSpec with
  | .obj spec =>
      match Json.lookup spec (str "function") with
      | some (.obj function) =>
          Json.lookup function (str "parameters") <|> Json.lookup spec (str "parameters")
      | _ => Json.lookup spec (str "parameters")
  | _ => none

section Validators

variable (hasBaseModelAttribute : PyStr → Bool)

/-- What the first validator reports of the parameters of an agent. -/
def pydanticErrors : Option Json → List ParametersError
  | none => []
  | some .null => [.isNull]
  | some (.obj params) =>
      match Json.lookup params (str "properties") with
      | some (.obj (_ :: _)) =>
          match openaiFunctionToPydantic hasBaseModelAttribute (str "parameters") params with
          | .error e => [.conversionFailed e]
          | .ok _ => []
      | _ => []
  | some params => [.notObject (typeName params)]

/-- `validate_name_to_spec_dict(name_to_spec)` of the first. -/
def validatePydanticParameters {Name : Type} (nameToSpec : List (Name × Json)) :
    List (Name × ParametersError) :=
  nameToSpec.flatMap fun agent =>
    (pydanticErrors hasBaseModelAttribute (locateParameters agent.2)).map fun e => (agent.1, e)

end Validators

/-- A property as a schema below another. -/
def propertySubschema (path : PyStr) (property : PyStr × Json) :
    Option (List (PyStr × Json) × PyStr) :=
  match property.2 with
  | .obj propSchema => some (propSchema, path ++ str ".properties." ++ property.1)
  | _ => none

/-- `_iter_subschemas(schema, path)`. -/
def iterSubschemas (schema : List (PyStr × Json)) (path : PyStr) :
    List (List (PyStr × Json) × PyStr) :=
  (match Json.lookup schema (str "properties") with
    | some (.obj properties) => properties.filterMap (propertySubschema path)
    | _ => []) ++
  match Json.lookup schema (str "items") with
  | some (.obj items) => [(items, path ++ str ".items")]
  | _ => []

/-- A schema that is a property or the items of another. -/
inductive IsSubschema (schema child : List (PyStr × Json)) : Prop
  | property {properties : List (PyStr × Json)} {name : PyStr} :
      Json.lookup schema (str "properties") = some (.obj properties) →
      (name, .obj child) ∈ properties → IsSubschema schema child
  | items : Json.lookup schema (str "items") = some (.obj child) → IsSubschema schema child

theorem exists_mem_iterSubschemas_iff {schema child : List (PyStr × Json)} (path : PyStr) :
    (∃ childPath, (child, childPath) ∈ iterSubschemas schema path) ↔
      IsSubschema schema child := by
  constructor
  · rintro ⟨childPath, hmem⟩
    rcases List.mem_append.mp hmem with hmem | hmem
    · split at hmem
      · rename_i properties hproperties
        obtain ⟨⟨name, value⟩, hproperty, hsub⟩ := List.mem_filterMap.mp hmem
        unfold propertySubschema at hsub
        split at hsub
        · rename_i propSchema hvalue
          obtain ⟨rfl, -⟩ := Prod.mk.inj (Option.some.inj hsub)
          obtain rfl : value = .obj propSchema := hvalue
          exact .property hproperties hproperty
        · cases hsub
      · exact absurd hmem List.not_mem_nil
    · split at hmem
      · rename_i items hitems
        obtain ⟨rfl, -⟩ := Prod.mk.inj (List.mem_singleton.mp hmem)
        exact .items hitems
      · exact absurd hmem List.not_mem_nil
  · intro h
    cases h with
    | @property properties name hproperties hmem =>
        refine ⟨path ++ str ".properties." ++ name, List.mem_append_left _ ?_⟩
        rw [hproperties]
        exact List.mem_filterMap.mpr ⟨_, hmem, rfl⟩
    | items hitems =>
        refine ⟨path ++ str ".items", List.mem_append_right _ ?_⟩
        rw [hitems]
        exact List.mem_singleton_self _

theorem IsSubschema.sizeOf_lt {schema child : List (PyStr × Json)} (h : IsSubschema schema child) :
    sizeOf child < sizeOf schema := by
  cases h with
  | property hproperties hmem =>
      have hlookup := sizeOf_lookup hproperties
      have hlt := List.sizeOf_lt_of_mem hmem
      simp only [Prod.mk.sizeOf_spec, Json.obj.sizeOf_spec] at hlookup hlt
      omega
  | items hitems =>
      have hlookup := sizeOf_lookup hitems
      simp only [Json.obj.sizeOf_spec] at hlookup
      omega

theorem sizeOf_subschema {schema : List (PyStr × Json)} {path : PyStr}
    (child : { child // child ∈ iterSubschemas schema path }) :
    sizeOf child.1.1 < sizeOf schema :=
  IsSubschema.sizeOf_lt ((exists_mem_iterSubschemas_iff path).mp ⟨child.1.2, child.2⟩)

/-- `_find_nested_parameters_keys(schema, path)`. -/
def findNestedParametersKeys (schema : List (PyStr × Json)) (path : PyStr) : List PyStr :=
  (if (Json.lookup schema (str "parameters")).isSome then [path] else []) ++
    (iterSubschemas schema path).attach.flatMap fun child =>
      findNestedParametersKeys child.1.1 child.1.2
termination_by sizeOf schema
decreasing_by exact sizeOf_subschema child

/-- `hash(value)` raises. -/
def isUnhashable : Json → Bool
  | .arr _ | .obj _ => true
  | _ => false

/-- `value in properties`, of what can be hashed. -/
def isKeyOf (properties : List (PyStr × Json)) : Json → Bool
  | .str name => (Json.lookup properties name).isSome
  | _ => false

/-- The required fields of a schema that are not there. -/
def undefinedRequired (params : List (PyStr × Json)) (path : PyStr) :
    Except PyError (List ParametersError) :=
  match Json.lookup params (str "properties"), Json.lookup params (str "required") with
  | some (.obj properties), some (.arr required) =>
      if required.any isUnhashable then .error .typeError
      else
        let missing := required.filter fun r => !isKeyOf properties r
        .ok (if missing.isEmpty then [] else [.undefinedRequired path missing])
  | _, _ => .ok []

/-- `_check_required_refs(agent_name, params, path)`. -/
def checkRequiredRefs (params : List (PyStr × Json)) (path : PyStr) :
    Except PyError (List ParametersError) :=
  match undefinedRequired params path with
  | .error e => .error e
  | .ok errors =>
      ((iterSubschemas params path).attach.mapM fun child =>
        checkRequiredRefs child.1.1 child.1.2).map fun below => errors ++ below.flatten
termination_by sizeOf params
decreasing_by exact sizeOf_subschema child

/-- What the second validator reports of the parameters of an agent. -/
def semanticErrors : Option Json → Except PyError (List ParametersError)
  | some (.obj params) =>
      (checkRequiredRefs params (str "parameters")).map fun errors =>
        (findNestedParametersKeys params (str "parameters")).map .nestedParameters ++ errors
  | _ => .ok []

/-- `validate_name_to_spec_dict(name_to_spec)` of the second. -/
def validateSemanticParameters {Name : Type} (nameToSpec : List (Name × Json)) :
    Except PyError (List (Name × ParametersError)) :=
  (nameToSpec.mapM fun agent =>
    (semanticErrors (locateParameters agent.2)).map fun errors =>
      errors.map fun e => (agent.1, e)).map List.flatten

/-! ## When they are silent -/

/-- Everything that the second validator looks at, from a schema on. -/
inductive Within : List (PyStr × Json) → List (PyStr × Json) → Prop
  | self (schema : List (PyStr × Json)) : Within schema schema
  | sub {schema child inner : List (PyStr × Json)} : IsSubschema schema child →
      Within child inner → Within schema inner

/-- What holds within a schema holds of it, and within its subschemas. -/
theorem forall_within_iff {P : List (PyStr × Json) → Prop} (schema : List (PyStr × Json)) :
    (∀ inner, Within schema inner → P inner) ↔
      P schema ∧ ∀ child, IsSubschema schema child → ∀ inner, Within child inner → P inner := by
  constructor
  · intro h
    exact ⟨h schema (.self schema), fun child hchild inner hinner =>
      h inner (.sub hchild hinner)⟩
  · rintro ⟨hself, hbelow⟩ inner hinner
    cases hinner with
    | self => exact hself
    | sub hchild hinner => exact hbelow _ hchild inner hinner

theorem findNestedParametersKeys_eq_nil_iff (schema : List (PyStr × Json)) (path : PyStr) :
    findNestedParametersKeys schema path = [] ↔
      ∀ inner, Within schema inner → Json.lookup inner (str "parameters") = none := by
  induction hsize : sizeOf schema using Nat.strong_induction_on generalizing schema path with
  | _ size ih =>
      rw [findNestedParametersKeys, List.append_eq_nil_iff, List.flatMap_eq_nil_iff,
        forall_within_iff (P := fun inner => Json.lookup inner (str "parameters") = none)]
      apply and_congr
      · cases Json.lookup schema (str "parameters") with
        | none => simp
        | some value => simp
      · constructor
        · intro h child hchild
          obtain ⟨childPath, hmem⟩ := (exists_mem_iterSubschemas_iff path).mpr hchild
          have hnil := h ⟨(child, childPath), hmem⟩ (List.mem_attach _ _)
          exact (ih (sizeOf child) (hsize ▸ hchild.sizeOf_lt) child childPath rfl).mp hnil
        · intro h child _
          have hchild := (exists_mem_iterSubschemas_iff path).mp ⟨child.1.2, child.2⟩
          exact (ih (sizeOf child.1.1) (hsize ▸ hchild.sizeOf_lt) child.1.1 child.1.2 rfl).mpr
            (h child.1.1 hchild)

/-- A schema on its own: its required fields are all there. -/
def Defined (schema : List (PyStr × Json)) : Prop :=
  ∀ properties required,
    Json.lookup schema (str "properties") = some (.obj properties) →
    Json.lookup schema (str "required") = some (.arr required) →
    ∀ r ∈ required, ∃ name, r = .str name ∧ (Json.lookup properties name).isSome

theorem isKeyOf_iff {properties : List (PyStr × Json)} {r : Json} :
    isKeyOf properties r = true ↔
      ∃ name, r = .str name ∧ (Json.lookup properties name).isSome := by
  cases r with
  | str name => simp [isKeyOf]
  | null => simp [isKeyOf]
  | bool b => simp [isKeyOf]
  | int n => simp [isKeyOf]
  | float x => simp [isKeyOf]
  | arr items => simp [isKeyOf]
  | obj members => simp [isKeyOf]

theorem undefinedRequired_eq_nil_iff (schema : List (PyStr × Json)) (path : PyStr) :
    undefinedRequired schema path = .ok [] ↔ Defined schema := by
  unfold undefinedRequired Defined
  split
  · rename_i properties required hproperties hrequired
    have hall : (∀ ps rs, Json.lookup schema (str "properties") = some (.obj ps) →
        Json.lookup schema (str "required") = some (.arr rs) →
        ∀ r ∈ rs, ∃ name, r = .str name ∧ (Json.lookup ps name).isSome) ↔
          ∀ r ∈ required, isKeyOf properties r = true := by
      constructor
      · intro h r hr
        exact isKeyOf_iff.mpr (h properties required hproperties hrequired r hr)
      · intro h ps rs hps hrs r hr
        obtain rfl := Json.obj.inj (Option.some.inj (hproperties.symm.trans hps))
        obtain rfl := Json.arr.inj (Option.some.inj (hrequired.symm.trans hrs))
        exact isKeyOf_iff.mp (h r hr)
    rw [hall]
    split
    · rename_i hunhashable
      obtain ⟨r, hr, hbad⟩ := List.any_eq_true.mp hunhashable
      constructor
      · intro h
        cases h
      · intro h
        obtain ⟨name, rfl, -⟩ := isKeyOf_iff.mp (h r hr)
        cases hbad
    · dsimp only
      split
      · rename_i hempty
        rw [List.isEmpty_iff, List.filter_eq_nil_iff] at hempty
        refine ⟨fun _ r hr => ?_, fun _ => rfl⟩
        simpa using hempty r hr
      · rename_i hmissing
        constructor
        · intro h
          cases h
        · intro h
          refine absurd ?_ hmissing
          rw [List.isEmpty_iff, List.filter_eq_nil_iff]
          intro r hr
          simp [h r hr]
  · rename_i hnot
    refine ⟨fun _ properties required hproperties hrequired => ?_, fun _ => rfl⟩
    exact absurd hrequired (hnot properties required hproperties)

theorem flatten_mapM_eq_nil_iff {α β : Type} (f : α → Except PyError (List β)) (l : List α) :
    (l.mapM f).map List.flatten = .ok [] ↔ ∀ a ∈ l, f a = .ok [] := by
  have hmap := mapM_ok_iff f (fun b => b = []) l
  have hleft : (l.mapM f).map List.flatten = .ok [] ↔
      ∃ r, l.mapM f = .ok r ∧ ∀ b ∈ r, b = [] := by
    cases l.mapM f with
    | error e => simp [Except.map]
    | ok r => simp [Except.map]
  rw [hleft, hmap]
  simp

theorem checkRequiredRefs_eq_nil_iff (schema : List (PyStr × Json)) (path : PyStr) :
    checkRequiredRefs schema path = .ok [] ↔ ∀ inner, Within schema inner → Defined inner := by
  induction hsize : sizeOf schema using Nat.strong_induction_on generalizing schema path with
  | _ size ih =>
      have hbelow : ((iterSubschemas schema path).attach.mapM fun child =>
            checkRequiredRefs child.1.1 child.1.2).map List.flatten = .ok [] ↔
          ∀ child, IsSubschema schema child → ∀ inner, Within child inner → Defined inner := by
        rw [flatten_mapM_eq_nil_iff]
        constructor
        · intro h child hchild
          obtain ⟨childPath, hmem⟩ := (exists_mem_iterSubschemas_iff path).mpr hchild
          have hnil := h ⟨(child, childPath), hmem⟩ (List.mem_attach _ _)
          exact (ih (sizeOf child) (hsize ▸ hchild.sizeOf_lt) child childPath rfl).mp hnil
        · intro h child _
          have hchild := (exists_mem_iterSubschemas_iff path).mp ⟨child.1.2, child.2⟩
          exact (ih (sizeOf child.1.1) (hsize ▸ hchild.sizeOf_lt) child.1.1 child.1.2 rfl).mpr
            (h child.1.1 hchild)
      rw [checkRequiredRefs, forall_within_iff (P := Defined), ← hbelow,
        ← undefinedRequired_eq_nil_iff schema path]
      cases hown : undefinedRequired schema path with
      | error e => simp
      | ok errors =>
          cases (iterSubschemas schema path).attach.mapM fun child =>
              checkRequiredRefs child.1.1 child.1.2 with
          | error e => simp [Except.map]
          | ok below => simp [Except.map]

/-- Parameters in which the second validator finds nothing. -/
def IsSound (params : List (PyStr × Json)) : Prop :=
  ∀ inner, Within params inner →
    Json.lookup inner (str "parameters") = none ∧ Defined inner

/-- The second validator reports nothing of parameters that are an object exactly when they
are sound. -/
theorem silent_semantic_iff (params : List (PyStr × Json)) :
    semanticErrors (some (.obj params)) = .ok [] ↔ IsSound params := by
  have hboth : IsSound params ↔
      (∀ inner, Within params inner → Json.lookup inner (str "parameters") = none) ∧
        ∀ inner, Within params inner → Defined inner :=
    ⟨fun h => ⟨fun inner hin => (h inner hin).1, fun inner hin => (h inner hin).2⟩,
      fun h inner hin => ⟨h.1 inner hin, h.2 inner hin⟩⟩
  rw [hboth, ← findNestedParametersKeys_eq_nil_iff params (str "parameters"),
    ← checkRequiredRefs_eq_nil_iff params (str "parameters")]
  unfold semanticErrors
  cases hrefs : checkRequiredRefs params (str "parameters") with
  | error e => simp [hrefs, Except.map]
  | ok errors => simp [hrefs, Except.map]

/-- The first validator reports nothing of parameters that are an object exactly when they
have no properties, or can be converted. -/
theorem silent_pydantic_iff (hasBaseModelAttribute : PyStr → Bool)
    (params : List (PyStr × Json)) :
    pydanticErrors hasBaseModelAttribute (some (.obj params)) = [] ↔
      ∀ properties, Json.lookup params (str "properties") = some (.obj properties) →
        properties ≠ [] → SupportedObject hasBaseModelAttribute params := by
  have hconverts := (converts_iff hasBaseModelAttribute params).2 (str "parameters")
  unfold pydanticErrors
  split
  · rename_i heq
    cases heq
  · rename_i heq
    cases heq
  · rename_i params' heq
    obtain rfl := Json.obj.inj (Option.some.inj heq)
    split
    · rename_i first rest hproperties
      have hall : (∀ properties, Json.lookup params (str "properties") = some (.obj properties) →
          properties ≠ [] → SupportedObject hasBaseModelAttribute params) ↔
            SupportedObject hasBaseModelAttribute params :=
        ⟨fun h => h _ hproperties (List.cons_ne_nil _ _), fun h _ _ _ => h⟩
      rw [hall, ← hconverts]
      cases openaiFunctionToPydantic hasBaseModelAttribute (str "parameters") params with
      | error e => simp
      | ok model => simp
    · rename_i hnot
      refine ⟨fun _ properties hproperties hne => ?_, fun _ => rfl⟩
      obtain ⟨first, rest, rfl⟩ := List.exists_cons_of_ne_nil hne
      exact absurd hproperties (hnot first rest)
  · rename_i hobject heq
    obtain rfl := Option.some.inj heq
    exact absurd rfl (hobject params)

end NoraFleet.Validation
