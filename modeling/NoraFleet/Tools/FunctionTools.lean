import NoraFleet.Networks.ToolCalls
import NoraFleet.Validation.Parameters

/-!
# Tools from function specs

`from_function_json` makes a tool of the function of an agent. It verifies the function
first, and then converts its parameters, as the validators do. The validators let parameters
without properties pass, and never ask for their type.

* `fromFunctionJson_raises_iff` — when making a tool raises a `ToolSpecError`;
* `silent_iff` — when the validators report nothing of the parameters of an agent;
* `accepted_makes_tool_iff` — when parameters that are accepted make a tool.
-/

namespace NoraFleet.Tools

open Base Networks Validation

/-! ## Making a tool -/

/-- What `verify_function_json` finds wrong with the parameters, if it finds something. -/
def parametersFault (functionJson : List (PyStr × Json)) : Option ToolSpecError :=
  match Json.lookup functionJson (str "parameters") with
  | none | some .null => none
  | some (.obj parameters) =>
      if parameters.isEmpty then none
      else
        match Json.lookup parameters (str "properties") with
        | none | some .null => some .noPropertiesDictionary
        | some (.obj (_ :: _)) =>
            if AgentNetwork.isGiven parameters (str "type") then none else some .noParametersType
        | some _ => some .noArguments
  | some parameters => some (.parametersNotDictionary (typeName parameters))

/-- `verify_function_json(function_json)`: what it raises. -/
def verifyFunctionJson (functionJson : List (PyStr × Json)) : Option ToolSpecError :=
  if AgentNetwork.isGiven functionJson (str "name") = false then some .noName
  else
    match parametersFault functionJson with
    | some e => some e
    | none =>
        if AgentNetwork.isGiven functionJson (str "description") then none else some .noDescription

/-- `LangChainOpenAIFunctionTool`, as far as it describes the function. -/
structure FunctionTool where
  name : PyStr
  functionJson : Json
  argsSchema : FieldType

/-- What `from_function_json` raises: a `ToolSpecError`, or what splitting the name as a URL
raises. -/
inductive CreationError where
  | toolSpec (e : ToolSpecError)
  | other (e : PyError)

/-- The parameters that are converted. Where there are none, `use_function_json` is the
function itself, and where they are null it is `None`; no value equals a dictionary that it
is part of. -/
def schemaSource (functionJson : List (PyStr × Json)) : List (PyStr × Json) :=
  match Json.lookup functionJson (str "parameters") with
  | some (.obj parameters) => parameters
  | _ => []

section Creation

variable (check : Urls.NetlocCheck) (hasBaseModelAttribute : PyStr → Bool)
  (constructs : List (PyStr × Json) → Bool)

/-- `from_function_json(function_json, tool_caller)`. Whether pydantic accepts the members of
the function as fields of the tool is given; a name that is no string it does not accept. -/
def fromFunctionJson (functionJson : List (PyStr × Json)) : Except CreationError FunctionTool :=
  match verifyFunctionJson functionJson with
  | some e => .error (.toolSpec e)
  | none =>
      if constructs functionJson = false then .error (.toolSpec .invalidTool)
      else
        match Json.lookup functionJson (str "name") with
        | some (.str name) =>
            match toolName check name with
            | .error e => .error (.other e)
            | .ok name =>
                match openaiFunctionToPydantic hasBaseModelAttribute (str "parameters")
                  (schemaSource functionJson) with
                | .error e => .error (.toolSpec e)
                | .ok argsSchema =>
                    .ok ⟨name, (Json.lookup functionJson (str "parameters")).getD
                      (.obj functionJson), argsSchema⟩
        | _ => .error (.toolSpec .invalidTool)

/-- The function with its name filled in. -/
def named (name : PyStr) (function : List (PyStr × Json)) : List (PyStr × Json) :=
  Dict.setItems function (str "name") (.str name)

theorem lookup_named_name (name : PyStr) (function : List (PyStr × Json)) :
    Json.lookup (named name function) (str "name") = some (.str name) := by
  rw [named, Json.lookup_setItems, if_pos rfl]

theorem lookup_named {key : PyStr} (hkey : key ≠ str "name") (name : PyStr)
    (function : List (PyStr × Json)) :
    Json.lookup (named name function) key = Json.lookup function key := by
  rw [named, Json.lookup_setItems, if_neg hkey]

/-! ## When it raises -/

/-- A `ToolSpecError` was raised. -/
def RaisesToolSpecError (created : Except CreationError FunctionTool) : Prop :=
  ∃ e, created = .error (.toolSpec e)

/-- A function with a description, and its name filled in, is only faulted for its
parameters. -/
theorem verifyFunctionJson_named {function : List (PyStr × Json)} {description : PyStr}
    (hdescription : Json.lookup function (str "description") = some (.str description))
    (name : PyStr) :
    verifyFunctionJson (named name function) = parametersFault function := by
  have hname : AgentNetwork.isGiven (named name function) (str "name") = true := by
    rw [AgentNetwork.isGiven, lookup_named_name]
  have hgiven : AgentNetwork.isGiven (named name function) (str "description") = true := by
    rw [AgentNetwork.isGiven, lookup_named (by decide), hdescription]
  have hfault : parametersFault (named name function) = parametersFault function := by
    unfold parametersFault
    rw [lookup_named (by decide)]
  unfold verifyFunctionJson
  rw [hname, hfault, hgiven]
  cases parametersFault function with
  | none => rfl
  | some e => rfl

/-- Making a tool of it raises a `ToolSpecError` when the parameters are at fault, when
pydantic does not accept its other members, or when the parameters cannot be converted. -/
theorem fromFunctionJson_raises_iff {function : List (PyStr × Json)} {description : PyStr}
    (hdescription : Json.lookup function (str "description") = some (.str description))
    (name : PyStr) :
    RaisesToolSpecError (fromFunctionJson check hasBaseModelAttribute constructs
        (named name function)) ↔
      (parametersFault function).isSome ∨ constructs (named name function) = false ∨
        (∃ safeName, toolName check name = .ok safeName) ∧
          ¬ SupportedObject hasBaseModelAttribute (schemaSource function) := by
  have hsource : schemaSource (named name function) = schemaSource function := by
    unfold schemaSource
    rw [lookup_named (by decide)]
  have hconverts :=
    (converts_iff hasBaseModelAttribute (schemaSource function)).2 (str "parameters")
  unfold RaisesToolSpecError fromFunctionJson
  rw [verifyFunctionJson_named hdescription]
  cases hfault : parametersFault function with
  | some e => simp
  | none =>
      cases hconstructs : constructs (named name function) with
      | false => simp
      | true =>
          simp only [lookup_named_name, hsource]
          rw [← hconverts]
          cases toolName check name with
          | error e => simp
          | ok safeName =>
              cases openaiFunctionToPydantic hasBaseModelAttribute (str "parameters")
                  (schemaSource function) with
              | error e => simp
              | ok argsSchema => simp

/-! ## When the validators are silent -/

/-- Neither validator reports anything of the agent. -/
def Silent (agentSpec : Json) : Prop :=
  pydanticErrors hasBaseModelAttribute (locateParameters agentSpec) = [] ∧
    semanticErrors (locateParameters agentSpec) = .ok []

/-- Parameters that are not there, or an object that can be converted if it has properties,
without a nested `parameters` key and with all required fields. -/
def Unobjectionable : Option Json → Prop
  | none => True
  | some (.obj params) =>
      (∀ properties, Json.lookup params (str "properties") = some (.obj properties) →
        properties ≠ [] → SupportedObject hasBaseModelAttribute params) ∧ IsSound params
  | some _ => False

theorem silent_iff (agentSpec : Json) :
    Silent hasBaseModelAttribute agentSpec ↔
      Unobjectionable hasBaseModelAttribute (locateParameters agentSpec) := by
  unfold Silent
  cases locateParameters agentSpec with
  | none => exact ⟨fun _ => trivial, fun _ => ⟨rfl, rfl⟩⟩
  | some params =>
      cases params with
      | obj params =>
          rw [silent_pydantic_iff, silent_semantic_iff]
          exact Iff.rfl
      | null => simp [pydanticErrors, Unobjectionable]
      | bool b => simp [pydanticErrors, Unobjectionable]
      | int n => simp [pydanticErrors, Unobjectionable]
      | float x => simp [pydanticErrors, Unobjectionable]
      | str s => simp [pydanticErrors, Unobjectionable]
      | arr items => simp [pydanticErrors, Unobjectionable]

/-! ## When they agree -/

/-- The parameters of a function are empty, or have a type and at least one property. -/
def Complete (function : List (PyStr × Json)) : Prop :=
  ∀ params, Json.lookup function (str "parameters") = some (.obj params) → params ≠ [] →
    AgentNetwork.isGiven params (str "type") = true ∧
      ∃ properties, Json.lookup params (str "properties") = some (.obj properties) ∧
        properties ≠ []

/-- Of parameters that are an object, only those that are not complete are at fault. -/
theorem parametersFault_eq_none_iff {function params : List (PyStr × Json)}
    (hparams : Json.lookup function (str "parameters") = some (.obj params)) :
    parametersFault function = none ↔ Complete function := by
  have hcomplete : Complete function ↔ (params ≠ [] →
      AgentNetwork.isGiven params (str "type") = true ∧
        ∃ properties, Json.lookup params (str "properties") = some (.obj properties) ∧
          properties ≠ []) := by
    constructor
    · intro h
      exact h params hparams
    · intro h other hother
      obtain rfl := Json.obj.inj (Option.some.inj (hparams.symm.trans hother))
      exact h
  rw [hcomplete]
  unfold parametersFault
  simp only [hparams, List.isEmpty_iff]
  by_cases hempty : params = []
  · simp [hempty]
  · rw [if_neg hempty]
    cases hproperties : Json.lookup params (str "properties") with
    | none => simp [hempty]
    | some properties =>
        cases properties with
        | obj properties =>
            cases properties with
            | nil => simp [hempty]
            | cons first rest => simp [hempty]
        | null => simp [hempty]
        | bool b => simp [hempty]
        | int n => simp [hempty]
        | float x => simp [hempty]
        | str s => simp [hempty]
        | arr items => simp [hempty]

theorem supportedObject_nil : SupportedObject hasBaseModelAttribute [] := by
  have hproperties : getProperties [] = .ok [] := rfl
  have hrequired : getRequired [] = .ok [] := rfl
  exact .intro hproperties hrequired (fun _ h => absurd h List.not_mem_nil)
    (fun _ h => absurd h List.not_mem_nil) (fun _ _ h => absurd h List.not_mem_nil)

/-- The parameters of the function come first. -/
theorem locateParameters_of_function {spec function : List (PyStr × Json)} {params : Json}
    (hfunction : Json.lookup spec (str "function") = some (.obj function))
    (hparams : Json.lookup function (str "parameters") = some params) :
    locateParameters (.obj spec) = some params := by
  simp only [locateParameters, hfunction, hparams]
  rfl

/-- Where the validators have nothing to report, only a function whose parameters are not
complete, or whose other members pydantic does not accept, makes no tool. -/
theorem raises_iff_of_unobjectionable {spec function : List (PyStr × Json)}
    {description : PyStr} (hfunction : Json.lookup spec (str "function") = some (.obj function))
    (hdescription : Json.lookup function (str "description") = some (.str description))
    (name : PyStr)
    (h : Unobjectionable hasBaseModelAttribute (locateParameters (.obj spec))) :
    RaisesToolSpecError (fromFunctionJson check hasBaseModelAttribute constructs
        (named name function)) ↔
      ¬ (Complete function ∧ constructs (named name function) = true) := by
  rw [fromFunctionJson_raises_iff check hasBaseModelAttribute constructs hdescription]
  -- what is converted is supported, unless the parameters are at fault already
  have hsupported : parametersFault function = none →
      SupportedObject hasBaseModelAttribute (schemaSource function) := by
    intro hfault
    unfold schemaSource
    split
    · rename_i params hparams
      rw [locateParameters_of_function hfunction hparams] at h
      by_cases hempty : params = []
      · subst hempty
        exact supportedObject_nil hasBaseModelAttribute
      · obtain ⟨-, properties, hproperties, hne⟩ :=
          (parametersFault_eq_none_iff hparams).mp hfault params hparams hempty
        exact h.1 properties hproperties hne
    · exact supportedObject_nil hasBaseModelAttribute
  have hcomplete : parametersFault function = none ↔ Complete function := by
    cases hparams : Json.lookup function (str "parameters") with
    | none =>
        refine ⟨fun _ params hgiven => ?_, fun _ => ?_⟩
        · rw [hparams] at hgiven
          cases hgiven
        · simp only [parametersFault, hparams]
    | some params =>
        rw [locateParameters_of_function hfunction hparams] at h
        cases params with
        | obj params => exact parametersFault_eq_none_iff hparams
        | null => exact h.elim
        | bool b => exact h.elim
        | int n => exact h.elim
        | float x => exact h.elim
        | str s => exact h.elim
        | arr items => exact h.elim
  rw [← hcomplete]
  cases hfault : parametersFault function with
  | some e => simp
  | none =>
      cases constructs (named name function) with
      | false => simp
      | true => simpa using fun _ _ => hsupported hfault

/-- Parameters for which the validators report nothing make a tool, exactly when they are
complete and pydantic accepts the other members of the function, or the validators do have
something to report. -/
theorem accepted_makes_tool_iff {spec function : List (PyStr × Json)} {description : PyStr}
    (hfunction : Json.lookup spec (str "function") = some (.obj function))
    (hdescription : Json.lookup function (str "description") = some (.str description))
    (name : PyStr) :
    (Silent hasBaseModelAttribute (.obj spec) →
      ¬ RaisesToolSpecError (fromFunctionJson check hasBaseModelAttribute constructs
        (named name function))) ↔
      Complete function ∧ constructs (named name function) = true ∨
        ¬ Unobjectionable hasBaseModelAttribute (locateParameters (.obj spec)) := by
  rw [silent_iff]
  by_cases h : Unobjectionable hasBaseModelAttribute (locateParameters (.obj spec))
  · have hraises := raises_iff_of_unobjectionable check hasBaseModelAttribute constructs
      hfunction hdescription name h
    rw [hraises, not_not]
    exact ⟨fun hmakes => .inl (hmakes h), fun hcondition _ =>
      hcondition.resolve_right (not_not.mpr h)⟩
  · exact ⟨fun _ => .inr h, fun _ hnot => absurd hnot h⟩

end Creation

/-! ## Parameters without properties -/

/-- A function with the parameters that no validator objects to. -/
def withoutProperties : List (PyStr × Json) :=
  [(str "description", .str (str "Tells the time.")),
    (str "parameters", .obj [(str "type", .str (str "object")), (str "properties", .obj [])])]

/-- A property of a simple type. -/
def ofType (type : String) : List (PyStr × Json) := [(str "type", .str (str type))]

/-- The options of a forecast. -/
def forecastOptions : List (PyStr × Json) :=
  [(str "type", .str (str "object")),
    (str "properties", .obj [(str "unit", .obj (ofType "string"))]),
    (str "required", .arr [.str (str "unit")])]

/-- The parameters of a forecast: a text, and options of their own. -/
def forecastParameters : List (PyStr × Json) :=
  [(str "type", .str (str "object")),
    (str "properties", .obj [(str "city", .obj (ofType "string")),
      (str "options", .obj forecastOptions)]),
    (str "required", .arr [.str (str "city")])]

/-- A function with nested parameters. -/
def forecast : List (PyStr × Json) :=
  [(str "description", .str (str "Tells the weather.")),
    (str "parameters", .obj forecastParameters)]

theorem supportedType_string : SupportedType (fun _ => false) (ofType "string") :=
  .simple rfl rfl (by decide) (by decide)

theorem supported_forecastOptions : SupportedObject (fun _ => false) forecastOptions := by
  refine .intro rfl rfl (fun field hfield => ?_) (fun field hfield => ?_)
    fun fieldName oneProperty hfield => ?_
  · obtain rfl := List.mem_singleton.mp hfield
    rfl
  · obtain rfl := List.mem_singleton.mp hfield
    exact ⟨_, rfl⟩
  · cases List.mem_singleton.mp hfield
    exact supportedType_string

theorem supported_forecastParameters : SupportedObject (fun _ => false) forecastParameters := by
  refine .intro rfl rfl (fun field hfield => ?_) (fun field hfield => ?_)
    fun fieldName oneProperty hfield => ?_
  · rcases List.mem_cons.mp hfield with rfl | hfield
    · rfl
    · obtain rfl := List.mem_singleton.mp hfield
      rfl
  · rcases List.mem_cons.mp hfield with rfl | hfield
    · exact ⟨_, rfl⟩
    · obtain rfl := List.mem_singleton.mp hfield
      exact ⟨_, rfl⟩
  · rcases List.mem_cons.mp hfield with heq | hfield
    · cases heq
      exact supportedType_string
    · cases List.mem_singleton.mp hfield
      exact .object rfl supported_forecastOptions

/-- A schema without items is sound where its properties are. -/
theorem isSound_of_properties {schema : List (PyStr × Json)}
    (hparameters : Json.lookup schema (str "parameters") = none)
    (hitems : Json.lookup schema (str "items") = none)
    (hdefined : undefinedRequired schema [] = .ok [])
    (hbelow : ∀ properties, Json.lookup schema (str "properties") = some (.obj properties) →
      ∀ name child, (name, .obj child) ∈ properties → IsSound child) : IsSound schema := by
  refine (forall_within_iff schema).mpr
    ⟨⟨hparameters, (undefinedRequired_eq_nil_iff schema []).mp hdefined⟩, fun child hchild => ?_⟩
  cases hchild with
  | property hproperties hmem => exact hbelow _ hproperties _ _ hmem
  | items hchild =>
      rw [hitems] at hchild
      cases hchild

theorem isSound_string : IsSound (ofType "string") :=
  isSound_of_properties rfl rfl rfl fun _ hproperties => by cases hproperties

theorem isSound_forecastOptions : IsSound forecastOptions := by
  refine isSound_of_properties rfl rfl rfl fun properties hproperties name child hchild => ?_
  obtain rfl := Json.obj.inj (Option.some.inj hproperties)
  cases List.mem_singleton.mp hchild
  exact isSound_string

theorem isSound_forecastParameters : IsSound forecastParameters := by
  refine isSound_of_properties rfl rfl rfl fun properties hproperties name child hchild => ?_
  obtain rfl := Json.obj.inj (Option.some.inj hproperties)
  rcases List.mem_cons.mp hchild with heq | hchild
  · cases heq
    exact isSound_string
  · cases List.mem_singleton.mp hchild
    exact isSound_forecastOptions

/-- Nested parameters of which the validators report nothing make a tool. -/
theorem accepted_makes_tool_forecast :
    ¬ RaisesToolSpecError (fromFunctionJson (fun _ => true) (fun _ => false) (fun _ => true)
      (named (str "weather") forecast)) := by
  have hsilent : Silent (fun _ => false) (.obj [(str "function", .obj forecast)]) :=
    (silent_iff _ _).mpr ⟨fun _ _ _ => supported_forecastParameters, isSound_forecastParameters⟩
  have hcomplete : Complete forecast := by
    intro params hparams _
    obtain rfl := Json.obj.inj (Option.some.inj hparams)
    exact ⟨rfl, _, rfl, List.cons_ne_nil _ _⟩
  have hfunction : Json.lookup [(str "function", .obj forecast)] (str "function") =
      some (.obj forecast) := rfl
  exact (accepted_makes_tool_iff (fun _ => true) (fun _ => false) (fun _ => true) hfunction rfl
    (str "weather")).mpr (.inl ⟨hcomplete, rfl⟩) hsilent

theorem silent_withoutProperties :
    Silent (fun _ => false) (.obj [(str "function", .obj withoutProperties)]) := by
  rw [silent_iff]
  refine ⟨?_, ?_⟩
  · intro properties hproperties hne
    obtain rfl := Json.obj.inj (Option.some.inj hproperties)
    exact absurd rfl hne
  · refine isSound_of_properties rfl rfl rfl fun properties hproperties name child hchild => ?_
    obtain rfl := Json.obj.inj (Option.some.inj hproperties)
    cases hchild

/-- Validators that report nothing of parameters without properties, which make no tool. -/
theorem withoutProperties_makes_no_tool :
    ¬ ∀ (check : Urls.NetlocCheck) (hasBaseModelAttribute : PyStr → Bool)
      (constructs : List (PyStr × Json) → Bool) (spec function : List (PyStr × Json))
      (description name : PyStr),
      Json.lookup spec (str "function") = some (.obj function) →
      Json.lookup function (str "description") = some (.str description) →
      Silent hasBaseModelAttribute (.obj spec) →
        ¬ RaisesToolSpecError (fromFunctionJson check hasBaseModelAttribute constructs
          (named name function)) := by
  intro h
  have hmakes := h (fun _ => true) (fun _ => false) (fun _ => true)
    [(str "function", .obj withoutProperties)] withoutProperties (str "Tells the time.")
    (str "clock") rfl rfl silent_withoutProperties
  exact hmakes ⟨.noArguments, rfl⟩

end NoraFleet.Tools
