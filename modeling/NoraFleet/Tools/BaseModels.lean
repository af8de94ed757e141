import Mathlib.Data.List.Infix
import NoraFleet.Validation.ToolsShape

/-!
# Pydantic models of function specs

`BaseModelDictionaryConverter` makes a pydantic model of the parameters of a function, and
of the objects and arrays inside them. `create_model` of pydantic is not part of the program;
it makes a model of every field whose name `validate_field_name` admits.

* `SupportedType`, `SupportedObject` — the specs that a model can be made of, whatever the
  order in which they are looked at;
* `converts_iff` — the converter makes a model of exactly these.
-/

namespace NoraFleet.Tools

open Base Validation

/-! ## Errors and types -/

/-- `ToolSpecError`, by what its text says. -/
inductive ToolSpecError where
  -- verify_function_json
  | noName
  | noDescription
  | parametersNotDictionary (got : PyStr)
  | noParametersType
  | noPropertiesDictionary
  | noArguments
  -- from_function_json
  | invalidTool
  -- BaseModelDictionaryConverter
  | propertiesNotObject (got : PyStr)
  | requiredNotList (got : PyStr)
  | requiredNotNames (required : List Json)
  | startsWithUnderscore (fieldName : PyStr)
  | reservedName
  | shadowsMethod (fieldName : PyStr)
  | propertyNotObject (fieldName got : PyStr)
  | noType (fieldName : PyStr)
  | typeNotString (fieldName : PyStr) (type : Json)
  | unrecognizedType (type fieldName : PyStr)
  | noItems (fieldName got : PyStr)

/-- The annotations of fields. A field of a model has its name, its type, whether it is
required, and its description. -/
inductive FieldType where
  | string
  | int
  | float
  | boolean
  | number
  | dictionary
  | bareList
  | list (itemType : FieldType)
  | model (name : PyStr) (fields : List (PyStr × FieldType × Bool × Option Json))

/-- `TYPE_LOOKUP`. -/
def typeLookup : List (PyStr × FieldType) :=
  [(str "string", .string), (str "int", .int), (str "float", .float), (str "boolean", .boolean),
    (str "array", .bareList), (str "integer", .int), (str "number", .number),
    (str "bool", .boolean), (str "object", .dictionary)]

/-- `TYPE_LOOKUP.get(type)`. -/
def lookupType (type : PyStr) : Option FieldType :=
  (typeLookup.find? fun entry => entry.1 = type).map Prod.snd

/-! ## The parts of an object -/

/-- The properties of an object; null counts as missing. -/
def getProperties (functionDict : List (PyStr × Json)) :
    Except ToolSpecError (List (PyStr × Json)) :=
  match Json.lookup functionDict (str "properties") with
  | none | some .null => .ok []
  | some (.obj properties) => .ok properties
  | some properties => .error (.propertiesNotObject (typeName properties))

/-- The text of a string. -/
def asName : Json → Option PyStr
  | .str name => some name
  | _ => none

/-- The required fields of an object. -/
def getRequired (functionDict : List (PyStr × Json)) : Except ToolSpecError (List PyStr) :=
  match Json.lookup functionDict (str "required") with
  | none | some .null => .ok []
  | some (.arr required) =>
      if required.all fun entry => (asName entry).isSome then .ok (required.filterMap asName)
      else .error (.requiredNotNames required)
  | some required => .error (.requiredNotList (typeName required))

/-- `one_property.get("description")`, where it is not null. -/
def getDescription (oneProperty : List (PyStr × Json)) : Option Json :=
  match Json.lookup oneProperty (str "description") with
  | some .null => none
  | description => description

theorem sizeOf_lookup {members : List (PyStr × Json)} {key : PyStr} {value : Json}
    (h : Json.lookup members key = some value) : sizeOf value < sizeOf members := by
  induction members with
  | nil => cases h
  | cons member rest ih =>
      obtain ⟨name, first⟩ := member
      rw [Json.lookup_cons] at h
      split at h
      · obtain rfl := Option.some.inj h
        simp only [List.cons.sizeOf_spec, Prod.mk.sizeOf_spec]
        omega
      · have hrest := ih h
        simp only [List.cons.sizeOf_spec]
        omega

theorem sizeOf_getProperties {functionDict properties : List (PyStr × Json)}
    (h : getProperties functionDict = .ok properties) :
    sizeOf properties ≤ sizeOf functionDict := by
  have hpositive : sizeOf ([] : List (PyStr × Json)) ≤ sizeOf functionDict := by
    cases functionDict with
    | nil => exact Nat.le_refl _
    | cons first rest =>
        simp only [List.nil.sizeOf_spec, List.cons.sizeOf_spec]
        omega
  unfold getProperties at h
  split at h
  · obtain rfl := Except.ok.inj h
    exact hpositive
  · obtain rfl := Except.ok.inj h
    exact hpositive
  · rename_i given hgiven
    obtain rfl := Except.ok.inj h
    have hsmaller := sizeOf_lookup hgiven
    simp only [Json.obj.sizeOf_spec] at hsmaller
    omega
  · cases h

/-! ## The converter -/

section Converter

variable (hasBaseModelAttribute : PyStr → Bool)

/-- `validate_field_name(field_name)`. -/
def validateFieldName (fieldName : PyStr) : Option ToolSpecError :=
  if fieldName.head? = some 95 then some (.startsWithUnderscore fieldName)
  else if fieldName = str "model_config" then some .reservedName
  else if (str "model_dump" <+: fieldName ∨ str "model_validate" <+: fieldName) ∧
      hasBaseModelAttribute fieldName = true then some (.shadowsMethod fieldName)
  else none

mutual

/-- `openai_function_to_pydantic(name, function_dict)`. -/
def openaiFunctionToPydantic (name : PyStr) (functionDict : List (PyStr × Json)) :
    Except ToolSpecError FieldType :=
  match hproperties : getProperties functionDict with
  | .error e => .error e
  | .ok properties =>
      match getRequired functionDict with
      | .error e => .error e
      | .ok required =>
          have := sizeOf_getProperties hproperties
          (createFields required properties).map fun fields => .model name fields
termination_by 2 * sizeOf functionDict + 1

/-- The loop over `properties.items()`. -/
def createFields (required : List PyStr) :
    List (PyStr × Json) → Except ToolSpecError (List (PyStr × FieldType × Bool × Option Json))
  | [] => .ok []
  | (fieldName, oneProperty) :: rest =>
      match validateFieldName hasBaseModelAttribute fieldName with
      | some e => .error e
      | none =>
          match oneProperty with
          | .obj oneProperty =>
              match getTypeFromPropertyDict fieldName oneProperty with
              | .error e => .error e
              | .ok fieldType =>
                  (createFields required rest).map fun fields =>
                    (fieldName, fieldType, required.contains fieldName,
                      getDescription oneProperty) :: fields
          | oneProperty => .error (.propertyNotObject fieldName (typeName oneProperty))
termination_by properties => 2 * sizeOf properties
decreasing_by
  all_goals simp only [List.cons.sizeOf_spec, Prod.mk.sizeOf_spec, Json.obj.sizeOf_spec]; omega

/-- `get_type_from_property_dict(field_name, one_property)`. -/
def getTypeFromPropertyDict (fieldName : PyStr) (oneProperty : List (PyStr × Json)) :
    Except ToolSpecError FieldType :=
  match Json.lookup oneProperty (str "type") with
  | none | some .null => .error (.noType fieldName)
  | some (.str typeFromDict) =>
      match lookupType typeFromDict with
      | none => .error (.unrecognizedType typeFromDict fieldName)
      | some fieldType =>
          if typeFromDict = str "object" then
            match Json.lookup oneProperty (str "properties") with
            | none => .ok fieldType
            | some objectProps =>
                if objectProps.truthy then openaiFunctionToPydantic fieldName oneProperty
                else .ok fieldType
          else if typeFromDict = str "array" then
            match hitems : Json.lookup oneProperty (str "items") with
            | some (.obj items) =>
                have := sizeOf_lookup hitems
                (getTypeFromPropertyDict (fieldName ++ str "_component") items).map .list
            | none | some .null => .error (.noItems fieldName (str "nothing"))
            | some items => .error (.noItems fieldName (typeName items))
          else .ok fieldType
  | some type => .error (.typeNotString fieldName type)
termination_by 2 * sizeOf oneProperty + 2
decreasing_by
  · omega
  · simp only [Json.obj.sizeOf_spec] at this
    omega

end

/-! ## Specs that can be converted -/

mutual

/-- A property whose type a model can have. -/
inductive SupportedType : List (PyStr × Json) → Prop
  | simple {oneProperty : List (PyStr × Json)} {type : PyStr} {fieldType : FieldType} :
      Json.lookup oneProperty (str "type") = some (.str type) →
      lookupType type = some fieldType → type ≠ str "object" → type ≠ str "array" →
      SupportedType oneProperty
  | dictionary {oneProperty : List (PyStr × Json)} :
      Json.lookup oneProperty (str "type") = some (.str (str "object")) →
      (∀ objectProps, Json.lookup oneProperty (str "properties") = some objectProps →
        objectProps.truthy = false) →
      SupportedType oneProperty
  | object {oneProperty : List (PyStr × Json)} :
      Json.lookup oneProperty (str "type") = some (.str (str "object")) →
      SupportedObject oneProperty → SupportedType oneProperty
  | array {oneProperty items : List (PyStr × Json)} :
      Json.lookup oneProperty (str "type") = some (.str (str "array")) →
      Json.lookup oneProperty (str "items") = some (.obj items) →
      SupportedType items → SupportedType oneProperty

/-- An object that a model can be made of. -/
inductive SupportedObject : List (PyStr × Json) → Prop
  | intro {functionDict properties : List (PyStr × Json)} {required : List PyStr} :
      getProperties functionDict = .ok properties →
      getRequired functionDict = .ok required →
      (∀ field ∈ properties, validateFieldName hasBaseModelAttribute field.1 = none) →
      (∀ field ∈ properties, ∃ oneProperty, field.2 = .obj oneProperty) →
      (∀ fieldName oneProperty, (fieldName, .obj oneProperty) ∈ properties →
        SupportedType oneProperty) →
      SupportedObject functionDict

end

/-- A property that is no object ends the loop. -/
theorem createFields_other (required : List PyStr) (fieldName : PyStr) {value : Json}
    (h : ¬ ∃ oneProperty, value = .obj oneProperty) (rest : List (PyStr × Json)) :
    ∃ e, createFields hasBaseModelAttribute required ((fieldName, value) :: rest) = .error e := by
  have hnot : ∀ oneProperty, value = .obj oneProperty → False :=
    fun oneProperty heq => h ⟨oneProperty, heq⟩
  rw [createFields]
  · split
    · exact ⟨_, rfl⟩
    · exact ⟨_, rfl⟩
  · exact hnot

/-- A property that is an object makes a field, if its name is admitted and it has a type. -/
theorem createFields_obj (required : List PyStr) (fieldName : PyStr)
    (oneProperty rest : List (PyStr × Json)) :
    (∃ fields, createFields hasBaseModelAttribute required
        ((fieldName, .obj oneProperty) :: rest) = .ok fields) ↔
      validateFieldName hasBaseModelAttribute fieldName = none ∧
        (∃ fieldType, getTypeFromPropertyDict hasBaseModelAttribute fieldName oneProperty =
          .ok fieldType) ∧
        ∃ fields, createFields hasBaseModelAttribute required rest = .ok fields := by
  rw [createFields]
  cases hname : validateFieldName hasBaseModelAttribute fieldName with
  | some e => simp
  | none =>
      cases htype : getTypeFromPropertyDict hasBaseModelAttribute fieldName oneProperty with
      | error e => simp
      | ok fieldType =>
          cases hfields : createFields hasBaseModelAttribute required rest with
          | error e => simp [Except.map]
          | ok fields => simp [Except.map]

/-- The loop over the properties makes a field of each, if each has a name that is admitted
and a type. -/
theorem createFields_iff (required : List PyStr) {properties : List (PyStr × Json)}
    (htypes : ∀ fieldName oneProperty, (fieldName, .obj oneProperty) ∈ properties →
      ((∃ fieldType, getTypeFromPropertyDict hasBaseModelAttribute fieldName oneProperty =
        .ok fieldType) ↔ SupportedType hasBaseModelAttribute oneProperty)) :
    (∃ fields, createFields hasBaseModelAttribute required properties = .ok fields) ↔
      (∀ field ∈ properties, validateFieldName hasBaseModelAttribute field.1 = none) ∧
        (∀ field ∈ properties, ∃ oneProperty, field.2 = .obj oneProperty) ∧
        ∀ fieldName oneProperty, (fieldName, .obj oneProperty) ∈ properties →
          SupportedType hasBaseModelAttribute oneProperty := by
  induction properties with
  | nil =>
      refine ⟨fun _ => ⟨?_, ?_, ?_⟩, fun _ => ⟨[], by rw [createFields]⟩⟩
      · exact fun _ h => absurd h List.not_mem_nil
      · exact fun _ h => absurd h List.not_mem_nil
      · exact fun _ _ h => absurd h List.not_mem_nil
  | cons property rest ih =>
      obtain ⟨fieldName, value⟩ := property
      have hrest := ih fun name one hmem => htypes name one (List.mem_cons_of_mem _ hmem)
      rw [List.forall_mem_cons, List.forall_mem_cons]
      by_cases hobject : ∃ oneProperty, value = .obj oneProperty
      · obtain ⟨oneProperty, rfl⟩ := hobject
        rw [createFields_obj, hrest, htypes fieldName oneProperty List.mem_cons_self]
        constructor
        · rintro ⟨hname, htype, hnames, hobjects, hsupported⟩
          refine ⟨⟨hname, hnames⟩, ⟨⟨oneProperty, rfl⟩, hobjects⟩, ?_⟩
          intro name one hmem
          rcases List.mem_cons.mp hmem with heq | hmem
          · obtain rfl := Json.obj.inj (Prod.mk.inj heq).2
            exact htype
          · exact hsupported name one hmem
        · rintro ⟨⟨hname, hnames⟩, ⟨-, hobjects⟩, hsupported⟩
          exact ⟨hname, hsupported fieldName oneProperty List.mem_cons_self, hnames, hobjects,
            fun name one hmem => hsupported name one (List.mem_cons_of_mem _ hmem)⟩
      · obtain ⟨e, hraises⟩ :=
          createFields_other hasBaseModelAttribute required fieldName hobject rest
        rw [hraises]
        constructor
        · rintro ⟨fields, hok⟩
          cases hok
        · rintro ⟨-, ⟨hfirst, -⟩, -⟩
          exact absurd hfirst hobject

/-- An object is converted if its properties are. -/
theorem openaiFunctionToPydantic_iff (name : PyStr) {functionDict : List (PyStr × Json)}
    (htypes : ∀ oneProperty, sizeOf oneProperty < sizeOf functionDict → ∀ fieldName,
      ((∃ fieldType, getTypeFromPropertyDict hasBaseModelAttribute fieldName oneProperty =
        .ok fieldType) ↔ SupportedType hasBaseModelAttribute oneProperty)) :
    (∃ model, openaiFunctionToPydantic hasBaseModelAttribute name functionDict = .ok model) ↔
      SupportedObject hasBaseModelAttribute functionDict := by
  -- what is in the properties of an object is smaller than the object
  have hsmaller : ∀ {properties : List (PyStr × Json)},
      getProperties functionDict = .ok properties →
      ∀ fieldName oneProperty, (fieldName, .obj oneProperty) ∈ properties →
        ((∃ fieldType, getTypeFromPropertyDict hasBaseModelAttribute fieldName oneProperty =
          .ok fieldType) ↔ SupportedType hasBaseModelAttribute oneProperty) := by
    intro properties hproperties fieldName oneProperty hmem
    apply htypes
    have hle := sizeOf_getProperties hproperties
    have hlt := List.sizeOf_lt_of_mem hmem
    simp only [Prod.mk.sizeOf_spec, Json.obj.sizeOf_spec] at hlt
    omega
  rw [openaiFunctionToPydantic]
  constructor
  · rintro ⟨model, hok⟩
    split at hok
    · cases hok
    · rename_i properties hproperties
      cases hrequired : getRequired functionDict with
      | error e =>
          simp only [hrequired] at hok
          cases hok
      | ok required =>
          simp only [hrequired] at hok
          obtain ⟨fields, hfields, -⟩ : ∃ fields, createFields hasBaseModelAttribute required
              properties = .ok fields ∧ FieldType.model name fields = model := by
            cases hfields : createFields hasBaseModelAttribute required properties with
            | error e =>
                rw [hfields] at hok
                cases hok
            | ok fields =>
                rw [hfields] at hok
                exact ⟨fields, rfl, Except.ok.inj hok⟩
          obtain ⟨hnames, hobjects, hsupported⟩ :=
            (createFields_iff hasBaseModelAttribute required (hsmaller hproperties)).mp
              ⟨fields, hfields⟩
          exact .intro hproperties hrequired hnames hobjects hsupported
  · intro h
    cases h with
    | @intro _ properties required hproperties hrequired hnames hobjects hsupported =>
        obtain ⟨fields, hfields⟩ := (createFields_iff hasBaseModelAttribute required
          (hsmaller hproperties)).mpr ⟨hnames, hobjects, hsupported⟩
        refine ⟨.model name fields, ?_⟩
        split
        · rename_i e herror
          rw [hproperties] at herror
          cases herror
        · rename_i properties' hok
          obtain rfl := Except.ok.inj (hproperties.symm.trans hok)
          simp only [hrequired, hfields]
          rfl

/-- The type of a property is found if it is one that a model can have. -/
theorem getTypeFromPropertyDict_iff (fieldName : PyStr) (oneProperty : List (PyStr × Json))
    (hobject : ∀ name, (∃ model, openaiFunctionToPydantic hasBaseModelAttribute name oneProperty =
      .ok model) ↔ SupportedObject hasBaseModelAttribute oneProperty)
    (hitems : ∀ items, sizeOf items < sizeOf oneProperty → ∀ name,
      ((∃ fieldType, getTypeFromPropertyDict hasBaseModelAttribute name items = .ok fieldType) ↔
        SupportedType hasBaseModelAttribute items)) :
    (∃ fieldType, getTypeFromPropertyDict hasBaseModelAttribute fieldName oneProperty =
      .ok fieldType) ↔ SupportedType hasBaseModelAttribute oneProperty := by
  rw [getTypeFromPropertyDict]
  constructor
  · rintro ⟨fieldType, hok⟩
    split at hok
    · cases hok
    · cases hok
    · rename_i type htype
      split at hok
      · cases hok
      · rename_i known hknown
        split at hok
        · rename_i hobj
          subst hobj
          split at hok
          · rename_i hprops
            -- an object without properties is a plain dictionary
            refine .dictionary htype ?_
            intro objectProps hget
            rw [hprops] at hget
            cases hget
          · rename_i objectProps hprops
            split at hok
            · exact .object htype ((hobject fieldName).mp ⟨fieldType, hok⟩)
            · rename_i hfalsy
              refine .dictionary htype ?_
              intro given hget
              rw [hprops] at hget
              obtain rfl := Option.some.inj hget
              simpa using hfalsy
        · rename_i hobj
          split at hok
          · rename_i harr
            subst harr
            split at hok
            · rename_i items hget
              have hlt := sizeOf_lookup hget
              simp only [Json.obj.sizeOf_spec] at hlt
              -- the items are smaller, and have the type of a component
              refine .array htype hget ((hitems items (by omega)
                (fieldName ++ str "_component")).mp ?_)
              cases hitem : getTypeFromPropertyDict hasBaseModelAttribute
                  (fieldName ++ str "_component") items with
              | error e =>
                  simp only [hitem] at hok
                  cases hok
              | ok itemType => exact ⟨itemType, rfl⟩
            · cases hok
            · cases hok
            · cases hok
          · rename_i harr
            exact .simple htype hknown hobj harr
    · cases hok
  · intro h
    -- back: one form of type after the other
    cases h with
    | @simple _ type known htype hlookup hobj harr =>
        simp only [htype, hlookup, if_neg hobj, if_neg harr]
        exact ⟨known, rfl⟩
    | dictionary htype hprops =>
        have hlookup : lookupType (str "object") = some .dictionary := rfl
        simp only [htype, hlookup, if_true]
        split
        · exact ⟨_, rfl⟩
        · rename_i objectProps hget
          rw [if_neg (by simp [hprops objectProps hget])]
          exact ⟨_, rfl⟩
    | object htype hsupported =>
        have hlookup : lookupType (str "object") = some .dictionary := rfl
        simp only [htype, hlookup, if_true]
        split
        · exact ⟨_, rfl⟩
        · split
          · exact (hobject fieldName).mpr hsupported
          · exact ⟨_, rfl⟩
    | @array _ items htype hget hsupported =>
        have hlookup : lookupType (str "array") = some .bareList := rfl
        have hlt := sizeOf_lookup hget
        simp only [Json.obj.sizeOf_spec] at hlt
        obtain ⟨itemType, hitem⟩ := (hitems items (by omega)
          (fieldName ++ str "_component")).mpr hsupported
        simp only [htype, hlookup, if_neg (show ¬ str "array" = str "object" by decide), if_true]
        refine ⟨.list itemType, ?_⟩
        split
        · rename_i items' hget'
          obtain rfl := Json.obj.inj (Option.some.inj (hget.symm.trans hget'))
          simp only [hitem]
          rfl
        · rename_i hnone
          rw [hget] at hnone
          cases hnone
        · rename_i hnull
          rw [hget] at hnull
          cases hnull
        · rename_i other hnot _ hother
          rw [hget] at hother
          exact absurd (Option.some.inj hother).symm (hnot items)

/-- The converter finds a type for exactly the properties that a model can have, and makes a
model of exactly the objects that a model can be made of. -/
theorem converts_iff (spec : List (PyStr × Json)) :
    (∀ fieldName, (∃ fieldType, getTypeFromPropertyDict hasBaseModelAttribute fieldName spec =
        .ok fieldType) ↔ SupportedType hasBaseModelAttribute spec) ∧
      ∀ name, (∃ model, openaiFunctionToPydantic hasBaseModelAttribute name spec =
        .ok model) ↔ SupportedObject hasBaseModelAttribute spec := by
  -- by the size of the spec, as the parts that are looked up are smaller
  induction hsize : sizeOf spec using Nat.strong_induction_on generalizing spec with
  | _ size ih =>
      have hparts : ∀ part, sizeOf part < sizeOf spec → ∀ fieldName,
          ((∃ fieldType, getTypeFromPropertyDict hasBaseModelAttribute fieldName part =
            .ok fieldType) ↔ SupportedType hasBaseModelAttribute part) :=
        fun part hlt => (ih (sizeOf part) (hsize ▸ hlt) part rfl).1
      have hobject := fun name =>
        openaiFunctionToPydantic_iff hasBaseModelAttribute name hparts
      exact ⟨fun fieldName => getTypeFromPropertyDict_iff hasBaseModelAttribute fieldName spec
        hobject hparts, hobject⟩

end Converter

end NoraFleet.Tools
