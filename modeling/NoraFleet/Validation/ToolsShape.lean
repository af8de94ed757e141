import NoraFleet.Base.Json

/-!
# The shape of tool lists

`ToolsShapeValidator` reports what the validators after it, and the runtime, could not go
through: a `tools` that is not a list, and entries that are neither strings nor
dictionaries.
-/

namespace NoraFleet.Validation

open Base

/-- `type(value).__name__`. -/
def typeName : Json → PyStr
  | .null => str "NoneType"
  | .bool _ => str "bool"
  | .int _ => str "int"
  | .float _ => str "float"
  | .str _ => str "str"
  | .arr _ => str "list"
  | .obj _ => str "dict"

namespace ToolsShapeValidator

/-- `isinstance(value, (str, dict))`. -/
def isStrOrDict : Json → Bool
  | .str _ | .obj _ => true
  | _ => false

/-- `check_element_types` of a list, from an index on. -/
def checkElementTypes (allowed : Json → Bool) (typeLabel agentName fieldPrefix : PyStr) :
    Nat → List Json → List PyStr
  | _, [] => []
  | i, value :: rest =>
      let errors := checkElementTypes allowed typeLabel agentName fieldPrefix (i + 1) rest
      if allowed value then errors
      else
        (agentName ++ str " '" ++ fieldPrefix ++ str "[" ++ str (toString i) ++
          str "]' must be a " ++ typeLabel ++ str ", got " ++ typeName value ++ str ".") :: errors

/-- `validate_tools(agent_name, agent)`. -/
def validateTools (agentName : PyStr) (agent : List (PyStr × Json)) : List PyStr :=
  match Json.lookup agent (str "tools") with
  | none | some .null => []
  | some (.arr tools) =>
      checkElementTypes isStrOrDict (str "str or dict") agentName (str "tools") 0 tools
  | some tools =>
      [agentName ++ str " 'tools' must be a list, got " ++ typeName tools ++ str "."]

/-- `isinstance(value, str)`. -/
def isStr : Json → Bool
  | .str _ => true
  | _ => false

/-- `check_element_types` of a dictionary. What `repr` makes of a key is given. -/
def checkEntryTypes (repr : PyStr → PyStr) (allowed : Json → Bool)
    (typeLabel agentName fieldPrefix : PyStr) (items : List (PyStr × Json)) : List PyStr :=
  items.filterMap fun entry =>
    if allowed entry.2 then none
    else some (agentName ++ str " '" ++ fieldPrefix ++ str "[" ++ repr entry.1 ++
      str "]' must be a " ++ typeLabel ++ str ", got " ++ typeName entry.2 ++ str ".")

/-- `validate_args_tools(agent_name, agent)`. -/
def validateArgsTools (repr : PyStr → PyStr) (agentName : PyStr) (agent : List (PyStr × Json)) :
    List PyStr :=
  match Json.lookup agent (str "args") with
  | some (.obj args) =>
      match Json.lookup args (str "tools") with
      | none => []
      | some (.obj argsTools) =>
          checkEntryTypes repr isStr (str "str (agent name)") agentName (str "args.tools") argsTools
      | some (.arr argsTools) =>
          checkElementTypes isStr (str "str (agent name)") agentName (str "args.tools") 0 argsTools
      | some argsTools =>
          [agentName ++ str " 'args.tools' must be a dict or list, got " ++ typeName argsTools ++
            str "."]
  | _ => []

/-- Nothing is reported exactly when every element has one of the types. -/
theorem checkElementTypes_eq_nil_iff (allowed : Json → Bool)
    (typeLabel agentName fieldPrefix : PyStr) (i : Nat) (items : List Json) :
    checkElementTypes allowed typeLabel agentName fieldPrefix i items = [] ↔
      ∀ value ∈ items, allowed value = true := by
  induction items generalizing i with
  | nil => simp [checkElementTypes]
  | cons value rest ih =>
      rw [checkElementTypes, List.forall_mem_cons, ← ih (i + 1)]
      cases allowed value with
      | true => simp
      | false => simp

/-- The entries of a list that passes are strings and dictionaries. -/
theorem str_or_dict_of_validateTools {agentName : PyStr} {agent : List (PyStr × Json)}
    (h : validateTools agentName agent = []) {tools : List Json}
    (htools : Json.lookup agent (str "tools") = some (.arr tools)) {tool : Json}
    (htool : tool ∈ tools) :
    (∃ reference, tool = .str reference) ∨ ∃ members, tool = .obj members := by
  unfold validateTools at h
  rw [htools] at h
  have hallowed := (checkElementTypes_eq_nil_iff _ _ _ _ _ _).mp h tool htool
  cases tool with
  | str reference => exact .inl ⟨reference, rfl⟩
  | obj members => exact .inr ⟨members, rfl⟩
  | null => cases hallowed
  | bool b => cases hallowed
  | int n => cases hallowed
  | float x => cases hallowed
  | arr items => cases hallowed

end ToolsShapeValidator

end NoraFleet.Validation
