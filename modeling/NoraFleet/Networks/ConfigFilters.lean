import NoraFleet.Base.Keys
import NoraFleet.Base.Replace
import NoraFleet.Networks.References

/-!
# Filters for network configurations

The configuration of a network is rewritten four times before a network is built of
it: the definitions under `commondefs` are put in for the values and then for the
parts of strings that name them, defaults are copied from the top into the agents,
and the names of agents are corrected.

A `DictionaryOverlay` merges dictionaries. It is not part of the program, and neither
is what `str` makes of a value that is no text: both are parameters.
-/

namespace NoraFleet.Networks

open Base

/-- A `ConfigFilter`. -/
abbrev ConfigFilter := Json → Except PyError Json

/-- `DictionaryOverlay().overlay(basis, other)`. -/
abbrev Overlay := List (PyStr × Json) → List (PyStr × Json) → List (PyStr × Json)

/-- A dictionary of replacements. -/
abbrev Replacements := List (Key × Json)

/-! ## Common definitions -/

namespace AbstractCommonDefsConfigFilter

/-- `make_replacements(source_value, replacements)`, of strings. Other values are left
as they are. -/
abbrev MakeReplacements := Replacements → PyStr → Except PyError Json

mutual

/-- What becomes of one value. -/
def filterValue (make : PyStr → Except PyError Json) : Json → Except PyError Json
  | .str s => make s
  | .arr items => (filterOneList make items).map .arr
  | .obj members => (filterOneDict make members).map .obj
  | value => .ok value

/-- `filter_one_list(source, replacements)`. -/
def filterOneList (make : PyStr → Except PyError Json) :
    List Json → Except PyError (List Json)
  | [] => .ok []
  | component :: rest =>
      match filterValue make component with
      | .error e => .error e
      | .ok replacement => (filterOneList make rest).map (replacement :: ·)

/-- `filter_one_dict(source, replacements)`. No replacement is `None`, other than for
`None` itself. -/
def filterOneDict (make : PyStr → Except PyError Json) :
    List (PyStr × Json) → Except PyError (List (PyStr × Json))
  | [] => .ok []
  | (key, value) :: rest =>
      match filterValue make value with
      | .error e => .error e
      | .ok replacement => (filterOneDict make rest).map ((key, replacement) :: ·)

end

/-- `replacements.update(new_replacements)`, where there are none yet. -/
def replacementsOf : Json → Except PyError Replacements
  | .obj members => .ok (members.map fun member => (.text member.1, member.2))
  | newReplacements =>
      match newReplacements.iterate with
      | none => .error .typeError
      | some pairs => ofPairs pairs

/-- The replacements that a configuration defines under a key of its `commondefs`. -/
def definedReplacements (commondefsKey : PyStr) (config : List (PyStr × Json)) :
    Except PyError Replacements :=
  let commondefs := (Json.lookup config (str "commondefs")).getD (.obj [])
  if commondefs.truthy then
    match commondefs with
    | .obj definitions => replacementsOf ((Json.lookup definitions commondefsKey).getD (.obj []))
    | _ => .error .attributeError
  else .ok []

/-- The replacements with the replacements among themselves. -/
def filterReplacements (make : MakeReplacements) (replacements : Replacements) :
    Except PyError Replacements :=
  replacements.mapM fun entry =>
    (filterValue (make replacements) entry.2).map fun value => (entry.1, value)

/-- `filter_config(basis_config)`. -/
def filterConfig (commondefsKey : PyStr) (make : MakeReplacements) : ConfigFilter :=
    fun basisConfig =>
  if basisConfig.truthy then
    match basisConfig with
    | .obj config =>
        match definedReplacements commondefsKey config with
        | .error e => .error e
        | .ok [] => .ok (.obj config)
        | .ok replacements =>
            match filterReplacements make replacements with
            | .error e => .error e
            | .ok newReplacements =>
                match ((Json.lookup config (str "tools")).getD .null).iterate with
                | none => .error .typeError
                | some tools => (filterOneList (make newReplacements) tools).map fun tools =>
                    .obj (Dict.setItems config (str "tools") (.arr tools))
    | _ => .error .attributeError
  else .ok basisConfig

end AbstractCommonDefsConfigFilter

/-- The value of a key, if there is one. -/
def Replacements.get (replacements : Replacements) (key : PyStr) : Option Json :=
  (replacements.find? fun entry => entry.1 = .text key).map Prod.snd

namespace DictionaryCommonDefsConfigFilter

/-- `make_replacements(source_value, replacements)`: a whole string. -/
def makeReplacements : AbstractCommonDefsConfigFilter.MakeReplacements := fun replacements source =>
  match replacements.get source with
  | none | some .null => .ok (.str source)
  | some replacement => .ok replacement

/-- `DictionaryCommonDefsConfigFilter().filter_config(basis_config)`. -/
def filterConfig : ConfigFilter :=
  AbstractCommonDefsConfigFilter.filterConfig (str "replacement_values") makeReplacements

end DictionaryCommonDefsConfigFilter

namespace StringCommonDefsConfigFilter

/-- A name in braces. -/
def braced (search : PyStr) : PyStr := 123 :: search ++ [125]

/-- One replacement in a string. `len(replace)` of a number raises. -/
def replaceOne (source : PyStr) : Key × Json → Except PyError PyStr
  | (_, .null) => .ok source
  | (_, .bool _) | (_, .int _) | (_, .float _) => .error .typeError
  | (.text search, .str replacement) =>
      if replacement = [] then .ok source
      else .ok (Text.replace (braced search) replacement source)
  | _ => .ok source

/-- `make_replacements(source_value, replacements)`: the parts of a string, one name
after the other. -/
def makeReplacements : AbstractCommonDefsConfigFilter.MakeReplacements := fun replacements source =>
  (replacements.foldlM replaceOne source).map Json.str

/-- `StringCommonDefsConfigFilter().filter_config(basis_config)`. -/
def filterConfig : ConfigFilter :=
  AbstractCommonDefsConfigFilter.filterConfig (str "replacement_strings") makeReplacements

end StringCommonDefsConfigFilter

/-! ## Tools of a configuration -/

/-- `tools is None or len(tools) == 0`. -/
def noTools : Json → Except PyError Bool
  | .null => .ok true
  | tools =>
      match tools.iterate with
      | none => .error .typeError
      | some items => .ok items.isEmpty

/-- A change to each of the tools of a configuration, if it has any. Only the entries of
a list can be changed; characters and keys raise or are left. -/
def changeTools (change : List Json → Except PyError (List Json)) : ConfigFilter
  | .null => .ok .null
  | .obj config =>
      let tools := (Json.lookup config (str "tools")).getD .null
      match noTools tools with
      | .error e => .error e
      | .ok true => .ok (.obj config)
      | .ok false =>
          match tools with
          | .arr items => (change items).map fun items =>
              .obj (Dict.setItems config (str "tools") (.arr items))
          | _ => (change (tools.iterate.getD [])).map fun _ => .obj config
  | _ => .error .attributeError

/-- What is made of the agents of a configuration. -/
theorem changeTools_eq {change : List Json → Except PyError (List Json)}
    {config : List (PyStr × Json)} {agents : List (List (PyStr × Json))}
    (htools : Json.lookup config (str "tools") = some (.arr (agents.map Json.obj))) :
    changeTools change (.obj config) =
      if agents = [] then .ok (.obj config)
      else (change (agents.map Json.obj)).map fun tools =>
        .obj (Dict.setItems config (str "tools") (.arr tools)) := by
  unfold changeTools
  dsimp only
  rw [htools]
  dsimp only [Option.getD_some]
  cases agents with
  | nil => rfl
  | cons first rest => rfl

/-! ## Defaults -/

namespace DefaultsConfigFilter

/-- An entry of `DEFAULTS_MAPPING`. -/
structure Default where
  sourceKey : PyStr
  destKey : PyStr
  frontManOnly : Bool
  unionFields : List PyStr

/-- A default that goes to the same key of every agent. -/
def plain (key : String) : Default := ⟨str key, str key, false, []⟩

/-- `DEFAULTS_MAPPING`. -/
def defaultsMapping : List Default :=
  [plain "llm_config", ⟨str "llm_config.verbose", str "verbose", false, []⟩, plain "verbose",
    plain "max_steps", plain "max_iterations", plain "max_execution_seconds", plain "max_attempts",
    plain "error_formatter", plain "error_fragments",
    ⟨str "sly_data_schema", str "function.sly_data_schema", true, [str "required"]⟩]

/-- `set_tool_value(target, key, value)`, of a key that is split at its delimiters. -/
def setToolValue (value : Json) : List PyStr → Json → Except PyError Json
  | [], target => .ok target
  | [key], .obj members => .ok (.obj (Dict.setItems members key value))
  | [_], _ => .error .typeError
  | first :: rest, .obj members =>
      match (Json.lookup members first).getD .null with
      | .null => (setToolValue value rest (.obj [])).map fun part =>
          .obj (Dict.setItems members first part)
      | .obj part => (setToolValue value rest (.obj part)).map fun part =>
          .obj (Dict.setItems members first part)
      | _ => .ok (.obj members)
  | _ :: _, _ => .error .attributeError

/-- `list(dict.fromkeys(basis_field + tool_field))`. -/
def unionOf : Json → Json → Except PyError (List Json)
  | .arr basisField, .arr toolField => fromKeys (basisField ++ toolField)
  | .str basisField, .str toolField =>
      fromKeys ((basisField ++ toolField).map fun c => .str [c])
  | _, _ => .error .typeError

/-- `merge_dictionaries(tool, tool_dest_key, basis_value, tool_value, union_fields)`. -/
def mergeDictionaries (overlay : Overlay) (default : Default)
    (basisValue toolValue : List (PyStr × Json)) (tool : Json) : Except PyError Json :=
  let dest := default.destKey.splitOn 46
  match setToolValue (.obj (overlay basisValue toolValue)) dest tool with
  | .error e => .error e
  | .ok merged =>
      default.unionFields.foldlM (fun merged field =>
        match unionOf ((Json.lookup basisValue field).getD (.arr []))
            ((Json.lookup toolValue field).getD (.arr [])) with
        | .error e => .error e
        | .ok union => setToolValue (.arr union) (dest ++ [field]) merged) merged

/-- One default goes into one agent. -/
def applyDefault (extractorGet : ExtractorGet) (overlay : Overlay) (basisConfig : Json)
    (isFrontMan : Bool) (tool : Json) (default : Default) : Except PyError Json :=
  match extractorGet basisConfig default.sourceKey .null with
  | .error e => .error e
  | .ok .null => .ok tool
  | .ok basisValue =>
      if default.frontManOnly && !isFrontMan then .ok tool
      else
        match extractorGet tool default.destKey .null with
        | .error e => .error e
        | .ok .null => setToolValue basisValue (default.destKey.splitOn 46) tool
        | .ok (.obj toolValue) =>
            match basisValue with
            | .obj basisValue => mergeDictionaries overlay default basisValue toolValue tool
            | _ => .ok tool
        | .ok _ => .ok tool

/-- The defaults go into the agents; the first of them is the front man. -/
def applyDefaults (extractorGet : ExtractorGet) (overlay : Overlay) (basisConfig : Json)
    (tools : List Json) : Except PyError (List Json) :=
  tools.zipIdx.mapM fun tool =>
    defaultsMapping.foldlM (applyDefault extractorGet overlay basisConfig (tool.2 == 0)) tool.1

/-- `DefaultsConfigFilter().filter_config(basis_config)`. -/
def filterConfig (extractorGet : ExtractorGet) (overlay : Overlay) : ConfigFilter :=
  fun basisConfig => changeTools (applyDefaults extractorGet overlay basisConfig) basisConfig

end DefaultsConfigFilter

/-! ## Names -/

namespace NameCorrectionConfigFilter

/-- `new_name.replace("/", "_")`. -/
def correctedName (name : PyStr) : PyStr := name.map fun c => if c = 47 then 95 else c

/-- `validate_name(name)`, where a text that begins with `Error: ` describes a problem. -/
def validateName (strOf : StrOf) : Json → Except PyError PyStr
  | .null => .ok (str "Error: no name for agent/tool")
  | .str [] => .ok (str "Error: agent/tool name cannot be empty")
  | .str name => .ok (correctedName name)
  | name => (strOf name).map fun text => str "Error: agent/tool name must be a string " ++ text

/-- One agent with its correction, and the name that is corrected. -/
def correctAgent (strOf : StrOf) : Json → Except PyError (Json × Option PyStr)
  | .obj tool =>
      let name := (Json.lookup tool (str "name")).getD .null
      match validateName strOf name with
      | .error e => .error e
      | .ok newName =>
          match name with
          | .str name =>
              if (str "Error: ").isPrefixOf newName || newName == name then .ok (.obj tool, none)
              else .ok (.obj (Dict.setItems tool name (.str newName)), some name)
          | _ => .ok (.obj tool, none)
  | _ => .error .attributeError

/-- A tool reference is corrected if it names an agent whose name is. -/
def correctTool (corrections : List PyStr) : Json → Json
  | .str agentTool =>
      .str (if corrections.contains agentTool then correctedName agentTool else agentTool)
  | agentTool => agentTool

/-- The corrected names in the tools of one agent. -/
def correctTools (corrections : List PyStr) : Json → Json
  | .obj tool =>
      match Json.lookup tool (str "tools") with
      | some (.arr (first :: rest)) =>
          .obj (Dict.setItems tool (str "tools")
            (.arr ((first :: rest).map (correctTool corrections))))
      | _ => .obj tool
  | tool => tool

/-- The corrections in all agents. -/
def correctNames (strOf : StrOf) (tools : List Json) : Except PyError (List Json) :=
  (tools.mapM (correctAgent strOf)).map fun corrected =>
    (corrected.map Prod.fst).map (correctTools (corrected.filterMap Prod.snd))

/-- `NameCorrectionConfigFilter().filter_config(basis_config)`. -/
def filterConfig (strOf : StrOf) : ConfigFilter := changeTools (correctNames strOf)

end NameCorrectionConfigFilter

/-- `NetworkConfigFilterChain().filter_config(basis_config)`: the filters in order. -/
def NetworkConfigFilterChain.filterConfig (extractorGet : ExtractorGet) (overlay : Overlay)
    (strOf : StrOf) : ConfigFilter := fun basisConfig =>
  [DictionaryCommonDefsConfigFilter.filterConfig, StringCommonDefsConfigFilter.filterConfig,
    DefaultsConfigFilter.filterConfig extractorGet overlay,
    NameCorrectionConfigFilter.filterConfig strOf].foldlM (fun config filter => filter config)
    basisConfig

end NoraFleet.Networks
