import NoraFleet.Networks.AgentNetwork

/-!
# References between agents

An agent refers to others in its `tools` and in its `args.tools`. Both are read in
a way that takes a malformed value for none at all.
-/

namespace NoraFleet.Networks

open Base

/-- `str(value)`, of values that are no texts. -/
abbrev StrOf := Json → Except PyError PyStr

namespace AbstractNetworkValidator

variable (extractorGet : ExtractorGet)

/-- `remove_dictionary_tools(down_chains)`. -/
def removeDictionaryTools (downChains : List Json) : List PyStr :=
  downChains.filterMap fun
    | .str tool => some tool
    | _ => none

/-- `coerce_tools(agent_spec)`. -/
def coerceTools (agentSpec : Json) : Except PyError (List Json) :=
  (extractorGet agentSpec (str "tools") (.arr [])).map fun
    | .arr tools => tools
    | _ => []

/-- `coerce_args_tools(agent_spec)`. -/
def coerceArgsTools (agentSpec : Json) : Except PyError (List Json) :=
  (extractorGet agentSpec (str "args.tools") (.arr [])).map fun
    | .obj argsTools => argsTools.map Prod.snd
    | .arr argsTools => argsTools
    | _ => []

/-- `is_url_or_path(tool)`. -/
def isUrlOrPath (tool : PyStr) : Bool :=
  (str "/").isPrefixOf tool || (str "http://").isPrefixOf tool || (str "https://").isPrefixOf tool

theorem mem_removeDictionaryTools (downChains : List Json) (tool : PyStr) :
    tool ∈ removeDictionaryTools downChains ↔ .str tool ∈ downChains := by
  unfold removeDictionaryTools
  rw [List.mem_filterMap]
  constructor
  · rintro ⟨entry, hentry, htool⟩
    cases entry with
    | str other =>
        obtain rfl := Option.some.inj htool
        exact hentry
    | null => cases htool
    | bool b => cases htool
    | int n => cases htool
    | float x => cases htool
    | arr items => cases htool
    | obj members => cases htool
  · intro h
    exact ⟨.str tool, h, rfl⟩

/-- An agent refers to a tool in its `tools` or in its `args.tools`. -/
def Refers (agentSpec : Json) (tool : PyStr) : Prop :=
  (∃ tools, coerceTools extractorGet agentSpec = .ok tools ∧ .str tool ∈ tools) ∨
    ∃ argsTools, coerceArgsTools extractorGet agentSpec = .ok argsTools ∧ .str tool ∈ argsTools

/-- The references of an agent can be read. -/
def Readable (agentSpec : Json) : Prop :=
  (∃ tools, coerceTools extractorGet agentSpec = .ok tools) ∧
    ∃ argsTools, coerceArgsTools extractorGet agentSpec = .ok argsTools

variable {extractorGet}

/-- The references of an agent, from what is read of it. -/
theorem refers_iff {agentSpec : Json} {tools argsTools : List Json}
    (htools : coerceTools extractorGet agentSpec = .ok tools)
    (hargsTools : coerceArgsTools extractorGet agentSpec = .ok argsTools) (tool : PyStr) :
    Refers extractorGet agentSpec tool ↔ .str tool ∈ tools ++ argsTools := by
  unfold Refers
  rw [List.mem_append]
  simp [htools, hargsTools]

/-- The references of a dictionary can be read, where its keys can. -/
theorem readable_of_get
    (h : ∀ members path default, ∃ value, extractorGet (.obj members) path default = .ok value)
    (members : List (PyStr × Json)) : Readable extractorGet (.obj members) := by
  obtain ⟨tools, htools⟩ := h members (str "tools") (.arr [])
  obtain ⟨argsTools, hargsTools⟩ := h members (str "args.tools") (.arr [])
  unfold Readable coerceTools coerceArgsTools
  rw [htools, hargsTools]
  exact ⟨⟨_, rfl⟩, _, rfl⟩

end AbstractNetworkValidator

end NoraFleet.Networks
