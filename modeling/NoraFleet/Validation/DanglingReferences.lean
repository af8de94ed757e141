import Mathlib
import NoraFleet.Activations.ActivationFactory
import NoraFleet.Validation.Agreement

/-!
# References that lead nowhere

A string among the tools of an agent names an agent of the network, or is recognized by the
runtime as an agent elsewhere or an MCP tool. The validators look for this in `tools`: what is
no URL or path must name an agent, and a URL is let through. Nobody looks at `args.tools`.

* `recognized_iff` — what the runtime recognizes, by the parts of a URL;
* `canBuild_iff` — what the factory of activations can build;
* `noDangling_iff` — the descriptions without references that lead nowhere.
-/

namespace NoraFleet.Validation

open Base Networks Activations AbstractNetworkValidator

section Recognizing

variable (check : Urls.NetlocCheck)

/-- The runtime recognizes a reference as an external agent or as an MCP tool. -/
def Recognized (tool : PyStr) : Prop :=
  ExternalAgentParsing.isExternalAgent check tool = .ok true ∨
    ExternalAgentParsing.isMcpTool check (.str tool) = true

/-- A URL or path with something behind its first slash. -/
def HasPath (tool : PyStr) : Prop :=
  ∃ parsed, Urls.urlparse check tool = .ok parsed ∧ 2 ≤ parsed.path.length ∧
    parsed.path.head? = some 47

/-- The URL of a host with a label `mcp`. -/
def HasMcpHost (tool : PyStr) : Prop :=
  ∃ parsed, Urls.urlparse check tool = .ok parsed ∧
    (parsed.scheme = str "http" ∨ parsed.scheme = str "https") ∧ parsed.netloc ≠ [] ∧
    parsed.fragment = [] ∧
    str "mcp" ∈ (Text.lowerAscii (ExternalAgentParsing.hostname parsed.netloc)).splitOn 46

variable {check}

theorem isExternalAgent_iff (tool : PyStr) :
    ExternalAgentParsing.isExternalAgent check tool = .ok true ↔ HasPath check tool := by
  unfold ExternalAgentParsing.isExternalAgent ExternalAgentParsing.parseExternalAgent HasPath
  by_cases hnil : tool = []
  · subst hnil
    rw [if_pos rfl]
    constructor
    · intro h
      cases h
    · rintro ⟨parsed, hparsed, hlength, -⟩
      have hempty : ∀ c, c ∉ parsed.path :=
        fun c hc => List.not_mem_nil (Urls.mem_of_mem_path hparsed hc)
      rw [List.eq_nil_iff_forall_not_mem.mpr hempty] at hlength
      cases hlength
  · rw [if_neg hnil]
    cases hparsed : Urls.urlparse check tool with
    | error e => simp [Except.map]
    | ok parsed =>
        dsimp only
        split
        · rename_i hshort
          refine ⟨fun h => (nomatch h), ?_⟩
          rintro ⟨other, hother, hlength, -⟩
          obtain rfl := Except.ok.inj hother
          omega
        · split
          · rename_i hslash
            refine ⟨fun h => (nomatch h), ?_⟩
            rintro ⟨other, hother, -, hhead⟩
            obtain rfl := Except.ok.inj hother
            exact absurd hhead hslash
          · rename_i hshort hslash
            exact ⟨fun _ => ⟨parsed, rfl, by omega, not_not.mp hslash⟩, fun _ => rfl⟩

/-- A path with a segment `mcp` has something behind its first slash. -/
theorem length_of_mcp {path : PyStr} (hrooted : Urls.Rooted path)
    (h : str "mcp" ∈ (Text.lowerAscii path).splitOn 47) :
    2 ≤ path.length ∧ path.head? = some 47 := by
  rcases hrooted with rfl | hhead
  · exact absurd h (by decide)
  · refine ⟨?_, hhead⟩
    by_contra hshort
    cases path with
    | nil => cases hhead
    | cons c rest =>
        obtain rfl := Option.some.inj hhead
        obtain rfl : rest = [] := by
          rw [List.length_cons] at hshort
          exact List.length_eq_zero_iff.mp (by omega)
        exact absurd h (by decide)

/-- **Recognized references.** They have a path, or a host with a label `mcp`. -/
theorem recognized_iff (tool : PyStr) :
    Recognized check tool ↔ HasPath check tool ∨ HasMcpHost check tool := by
  unfold Recognized
  rw [isExternalAgent_iff]
  constructor
  · rintro (hpath | hmcp)
    · exact .inl hpath
    · unfold ExternalAgentParsing.isMcpTool at hmcp
      dsimp only at hmcp
      split at hmcp
      · cases hmcp
      · rename_i parsed hparsed
        simp only [Bool.and_eq_true, Bool.or_eq_true, decide_eq_true_eq,
          List.contains_iff_mem] at hmcp
        obtain ⟨⟨⟨hscheme, hnetloc⟩, hfragment⟩, hhost | hsegment⟩ := hmcp
        · exact .inr ⟨parsed, hparsed, hscheme, hnetloc, hfragment, hhost⟩
        · have hrooted := Urls.rooted_path hparsed (Urls.head?_of_netloc_ne_nil hparsed hnetloc)
          obtain ⟨hlength, hhead⟩ := length_of_mcp hrooted hsegment
          exact .inl ⟨parsed, hparsed, hlength, hhead⟩
  · rintro (hpath | ⟨parsed, hparsed, hscheme, hnetloc, hfragment, hhost⟩)
    · exact .inl hpath
    · right
      unfold ExternalAgentParsing.isMcpTool
      dsimp only
      rw [hparsed]
      simp only [Bool.and_eq_true, Bool.or_eq_true, decide_eq_true_eq, List.contains_iff_mem]
      exact ⟨⟨⟨hscheme, hnetloc⟩, hfragment⟩, .inl hhost⟩

end Recognizing

theorem not_recognized_of_matchesPattern {check : Urls.NetlocCheck} {name : PyStr}
    (h : ToolNameNetworkValidator.matchesPattern name = true) : ¬Recognized check name := by
  have hslash : 47 ∉ name := ToolNameNetworkValidator.not_mem_of_matchesPattern h (.inr rfl)
  rw [recognized_iff]
  rintro (⟨parsed, hparsed, -, hhead⟩ | ⟨parsed, hparsed, -, hnetloc, -⟩)
  · exact hslash (Urls.mem_of_mem_path hparsed (List.mem_of_head? hhead))
  · exact hslash (Urls.mem_of_netloc_ne_nil hparsed hnetloc)

/-! ## References -/

/-- The agents of a configuration with their names, also those whose place another one takes. -/
def entriesOf (config : List (PyStr × Json)) : Except PyError (List (Key × Json)) :=
  match Json.lookup config (str "tools") with
  | none => .ok (config.map fun member => (.text member.1, member.2))
  | some agents =>
      match agents.iterate with
      | none => .error .typeError
      | some agents => agents.mapM named

theorem getNameToSpec_eq_map (config : List (PyStr × Json)) :
    getNameToSpec config = (entriesOf config).map Dict.empty.update := by
  unfold getNameToSpec entriesOf
  cases Json.lookup config (str "tools") with
  | none => rfl
  | some agents =>
      dsimp only
      cases agents.iterate with
      | none => rfl
      | some agents => exact foldlM_addAgent agents .empty

section References

variable (check : Urls.NetlocCheck) (extractorGet : ExtractorGet)
  (externalPreppers : List (List (PyStr × Json) → Bool))

/-- The factory can build an activation for a reference, or it is one to an MCP tool, which is
built without an activation. -/
def CanBuild (network : AgentNetwork) (tool : PyStr) : Prop :=
  (∃ prepper, ActivationFactory.createAgentActivation check
    (ActivationFactory.createPreppers externalPreppers) network tool = .ok prepper) ∨
  ExternalAgentParsing.isMcpTool check (.str tool) = true

/-- Every reference of every agent names an agent or is recognized by the runtime, which can
build what it leads to. -/
def NoDangling (config : List (PyStr × Json)) (name : PyStr) : Prop :=
  ∃ agents, entriesOf config = .ok agents ∧
    ∀ agent ∈ agents, ∀ tool, Refers extractorGet agent.2 tool →
      (Key.text tool ∈ agents.map Prod.fst ∨ Recognized check tool) ∧
      ∀ network, AgentNetwork.new extractorGet config name = .ok network →
        CanBuild check externalPreppers network tool

/-- A URL or path with something behind its first slash, or the URL of a host with a label
`mcp`. -/
def LeadsElsewhere (tool : PyStr) : Prop := HasPath check tool ∨ HasMcpHost check tool

/-- An agent is registered under a name. -/
def IsRegistered (config : List (PyStr × Json)) (name : PyStr) : Prop :=
  ∃ specs spec, Json.lookup config (str "tools") = some (.arr specs) ∧ spec ∈ specs ∧
    AgentNetwork.getNameFromSpec extractorGet spec = .ok (.str name)

/-- What the validators leave open: the references in `args.tools`, what is behind the start of a
URL or path, the tools of an agent whose place another one takes, and the names under
`function`. -/
structure Resolvable (config : List (PyStr × Json)) (name : PyStr) (agents : List (Key × Json)) :
    Prop where
  argsTools : ∀ agent ∈ agents, ∀ argsTools tool,
    coerceArgsTools extractorGet agent.2 = .ok argsTools → Json.str tool ∈ argsTools →
    Key.text tool ∈ agents.map Prod.fst ∨ LeadsElsewhere check tool
  urls : ∀ agent ∈ agents, ∀ tools tool, coerceTools extractorGet agent.2 = .ok tools →
    Json.str tool ∈ tools → isUrlOrPath tool = true → LeadsElsewhere check tool
  replaced : ∀ before agent after, agents = before ++ agent :: after →
    agent.1 ∈ after.map Prod.fst → ∀ tools tool, coerceTools extractorGet agent.2 = .ok tools →
    Json.str tool ∈ tools → isUrlOrPath tool = false →
    Key.text tool ∈ agents.map Prod.fst ∨ LeadsElsewhere check tool
  registered : ∀ network, AgentNetwork.new extractorGet config name = .ok network →
    ∀ agent ∈ agents, ∀ tool, Refers extractorGet agent.2 tool →
    Key.text tool ∈ agents.map Prod.fst → IsRegistered extractorGet config tool

end References

/-! ## What the factory can build -/

section Building

variable {check : Urls.NetlocCheck} {extractorGet : ExtractorGet}
  {externalPreppers : List (List (PyStr × Json) → Bool)} {config : List (PyStr × Json)}
  {name tool : PyStr} {network : AgentNetwork}

theorem sameKey_str_iff {key : Json} {s : PyStr} :
    AgentNetwork.sameKey key (.str s) = true ↔ key = .str s := by
  cases key with
  | str t => exact decide_eq_true_iff.trans ⟨congrArg Json.str, Json.str.inj⟩
  | null => simp [AgentNetwork.sameKey, AgentNetwork.keyPlace, Json.place]
  | bool b => simp [AgentNetwork.sameKey, AgentNetwork.keyPlace, Json.place]
  | int n => simp [AgentNetwork.sameKey, AgentNetwork.keyPlace, Json.place]
  | float x => cases x <;> simp [AgentNetwork.sameKey, AgentNetwork.keyPlace, Json.place]
  | arr items => simp [AgentNetwork.sameKey, AgentNetwork.keyPlace, Json.place]
  | obj members => simp [AgentNetwork.sameKey, AgentNetwork.keyPlace, Json.place]

/-- The agents of a configuration come from a list of dictionaries, if they come from any. -/
def IsListOfDicts (config : List (PyStr × Json)) : Prop :=
  ∀ tools, Json.lookup config (str "tools") = some tools →
    ∃ specs, tools = .arr specs ∧ ∀ spec ∈ specs, ∃ members, spec = .obj members

/-- What is in the map of a network. -/
theorem mem_agentSpecMap_iff (hlist : IsListOfDicts config)
    (hnew : AgentNetwork.new extractorGet config name = .ok network) (entry : Json × Json) :
    entry ∈ network.agentSpecMap ↔ ∃ specs, Json.lookup config (str "tools") = some (.arr specs) ∧
      entry.2 ∈ specs ∧ AgentNetwork.getNameFromSpec extractorGet entry.2 = .ok entry.1 := by
  cases htools : Json.lookup config (str "tools") with
  | none =>
      unfold AgentNetwork.new at hnew
      rw [htools] at hnew
      obtain rfl := Except.ok.inj hnew
      simp
  | some tools =>
      obtain ⟨specs, rfl, hdicts⟩ := hlist tools htools
      obtain ⟨map, hmap, rfl⟩ := (new_eq_ok_iff htools).mp hnew
      obtain ⟨added, rfl, rfl, hnames, -⟩ := of_foldlM_register (fun spec hspec => by
        obtain ⟨members, rfl⟩ := hdicts spec hspec
        exact Json.noConfusion) List.Pairwise.nil hmap
      constructor
      · intro hentry
        exact ⟨_, rfl, List.mem_map_of_mem hentry, hnames entry hentry⟩
      · rintro ⟨specs, hspecs, hmem, hname⟩
        obtain rfl := Json.arr.inj (Option.some.inj hspecs)
        obtain ⟨other, hother, hsame⟩ := List.mem_map.mp hmem
        have hkey := hnames other hother
        rw [hsame, hname] at hkey
        obtain rfl : other = entry := Prod.ext (Except.ok.inj hkey).symm hsame
        exact hother

/-- What the factory can build: what is registered, and what is recognized. -/
theorem canBuild_iff (hlist : IsListOfDicts config)
    (hnew : AgentNetwork.new extractorGet config name = .ok network) :
    CanBuild check externalPreppers network tool ↔
      IsRegistered extractorGet config tool ∨ Recognized check tool := by
  unfold CanBuild Recognized
  cases hspec : network.getAgentToolSpec (.str tool) with
  | none =>
      have hnot : ¬IsRegistered extractorGet config tool := by
        rintro ⟨specs, spec, htools, hmem, hname⟩
        have hentry := (mem_agentSpecMap_iff hlist hnew (.str tool, spec)).mpr
          ⟨specs, htools, hmem, hname⟩
        unfold AgentNetwork.getAgentToolSpec at hspec
        rw [Option.map_eq_none_iff, List.find?_eq_none] at hspec
        exact hspec _ hentry (sameKey_str_iff.mpr rfl)
      rw [ActivationFactory.isOk_createAgentActivation_of_none hspec]
      exact ⟨.inr, fun h => h.resolve_left hnot⟩
  | some spec =>
      unfold AgentNetwork.getAgentToolSpec at hspec
      obtain ⟨entry, hfind, rfl⟩ := Option.map_eq_some_iff.mp hspec
      have hkey := sameKey_str_iff.mp (List.find?_some (p := fun entry : Json × Json =>
        AgentNetwork.sameKey entry.1 (.str tool)) hfind)
      obtain ⟨specs, htools, hmem, hname⟩ :=
        (mem_agentSpecMap_iff hlist hnew entry).mp (List.mem_of_find?_eq_some hfind)
      rw [hkey] at hname
      obtain ⟨others, hothers, hdicts⟩ := hlist _ htools
      obtain rfl := Json.arr.inj hothers
      obtain ⟨members, hmembers⟩ := hdicts _ hmem
      constructor
      · intro _
        exact .inl ⟨specs, _, htools, hmem, hname⟩
      · intro _
        rw [hmembers] at hspec
        exact .inl (ActivationFactory.isOk_createAgentActivation_of_dict hspec)

end Building

/-! ## What is accepted -/

section Accepted

variable {libraries : Libraries} {check : Urls.NetlocCheck} {urls : List PyStr}
  {externalPreppers : List (List (PyStr × Json) → Bool)} {config : List (PyStr × Json)}
  {name tool : PyStr} {agents : List (Key × Json)}

/-- The agents of what is accepted come from a list. -/
theorem isListOfDicts_of_accepted {nameToSpec : NameToSpec}
    (htable : getNameToSpec config = .ok nameToSpec)
    (haccepted : Accepted libraries urls nameToSpec) : IsListOfDicts config := by
  intro tools htools
  obtain ⟨agents, rfl, -, hgiven, -⟩ := exists_agents htable haccepted htools
  refine ⟨_, rfl, fun spec hspec => ?_⟩
  obtain ⟨agent, hagent, rfl⟩ := List.mem_map.mp hspec
  exact (hgiven agent hagent).1

/-- The names of agents that are accepted match the pattern. -/
theorem matchesPattern_of_named (haccepted : Accepted libraries urls (Dict.empty.update agents))
    (h : Key.text tool ∈ agents.map Prod.fst) :
    ToolNameNetworkValidator.matchesPattern tool = true := by
  obtain ⟨spec, hspec⟩ := Dict.exists_get?_of_mem (Dict.mem_update.mpr (.inr h))
  obtain ⟨other, members, specName, hagent, hmatches, -⟩ :=
    haccepted.named _ (Dict.get?_eq_some_iff.mp hspec)
  obtain ⟨hsame, -⟩ := Prod.mk.inj hagent
  rw [Key.text.inj hsame]
  exact hmatches

/-- The tools of an agent whose place no other one takes name agents, or are URLs or paths. -/
theorem named_of_last (haccepted : Accepted libraries urls (Dict.empty.update agents))
    {before after : List (Key × Json)} {agent : Key × Json}
    (hsplit : agents = before ++ agent :: after) (hlast : agent.1 ∉ after.map Prod.fst)
    {tools : List Json} (htools : coerceTools libraries.extractorGet agent.2 = .ok tools)
    (htool : Json.str tool ∈ tools) (hurl : isUrlOrPath tool = false) :
    Key.text tool ∈ agents.map Prod.fst := by
  have hget : (Dict.empty.update agents).get? agent.1 = some agent.2 := by
    rw [hsplit]
    exact Dict.get?_update_of_last _ hlast
  have hmissing := haccepted.missing _ (Dict.get?_eq_some_iff.mp hget)
  unfold MissingNodesNetworkValidator.missingTools at hmissing
  rw [htools] at hmissing
  have hnone := List.filter_eq_nil_iff.mp (Except.ok.inj hmissing) tool
    ((mem_removeDictionaryTools tools tool).mpr htool)
  rw [hurl] at hnone
  have hmem : Key.text tool ∈ Dict.empty.update agents := by simpa using hnone
  exact (Dict.mem_update.mp hmem).resolve_left fun hempty => absurd hempty (by simp)

/-- What is resolvable dangles nowhere. -/
theorem noDangling_of_resolvable (hagents : entriesOf config = .ok agents)
    (haccepted : Accepted libraries urls (Dict.empty.update agents))
    (hlist : IsListOfDicts config)
    (h : Resolvable check libraries.extractorGet config name agents) :
    NoDangling check libraries.extractorGet externalPreppers config name := by
  refine ⟨agents, hagents, fun agent hagent tool hrefers => ?_⟩
  have hleads : Key.text tool ∈ agents.map Prod.fst ∨ Recognized check tool := by
    rw [recognized_iff]
    rcases id hrefers with ⟨tools, htools, htool⟩ | ⟨argsTools, hargsTools, htool⟩
    · cases hurl : isUrlOrPath tool with
      | true => exact .inr (h.urls agent hagent tools tool htools htool hurl)
      | false =>
          obtain ⟨before, after, hsplit⟩ := List.append_of_mem hagent
          by_cases hlast : agent.1 ∈ after.map Prod.fst
          · exact h.replaced before agent after hsplit hlast tools tool htools htool hurl
          · exact .inl (named_of_last haccepted hsplit hlast htools htool hurl)
    · exact h.argsTools agent hagent argsTools tool hargsTools htool
  refine ⟨hleads, fun network hnew => (canBuild_iff hlist hnew).mpr ?_⟩
  exact hleads.imp_left (h.registered network hnew agent hagent tool hrefers)

/-- What dangles nowhere is resolvable. -/
theorem resolvable_of_noDangling (hagents : entriesOf config = .ok agents)
    (haccepted : Accepted libraries urls (Dict.empty.update agents))
    (hlist : IsListOfDicts config)
    (h : NoDangling check libraries.extractorGet externalPreppers config name) :
    Resolvable check libraries.extractorGet config name agents := by
  obtain ⟨others, hothers, hall⟩ := h
  obtain rfl := Except.ok.inj (hagents.symm.trans hothers)
  have hnamed : ∀ {tool : PyStr}, Key.text tool ∈ agents.map Prod.fst → ¬Recognized check tool :=
    fun hmem => not_recognized_of_matchesPattern (matchesPattern_of_named haccepted hmem)
  refine ⟨?_, ?_, ?_, ?_⟩
  · intro agent hagent argsTools tool hargsTools htool
    exact (hall agent hagent tool (.inr ⟨argsTools, hargsTools, htool⟩)).1.imp_right
      (recognized_iff tool).mp
  · intro agent hagent tools tool htools htool hurl
    refine (recognized_iff tool).mp
      ((hall agent hagent tool (.inl ⟨tools, htools, htool⟩)).1.resolve_left fun hmem => ?_)
    rw [ToolNameNetworkValidator.isUrlOrPath_of_matchesPattern
      (matchesPattern_of_named haccepted hmem)] at hurl
    cases hurl
  · rintro before agent after rfl - tools tool htools htool -
    exact (hall agent (by simp) tool (.inl ⟨tools, htools, htool⟩)).1.imp_right
      (recognized_iff tool).mp
  · intro network hnew agent hagent tool hrefers hmem
    exact ((canBuild_iff hlist hnew).mp
      ((hall agent hagent tool hrefers).2 network hnew)).resolve_right
      (hnamed hmem)

end Accepted

/-- **References.** Of the configurations that are accepted, those that are resolvable are without
references that lead nowhere. -/
theorem noDangling_iff (libraries : Libraries) (check : Urls.NetlocCheck)
    (externalPreppers : List (List (PyStr × Json) → Bool))
    (externalNetworkNames mcpServers : List PyStr) (config : List (PyStr × Json)) (name : PyStr)
    (h : Accepts libraries externalNetworkNames mcpServers config) :
    NoDangling check libraries.extractorGet externalPreppers config name ↔
      ∃ agents, entriesOf config = .ok agents ∧
        Resolvable check libraries.extractorGet config name agents := by
  obtain ⟨nameToSpec, htable, haccepted⟩ := accepted_of_accepts h
  have hlist := isListOfDicts_of_accepted htable haccepted
  rw [getNameToSpec_eq_map] at htable
  obtain ⟨agents, hagents, rfl⟩ := exists_of_map_eq_ok htable
  constructor
  · intro hnone
    exact ⟨agents, hagents, resolvable_of_noDangling hagents haccepted hlist hnone⟩
  · rintro ⟨others, hothers, hresolvable⟩
    obtain rfl := Except.ok.inj (hagents.symm.trans hothers)
    exact noDangling_of_resolvable hagents haccepted hlist hresolvable

theorem noDangling_frontAndHelper :
    NoDangling (fun _ => true) dictionaryGet [] frontAndHelper (str "demo") := by
  refine (noDangling_iff plainLibraries (fun _ => true) [] [] [] frontAndHelper (str "demo")
    rfl).mpr ⟨_, rfl, ?_, ?_, ?_, ?_⟩
  · intro agent hagent argsTools tool hargsTools htool
    rcases List.mem_cons.mp hagent with rfl | hagent
    · obtain rfl := Except.ok.inj hargsTools
      exact absurd htool List.not_mem_nil
    · obtain rfl := List.mem_singleton.mp hagent
      obtain rfl := Except.ok.inj hargsTools
      exact absurd htool List.not_mem_nil
  · intro agent hagent tools tool htools htool hurl
    rcases List.mem_cons.mp hagent with rfl | hagent
    · obtain rfl := Except.ok.inj htools
      obtain rfl := Json.str.inj (List.mem_singleton.mp htool)
      cases hurl
    · obtain rfl := List.mem_singleton.mp hagent
      obtain rfl := Except.ok.inj htools
      exact absurd htool List.not_mem_nil
  · intro before agent after hsplit hmem
    -- the two names are different
    have hkeys := congrArg (List.map Prod.fst) hsplit
    rw [List.map_append, List.map_cons] at hkeys
    have hnodup : [Key.text (str "front"), Key.text (str "helper")].Nodup := by decide
    rw [show [Key.text (str "front"), Key.text (str "helper")] = _ from hkeys] at hnodup
    have hnot := (List.nodup_cons.mp (List.nodup_append.mp hnodup).2.1).1
    exact absurd hmem hnot
  · intro network _ agent _ tool _ hnamed
    rcases List.mem_cons.mp hnamed with hsame | hnamed
    · obtain rfl := Key.text.inj hsame
      exact ⟨_, _, rfl, List.mem_cons_self, rfl⟩
    · obtain rfl := Key.text.inj (List.mem_singleton.mp hnamed)
      exact ⟨_, _, rfl, List.mem_cons_of_mem _ List.mem_cons_self, rfl⟩

/-- An agent with a reference in its `args.tools` that names no agent. -/
def ghostInArgs : List (PyStr × Json) :=
  [(str "tools", .arr [.obj [(str "name", .str (str "front")),
    (str "args", .obj [(str "tools", .arr [.str (str "ghost")])])]])]

/-- What is accepted may have references that lead nowhere. -/
theorem ghostInArgs_dangles :
    ¬ ∀ (libraries : Libraries) (check : Urls.NetlocCheck)
      (externalPreppers : List (List (PyStr × Json) → Bool))
      (externalNetworkNames mcpServers : List PyStr) (config : List (PyStr × Json)) (name : PyStr),
      Accepts libraries externalNetworkNames mcpServers config →
      NoDangling check libraries.extractorGet externalPreppers config name := by
  intro h
  obtain ⟨agents, hagents, hall⟩ :=
    h plainLibraries (fun _ => true) [] [] [] ghostInArgs (str "demo") rfl
  obtain rfl := Except.ok.inj hagents
  obtain ⟨hnamed | hrecognized, -⟩ := hall _ List.mem_cons_self (str "ghost")
    (.inr ⟨_, rfl, List.mem_cons_self⟩)
  · exact absurd (Key.text.inj (List.mem_singleton.mp hnamed)) (by decide)
  · exact not_recognized_of_matchesPattern rfl hrecognized

end NoraFleet.Validation
