import Mathlib
import NoraFleet.Networks.EnteringDefaults
import NoraFleet.Networks.RenamedAgents

/-!
# Passes over a configuration

The four filters of a network are two passes over its agents: one puts definitions in for texts, the
other one puts defaults there and corrects the names.

* `replaced_of_putDefinitions`, `exists_putDefinitions` — what the first pass does, and when it
  returns;
* `agents_of_resolve`, `exists_resolve` — the same for the second one.
-/

namespace NoraFleet.Networks

open Base Json

open AbstractCommonDefsConfigFilter

/-- What is at a place of one list is related to what is there in the other one. -/
theorem exists_of_forall₂ {α β : Type*} {R : α → β → Prop} {first : List α} {second : List β}
    (h : List.Forall₂ R first second) {index : Nat} {a : α} (ha : first[index]? = some a) :
    ∃ b, second[index]? = some b ∧ R a b := by
  induction h generalizing index with
  | nil => cases ha
  | cons hhead _ ih =>
      cases index with
      | zero =>
          obtain rfl := Option.some.inj ha
          exact ⟨_, rfl, hhead⟩
      | succ index => exact ih ha

/-! ## Definitions in one pass -/

/-- What becomes of a text: a value is put in for it, and texts are put in there. -/
def resolveText (values strings : Replacements) (text : PyStr) : Except PyError Json :=
  DictionaryCommonDefsConfigFilter.makeReplacements values text >>=
    filterValue (StringCommonDefsConfigFilter.makeReplacements strings)

/-- The definitions under a key, put into each other. -/
def HasReplacements (commondefsKey : PyStr) (make : MakeReplacements) (config : Members)
    (replacements : Replacements) : Prop :=
  ∃ defined, definedReplacements commondefsKey config = .ok defined ∧
    filterReplacements make defined = .ok replacements

/-- The values and the strings that a configuration defines. -/
structure Defines (config : Members) (values strings : Replacements) : Prop where
  values : HasReplacements (str "replacement_values")
    DictionaryCommonDefsConfigFilter.makeReplacements config values
  strings : HasReplacements (str "replacement_strings")
    StringCommonDefsConfigFilter.makeReplacements config strings

/-- What a loop over the agents goes through, if there are any. -/
def itemsOf (config : Members) : List Json := (agentsOf config).getD []

/-- One configuration has the texts of the agents of another one replaced. Where there are no
replacements it is the other one. -/
structure Replaced (make : PyStr → Except PyError Json) (isEmpty : Prop)
    (config newConfig : Members) : Prop where
  agents : filterOneList make (itemsOf config) = .ok (itemsOf newConfig)
  others : ∀ key, key ≠ str "tools" → lookup newConfig key = lookup config key
  same : isEmpty → newConfig = config
  listed : ¬isEmpty → ∃ items, lookup newConfig (str "tools") = some (.arr items)

section OneFilter

variable {commondefsKey : PyStr} {make : MakeReplacements} {config newConfig : Members}
  {replacements : Replacements}

theorem HasReplacements.unique (h : HasReplacements commondefsKey make config replacements)
    {others : Replacements} (hothers : HasReplacements commondefsKey make config others) :
    others = replacements := by
  obtain ⟨defined, hdefined, hreplacements⟩ := h
  obtain ⟨defined', hdefined', hothers⟩ := hothers
  obtain rfl := Except.ok.inj (hdefined.symm.trans hdefined')
  exact Except.ok.inj (hothers.symm.trans hreplacements)

theorem HasReplacements.congr (h : HasReplacements commondefsKey make config replacements)
    (hsame : lookup newConfig (str "commondefs") = lookup config (str "commondefs")) :
    HasReplacements commondefsKey make newConfig replacements := by
  unfold HasReplacements
  rwa [definedReplacements_congr hsame]

theorem filterReplacements_eq_nil_iff {defined : Replacements}
    (h : filterReplacements make defined = .ok replacements) :
    replacements = [] ↔ defined = [] := by
  have hlength := (forall₂_of_mapM_eq_ok h).length_eq
  rw [← List.length_eq_zero_iff, ← List.length_eq_zero_iff, hlength]

theorem itemsOf_of_lookup {items : List Json}
    (h : lookup config (str "tools") = some (.arr items)) : itemsOf config = items := by
  unfold itemsOf agentsOf
  rw [h]
  rfl

/-- What one filter does. -/
theorem replaced_of_filterConfig (hnone : ∀ s, make [] s = .ok (.str s)) {filtered : Json}
    (h : filterConfig commondefsKey make (.obj config) = .ok filtered) :
    ∃ newConfig replacements, filtered = .obj newConfig ∧
      HasReplacements commondefsKey make config replacements ∧
      Replaced (make replacements) (replacements = []) config newConfig := by
  have hsame : Replaced (make []) (([] : Replacements) = []) config config :=
    ⟨(filterOneList_eq_self_iff _).mpr fun s _ => hnone s, fun _ _ => rfl, fun _ => rfl,
      fun hne => absurd rfl hne⟩
  unfold filterConfig at h
  split at h
  · dsimp only at h
    split at h
    · cases h
    · rename_i hdefined
      exact ⟨config, [], (Except.ok.inj h).symm, ⟨[], hdefined, rfl⟩, hsame⟩
    · rename_i defined hne hdefined
      split at h
      · cases h
      · rename_i newReplacements hnew
        split at h
        · cases h
        · rename_i items hitems
          obtain ⟨newItems, hnewItems, rfl⟩ := exists_of_map_eq_ok h
          have hset : lookup (Dict.setItems config (str "tools") (.arr newItems)) (str "tools") =
              some (.arr newItems) := (lookup_setItems _ _ _ _).trans (if_pos rfl)
          refine ⟨_, newReplacements, rfl, ⟨defined, hdefined, hnew⟩, ?_, fun key hkey => ?_,
            fun hempty => ?_, fun _ => ⟨newItems, hset⟩⟩
          · rw [itemsOf_of_lookup hset]
            unfold itemsOf agentsOf
            rw [hitems]
            exact hnewItems
          · exact (lookup_setItems _ _ _ _).trans (if_neg hkey)
          · exact absurd ((filterReplacements_eq_nil_iff hnew).mp hempty) hne
  · rename_i hfalsy
    have hnil : config = [] := by
      by_contra hne
      exact hfalsy (truthy_obj hne)
    subst hnil
    exact ⟨[], [], (Except.ok.inj h).symm, ⟨[], rfl, rfl⟩, hsame⟩

/-- When one filter returns. -/
theorem exists_filterConfig_of_replacements
    (hreplacements : HasReplacements commondefsKey make config replacements)
    (hlisted : replacements ≠ [] → ∃ items, lookup config (str "tools") = some (.arr items))
    {newItems : List Json} (hitems : filterOneList (make replacements) (itemsOf config) =
      .ok newItems) :
    ∃ filtered, filterConfig commondefsKey make (.obj config) = .ok filtered := by
  obtain ⟨defined, hdefined, hnew⟩ := hreplacements
  by_cases hne : defined = []
  · subst hne
    exact ⟨_, filterConfig_of_none hdefined⟩
  · obtain ⟨items, htools⟩ := hlisted (mt (filterReplacements_eq_nil_iff hnew).mp hne)
    obtain ⟨first, rest, rfl⟩ := List.exists_cons_of_ne_nil hne
    rw [itemsOf_of_lookup htools] at hitems
    exact ⟨_, filterConfig_of_defined hdefined hnew htools hitems⟩

theorem Replaced.trans {make other : PyStr → Except PyError Json} {isEmpty isEmpty' : Prop}
    {config middle newConfig : Members} (h : Replaced make isEmpty config middle)
    (h' : Replaced other isEmpty' middle newConfig) :
    Replaced (fun s => make s >>= filterValue other) (isEmpty ∧ isEmpty') config newConfig where
  agents := (filterOneList_bind _ _).mpr ⟨_, h.agents, h'.agents⟩
  others key hkey := (h'.others key hkey).trans (h.others key hkey)
  same hempty := (h'.same hempty.2).trans (h.same hempty.1)
  listed hnot := by
    by_cases hempty' : isEmpty'
    · rw [h'.same hempty']
      exact h.listed fun hempty => hnot ⟨hempty, hempty'⟩
    · exact h'.listed hempty'

end OneFilter

section BothFilters

variable {config newConfig : Members} {values strings : Replacements}

theorem Defines.congr (h : Defines config values strings)
    (hsame : lookup newConfig (str "commondefs") = lookup config (str "commondefs")) :
    Defines newConfig values strings :=
  ⟨h.values.congr hsame, h.strings.congr hsame⟩

/-- What both filters do. -/
theorem replaced_of_putDefinitions {filtered : Json} (h : putDefinitions config = .ok filtered) :
    ∃ newConfig values strings, filtered = .obj newConfig ∧ Defines config values strings ∧
      Replaced (resolveText values strings) (values = [] ∧ strings = []) config newConfig := by
  obtain ⟨middle, hmiddle, h⟩ := exists_of_bind_ok h
  obtain ⟨middleConfig, values, rfl, hvalues, hfirst⟩ :=
    replaced_of_filterConfig (fun _ => rfl) hmiddle
  obtain ⟨newConfig, strings, rfl, hstrings, hlast⟩ :=
    replaced_of_filterConfig (fun _ => rfl) h
  exact ⟨newConfig, values, strings, rfl,
    ⟨hvalues, hstrings.congr (hfirst.others _ (by decide)).symm⟩, hfirst.trans hlast⟩

/-- When both filters return. -/
theorem exists_putDefinitions (hdefines : Defines config values strings)
    (hlisted : ¬(values = [] ∧ strings = []) →
      ∃ items, lookup config (str "tools") = some (.arr items)) {newItems : List Json}
    (hitems : filterOneList (resolveText values strings) (itemsOf config) = .ok newItems) :
    ∃ newConfig, putDefinitions config = .ok (.obj newConfig) ∧
      Replaced (resolveText values strings) (values = [] ∧ strings = []) config newConfig := by
  obtain ⟨middleItems, hmiddleItems, hnewItems⟩ := (filterOneList_bind _ _).mp hitems
  obtain ⟨middle, hmiddle⟩ := exists_filterConfig_of_replacements hdefines.values
    (fun hne => hlisted fun hempty => hne hempty.1) hmiddleItems
  obtain ⟨middleConfig, values', rfl, hvalues', hfirst⟩ :=
    replaced_of_filterConfig (fun _ => rfl) hmiddle
  obtain rfl := hdefines.values.unique hvalues'
  have hstrings := hdefines.strings.congr (hfirst.others _ (by decide))
  obtain rfl := Except.ok.inj (hmiddleItems.symm.trans hfirst.agents)
  obtain ⟨filtered, hfiltered⟩ := exists_filterConfig_of_replacements hstrings (fun hne => by
    by_cases hvalues : values' = []
    · rw [hfirst.same hvalues]
      exact hlisted fun hempty => hne hempty.2
    · exact hfirst.listed hvalues) hnewItems
  have hput : putDefinitions config = .ok filtered := by
    unfold putDefinitions
    rw [show DictionaryCommonDefsConfigFilter.filterConfig (.obj config) = _ from hmiddle]
    exact hfiltered
  obtain ⟨newConfig, values'', strings', rfl, hdefines', hreplaced⟩ :=
    replaced_of_putDefinitions hput
  obtain rfl := hdefines.values.unique hdefines'.values
  obtain rfl := hdefines.strings.unique hdefines'.strings
  exact ⟨newConfig, hput, hreplaced⟩

theorem distinct_replacementsOf {v : Json} (h : Distinct v) {replacements : Replacements}
    (hreplacements : replacementsOf v = .ok replacements) :
    ∀ entry ∈ replacements, Distinct entry.2 := by
  unfold replacementsOf at hreplacements
  split at hreplacements
  · rename_i members
    obtain rfl := Except.ok.inj hreplacements
    intro entry hentry
    obtain ⟨member, hmember, rfl⟩ := List.mem_map.mp hentry
    exact (distinct_obj.mp h).2 member hmember
  · split at hreplacements
    · cases hreplacements
    · rename_i pairs hpairs
      exact distinct_ofPairs (h.iterate hpairs) hreplacements

theorem distinct_getD {members : Members} (h : Distinct (.obj members)) (key : PyStr) :
    Distinct ((lookup members key).getD (.obj [])) := by
  cases hlookup : lookup members key with
  | none => exact distinct_obj.mpr ⟨List.nodup_nil, fun _ hmem => absurd hmem List.not_mem_nil⟩
  | some v => exact h.lookup hlookup

theorem distinct_definedReplacements (h : Distinct (.obj config)) {commondefsKey : PyStr}
    {defined : Replacements} (hdefined : definedReplacements commondefsKey config = .ok defined) :
    ∀ entry ∈ defined, Distinct entry.2 := by
  unfold definedReplacements at hdefined
  dsimp only at hdefined
  split at hdefined
  · split at hdefined
    · rename_i definitions hcommondefs
      have hdefinitions := distinct_getD h (str "commondefs")
      rw [hcommondefs] at hdefinitions
      exact distinct_replacementsOf (distinct_getD hdefinitions commondefsKey) hdefined
    · cases hdefined
  · obtain rfl := Except.ok.inj hdefined
    exact fun _ hmem => absurd hmem List.not_mem_nil

/-- A value that is put in. -/
theorem distinct_makeReplacements {replacements : Replacements}
    (h : ∀ entry ∈ replacements, Distinct entry.2) (s : PyStr) (made : Json)
    (hmade : DictionaryCommonDefsConfigFilter.makeReplacements replacements s = .ok made) :
    Distinct made := by
  unfold DictionaryCommonDefsConfigFilter.makeReplacements at hmade
  split at hmade
  · obtain rfl := Except.ok.inj hmade
    trivial
  · obtain rfl := Except.ok.inj hmade
    trivial
  · rename_i hget
    obtain rfl := Except.ok.inj hmade
    obtain ⟨entry, hentry, rfl⟩ := Option.map_eq_some_iff.mp hget
    exact h entry (List.mem_of_find?_eq_some hentry)

theorem Defines.distinct (h : Defines config values strings) (hconfig : Distinct (.obj config)) :
    ∀ entry ∈ values, Distinct entry.2 := by
  obtain ⟨defined, hdefined, hvalues⟩ := h.values
  have hall := distinct_definedReplacements hconfig hdefined
  intro entry hentry
  obtain ⟨old, hold, hmade⟩ := (mem_iff_of_mapM_eq_ok hvalues entry).mp hentry
  obtain ⟨value, hvalue, rfl⟩ := exists_of_map_eq_ok hmade
  exact distinct_filterValue (distinct_makeReplacements hall) hvalue (hall old hold)

theorem distinct_resolveText (h : ∀ entry ∈ values, Distinct entry.2) (s : PyStr) (made : Json)
    (hmade : resolveText values strings s = .ok made) : Distinct made := by
  obtain ⟨middle, hmiddle, hmade⟩ := exists_of_bind_ok hmade
  refine distinct_filterValue (fun s made hmade => ?_) hmade
    (distinct_makeReplacements h s _ hmiddle)
  obtain ⟨text, -, rfl⟩ := exists_of_map_eq_ok hmade
  trivial

end BothFilters

/-! ## Defaults and names in one pass -/

open DefaultsConfigFilter NameCorrectionConfigFilter

section Agents

variable {extractorGet : ExtractorGet} {overlay : Overlay} {strOf : StrOf}
  {config : Members} {agents : List Members}

theorem setToolValue_of_ne_obj {tool : Json} (htool : ∀ members, tool ≠ .obj members)
    (value : Json) {path : List PyStr} (hpath : path ≠ []) (newTool : Json) :
    setToolValue value path tool ≠ .ok newTool := by
  obtain ⟨first, rest, rfl⟩ := List.exists_cons_of_ne_nil hpath
  cases tool with
  | obj members => exact absurd rfl (htool members)
  | _ => cases rest <;> exact fun h => by cases h

/-- Defaults leave what is no dictionary, or raise. -/
theorem applyDefault_of_ne_obj {basisConfig tool newTool : Json} {isFrontMan : Bool}
    {default : Default} (htool : ∀ members, tool ≠ .obj members)
    (h : applyDefault extractorGet overlay basisConfig isFrontMan tool default = .ok newTool) :
    newTool = tool := by
  have hdest : default.destKey.splitOn 46 ≠ [] := List.splitOn_ne_nil _ _
  unfold applyDefault at h
  split at h
  · cases h
  · exact (Except.ok.inj h).symm
  · split at h
    · exact (Except.ok.inj h).symm
    · split at h
      · cases h
      · exact absurd h (setToolValue_of_ne_obj htool _ hdest newTool)
      · split at h
        · unfold mergeDictionaries at h
          dsimp only at h
          split at h
          · cases h
          · rename_i hmerged
            exact absurd hmerged (setToolValue_of_ne_obj htool _ hdest _)
        · exact (Except.ok.inj h).symm
      · exact (Except.ok.inj h).symm

theorem resolve_of_noTools
    (h : noTools ((lookup config (str "tools")).getD .null) = .ok true) :
    resolve extractorGet overlay strOf config = .ok (.obj config) := by
  have hleft : ∀ change, changeTools change (.obj config) = .ok (.obj config) := by
    intro change
    unfold changeTools
    dsimp only
    rw [h]
  unfold resolve DefaultsConfigFilter.filterConfig
  rw [hleft]
  exact hleft _

/-- Only dictionaries are renamed. -/
theorem exists_obj_of_correctNames {tools newTools : List Json}
    (h : correctNames strOf tools = .ok newTools) :
    ∀ tool ∈ tools, ∃ members, tool = .obj members := by
  obtain ⟨corrected, hcorrected, -⟩ := exists_of_map_eq_ok h
  intro tool htool
  obtain ⟨result, hresult⟩ :=
    (exists_mapM_ok_iff (correctAgent strOf) tools).mp ⟨corrected, hcorrected⟩ tool htool
  cases tool with
  | obj members => exact ⟨members, rfl⟩
  | _ => cases hresult

/-- What is no dictionary is left among the agents with defaults. -/
theorem mem_applyDefaults_of_ne_obj {basisConfig tool : Json} {tools newTools : List Json}
    (h : applyDefaults extractorGet overlay basisConfig tools = .ok newTools) (hmem : tool ∈ tools)
    (htool : ∀ members, tool ≠ .obj members) : tool ∈ newTools := by
  obtain ⟨index, hindex⟩ := List.getElem?_of_mem hmem
  have hentry : (tool, index) ∈ tools.zipIdx := List.mem_zipIdx_iff_getElem?.mpr hindex
  obtain ⟨newTool, hnew⟩ := (exists_mapM_ok_iff _ tools.zipIdx).mp ⟨newTools, h⟩ _ hentry
  have hleft : newTool = tool := by
    refine rel_of_foldlM_eq_ok
      (R := fun tool newTool : Json => (∀ members, tool ≠ .obj members) → newTool = tool)
      (fun _ _ => rfl) (fun hfirst hlast htool => ?_) (fun default _ tool newTool hput htool => ?_)
      hnew htool
    · have hsame := hfirst htool
      rw [← hsame] at htool
      exact (hlast htool).trans hsame
    · exact applyDefault_of_ne_obj htool hput
  rw [← hleft]
  exact (mem_iff_of_mapM_eq_ok h newTool).mpr ⟨_, hentry, hnew⟩

/-- A configuration has no agents, or a list of dictionaries. -/
theorem agents_of_resolve {filtered : Json}
    (h : resolve extractorGet overlay strOf config = .ok filtered) :
    noTools ((lookup config (str "tools")).getD .null) = .ok true ∨
      ∃ agents : List Members, lookup config (str "tools") = some (.arr (agents.map .obj)) := by
  obtain ⟨middle, hmiddle, hfiltered⟩ := exists_of_bind_ok h
  unfold DefaultsConfigFilter.filterConfig changeTools at hmiddle
  dsimp only at hmiddle
  split at hmiddle
  · cases hmiddle
  · rename_i hnone
    exact .inl hnone
  · rename_i hsome
    right
    cases htools : lookup config (str "tools") with
    | none =>
        rw [htools] at hsome
        cases hsome
    | some tools =>
        rw [htools, Option.getD_some] at hsome hmiddle
        unfold NameCorrectionConfigFilter.filterConfig changeTools at hfiltered
        split at hmiddle
        · rename_i items
          obtain ⟨newItems, hnewItems, rfl⟩ := exists_of_map_eq_ok hmiddle
          -- what is no dictionary is left by the defaults, and has no name
          have hobjs : ∀ tool ∈ newItems, ∃ members, tool = .obj members := by
            dsimp only at hfiltered
            rw [lookup_setItems, if_pos rfl, Option.getD_some] at hfiltered
            cases newItems with
            | nil => exact fun _ hmem => absurd hmem List.not_mem_nil
            | cons first rest =>
                obtain ⟨renamed, hrenamed, -⟩ := exists_of_map_eq_ok hfiltered
                exact exists_obj_of_correctNames hrenamed
          obtain ⟨agents, rfl⟩ := @exists_map_obj items fun item hitem => by
            by_contra hnot
            rw [not_exists] at hnot
            exact (hobjs item (mem_applyDefaults_of_ne_obj hnewItems hitem hnot)).elim hnot
          exact ⟨agents, rfl⟩
        · rename_i hnot
          -- characters and keys have no names
          obtain ⟨_, -, rfl⟩ := exists_of_map_eq_ok hmiddle
          dsimp only at hfiltered
          rw [htools, Option.getD_some, hsome] at hfiltered
          dsimp only at hfiltered
          have hnames : ∀ tool ∈ tools.iterate.getD [], ∃ members, tool = .obj members := by
            split at hfiltered
            · rename_i items
              exact absurd rfl (hnot items)
            · obtain ⟨renamed, hrenamed, -⟩ := exists_of_map_eq_ok hfiltered
              exact exists_obj_of_correctNames hrenamed
          cases tools with
          | arr items => exact absurd rfl (hnot items)
          | str s =>
              cases s with
              | nil => cases hsome
              | cons c rest =>
                  obtain ⟨members, hmembers⟩ := hnames _ List.mem_cons_self
                  cases hmembers
          | obj entries =>
              cases entries with
              | nil => cases hsome
              | cons entry rest =>
                  obtain ⟨members, hmembers⟩ := hnames _ List.mem_cons_self
                  cases hmembers
          | _ => cases hsome

theorem lookup_putDefaults (offers : Default → Json) {defaults : List Default} {key : PyStr}
    (hkey : ∀ default ∈ defaults, default.dest.head? ≠ some key) (agent : Members) :
    lookup (putDefaults overlay offers defaults agent) key = lookup agent key := by
  induction defaults generalizing agent with
  | nil => rfl
  | cons first rest ih =>
      rw [List.forall_mem_cons] at hkey
      exact (ih hkey.2 _).trans (lookup_putDefault hkey.1)

/-- Names and references are under keys that no default is put to. -/
theorem head?_dest_ne : ∀ default ∈ defaultsMapping,
    default.dest.head? ≠ some (str "name") ∧ default.dest.head? ≠ some (str "tools") ∧
      ∀ key, default.dest.head? = some key → 47 ∉ key := by
  decide

theorem mem_defaultedAgents {agent : Members}
    (h : agent ∈ defaultedAgents overlay config agents) :
    ∃ index old, agents[index]? = some old ∧
      agent = putDefaults overlay (offer config (index == 0)) defaultsMapping old := by
  obtain ⟨⟨old, index⟩, hold, rfl⟩ := List.mem_map.mp h
  exact ⟨index, old, List.mem_zipIdx_iff_getElem?.mp hold, rfl⟩

/-- What the second pass makes of a list of agents. -/
theorem exists_resolve (hget : Extracts extractorGet)
    (htools : lookup config (str "tools") = some (.arr (agents.map .obj)))
    (hlists : ∀ index agent, agents[index]? = some agent → ∀ default ∈ defaultsMapping,
      HasUnionLists default (offer config (index == 0) default) agent)
    (hwritable : ∀ agent ∈ agents, HasWritableName strOf agent) :
    ∃ newConfig, resolve extractorGet overlay strOf config = .ok (.obj newConfig) ∧
      lookup newConfig (str "tools") =
        some (.arr ((renamed (defaultedAgents overlay config agents)).map .obj)) ∧
      ∀ key, key ≠ str "tools" → lookup newConfig key = lookup config key := by
  obtain ⟨middle, hmiddle, hagents, hothers⟩ := exists_filterConfig overlay hget htools hlists
  have hnames : ∀ agent ∈ defaultedAgents overlay config agents, HasWritableName strOf agent := by
    intro agent hagent
    obtain ⟨index, old, hold, rfl⟩ := mem_defaultedAgents hagent
    unfold HasWritableName
    rw [lookup_putDefaults _ fun default hmem => (head?_dest_ne default hmem).1]
    exact hwritable old (List.mem_of_getElem? hold)
  have hresolve : resolve extractorGet overlay strOf config =
      changeTools (correctNames strOf) (.obj middle) := by
    unfold resolve
    rw [hmiddle]
    rfl
  rw [hresolve, changeTools_eq hagents]
  split
  · rename_i hnil
    refine ⟨middle, rfl, ?_, hothers⟩
    rw [hagents, hnil]
    rfl
  · rw [correctNames_eq hnames]
    refine ⟨_, rfl, (lookup_setItems _ _ _ _).trans (if_pos rfl), fun key hkey => ?_⟩
    exact ((lookup_setItems _ _ _ _).trans (if_neg hkey)).trans (hothers key hkey)

theorem distinct_offer (h : Distinct (.obj config)) (isFrontMan : Bool) (default : Default) :
    Distinct (offer config isFrontMan default) := by
  unfold offer
  split
  · trivial
  · unfold topValue
    cases hfound : (Json.obj config).atPath (default.sourceKey.splitOn 46) with
    | none => trivial
    | some v => exact h.atPath hfound

end Agents

end NoraFleet.Networks
