import Mathlib
import NoraFleet.Networks.StringDefinitions

/-!
# Configurations whose definitions can be put in

The filters for `commondefs` make a table of the definitions, put the definitions into each other,
and go through the agents. On the way they take whatever a configuration has for what they expect:
pairs for a table, something to go through for the agents, something with a length for a text.

* `AbstractCommonDefsConfigFilter.exists_filterConfig_iff` — when one of the filters returns;
* `DictionaryCommonDefsConfigFilter.exists_filterConfig_iff`,
  `StringCommonDefsConfigFilter.exists_filterConfig_iff` — the same for each of the two;
* `exists_obj_of_filterConfig` — agents that are dictionaries stay dictionaries.
-/

namespace NoraFleet.Networks

open Base

namespace AbstractCommonDefsConfigFilter

/-! ## Definitions -/

/-- What a dictionary can be updated with. -/
def IsTable (v : Json) : Prop :=
  (∃ members, v = .obj members) ∨ ∃ pairs, v.iterate = some pairs ∧ ∀ pair ∈ pairs, IsEntry pair

theorem exists_replacementsOf_iff (v : Json) :
    (∃ replacements, replacementsOf v = .ok replacements) ↔ IsTable v := by
  unfold replacementsOf IsTable
  split
  · simp
  · rename_i hnot
    rw [or_iff_right (by rintro ⟨members, rfl⟩; exact hnot members rfl)]
    cases hpairs : v.iterate with
    | none => simp
    | some pairs =>
        dsimp only
        rw [exists_ofPairs_iff]
        simp

/-- The definitions of a configuration, if it has any, are in a table. -/
def HasTable (commondefsKey : PyStr) (config : List (PyStr × Json)) : Prop :=
  ((Json.lookup config (str "commondefs")).getD (.obj [])).truthy = true →
    ∃ definitions, Json.lookup config (str "commondefs") = some (.obj definitions) ∧
      IsTable ((Json.lookup definitions commondefsKey).getD (.obj []))

theorem exists_definedReplacements_iff (commondefsKey : PyStr) (config : List (PyStr × Json)) :
    (∃ replacements, definedReplacements commondefsKey config = .ok replacements) ↔
      HasTable commondefsKey config := by
  unfold definedReplacements HasTable
  cases hcommondefs : Json.lookup config (str "commondefs") with
  | none => simp [Json.truthy]
  | some commondefs =>
      rw [Option.getD_some]
      dsimp only
      cases htruthy : commondefs.truthy with
      | false => simp
      | true =>
          rw [if_pos rfl]
          split
          · rw [exists_replacementsOf_iff]
            simp
          · rename_i hnot
            simp only [forall_const, Option.some.injEq]
            constructor
            · rintro ⟨replacements, h⟩
              cases h
            · rintro ⟨definitions, h, -⟩
              exact absurd h (hnot definitions)

/-! ## One value -/

mutual

/-- A value is filtered if all of its strings are. -/
theorem exists_filterValue_iff (make : PyStr → Except PyError Json) :
    ∀ value, (∃ filtered, filterValue make value = .ok filtered) ↔
      ∀ s ∈ stringsOf value, ∃ made, make s = .ok made
  | .str s => by simp [filterValue, stringsOf]
  | .arr items => by
      rw [filterValue, exists_map_ok_iff]
      exact exists_filterOneList_iff make items
  | .obj members => by
      rw [filterValue, exists_map_ok_iff]
      exact exists_filterOneDict_iff make members
  | .null | .bool _ | .int _ | .float _ => by simp [filterValue, stringsOf]

theorem exists_filterOneList_iff (make : PyStr → Except PyError Json) :
    ∀ items, (∃ filtered, filterOneList make items = .ok filtered) ↔
      ∀ s ∈ stringsOfItems items, ∃ made, make s = .ok made
  | [] => by simp [filterOneList, stringsOfItems]
  | item :: rest => by
      rw [filterOneList, stringsOfItems, List.forall_mem_append, ← exists_filterValue_iff make item,
        ← exists_filterOneList_iff make rest]
      cases filterValue make item with
      | error e => simp
      | ok filtered => simp [exists_map_ok_iff]

theorem exists_filterOneDict_iff (make : PyStr → Except PyError Json) :
    ∀ members, (∃ filtered, filterOneDict make members = .ok filtered) ↔
      ∀ s ∈ stringsOfMembers members, ∃ made, make s = .ok made
  | [] => by simp [filterOneDict, stringsOfMembers]
  | (key, value) :: rest => by
      rw [filterOneDict, stringsOfMembers, List.forall_mem_append,
        ← exists_filterValue_iff make value, ← exists_filterOneDict_iff make rest]
      cases filterValue make value with
      | error e => simp
      | ok filtered => simp [exists_map_ok_iff]

end

/-- Dictionaries stay dictionaries. -/
theorem exists_obj_of_filterOneList {make : PyStr → Except PyError Json}
    {items filtered : List Json} (h : filterOneList make items = .ok filtered)
    (hitems : ∀ item ∈ items, ∃ members, item = .obj members) :
    ∀ item ∈ filtered, ∃ members, item = .obj members := by
  induction items generalizing filtered with
  | nil =>
      cases h
      exact fun _ hitem => absurd hitem List.not_mem_nil
  | cons item rest ih =>
      rw [List.forall_mem_cons] at hitems
      obtain ⟨members, rfl⟩ := hitems.1
      rw [filterOneList, filterValue] at h
      cases hmembers : filterOneDict make members with
      | error e =>
          rw [hmembers] at h
          cases h
      | ok made =>
          rw [hmembers] at h
          obtain ⟨others, hothers, rfl⟩ := exists_of_map_eq_ok h
          rw [List.forall_mem_cons]
          exact ⟨⟨made, rfl⟩, ih hothers hitems.2⟩

/-! ## A configuration -/

/-- What a loop over the agents of a configuration goes through. -/
def agentsOf (config : List (PyStr × Json)) : Option (List Json) :=
  ((Json.lookup config (str "tools")).getD .null).iterate

/-- A configuration is filtered if its definitions are in a table and, where there are any, they
are filtered and the agents are. -/
theorem exists_filterConfig_iff (commondefsKey : PyStr) (make : MakeReplacements)
    {config : List (PyStr × Json)} (hconfig : config ≠ []) :
    (∃ filtered, filterConfig commondefsKey make (.obj config) = .ok filtered) ↔
      HasTable commondefsKey config ∧
        ∀ replacements, definedReplacements commondefsKey config = .ok replacements →
          replacements ≠ [] → ∃ newReplacements agents newAgents,
            filterReplacements make replacements = .ok newReplacements ∧
            agentsOf config = some agents ∧
            filterOneList (make newReplacements) agents = .ok newAgents := by
  unfold filterConfig agentsOf
  rw [if_pos (Json.truthy_obj hconfig), ← exists_definedReplacements_iff]
  dsimp only
  cases definedReplacements commondefsKey config with
  | error e => simp
  | ok replacements =>
      cases replacements with
      | nil => simp
      | cons first rest =>
          dsimp only
          cases hnew : filterReplacements make (first :: rest) with
          | error e => simp [hnew]
          | ok newReplacements =>
              dsimp only
              cases ((Json.lookup config (str "tools")).getD .null).iterate with
              | none => simp
              | some agents =>
                  dsimp only
                  rw [exists_map_ok_iff]
                  simp [hnew]

/-- What becomes of a configuration that is filtered. -/
theorem of_filterConfig {commondefsKey : PyStr} {make : MakeReplacements}
    {config : List (PyStr × Json)} {filtered : Json}
    (h : filterConfig commondefsKey make (.obj config) = .ok filtered) :
    filtered = .obj config ∨ ∃ makeOne agents newAgents, agentsOf config = some agents ∧
      filterOneList makeOne agents = .ok newAgents ∧
      filtered = .obj (Dict.setItems config (str "tools") (.arr newAgents)) := by
  unfold filterConfig at h
  split at h
  · dsimp only at h
    split at h
    · cases h
    · exact .inl (Except.ok.inj h).symm
    · split at h
      · cases h
      · rename_i newReplacements _
        split at h
        · cases h
        · rename_i agents hagents
          obtain ⟨newAgents, hnew, rfl⟩ := exists_of_map_eq_ok h
          exact .inr ⟨_, agents, newAgents, hagents, hnew, rfl⟩
  · exact .inl (Except.ok.inj h).symm

/-- The agents of a configuration are dictionaries, if it has any. -/
def HasDictAgents (config : List (PyStr × Json)) : Prop :=
  Json.lookup config (str "tools") = none ∨
    ∃ agents : List (List (PyStr × Json)), agentsOf config = some (agents.map .obj)

theorem exists_map_obj {items : List Json} (h : ∀ item ∈ items, ∃ members, item = .obj members) :
    ∃ agents : List (List (PyStr × Json)), items = agents.map .obj := by
  choose! membersOf hmembers using h
  refine ⟨items.map membersOf, ?_⟩
  rw [List.map_map]
  exact ((List.map_congr_left fun item hitem => (hmembers item hitem).symm).trans
    (List.map_id items)).symm

/-- A filter makes a dictionary again, with the same definitions. Where the agents were
dictionaries, they are. -/
theorem exists_obj_of_filterConfig {commondefsKey : PyStr} {make : MakeReplacements}
    {config : List (PyStr × Json)} {filtered : Json} (hconfig : config ≠ [])
    (h : filterConfig commondefsKey make (.obj config) = .ok filtered) :
    ∃ newConfig, filtered = .obj newConfig ∧ newConfig ≠ [] ∧
      Json.lookup newConfig (str "commondefs") = Json.lookup config (str "commondefs") ∧
      (HasDictAgents config → HasDictAgents newConfig) := by
  rcases of_filterConfig h with rfl | ⟨makeOne, items, newItems, hitems, hnew, rfl⟩
  · exact ⟨config, rfl, hconfig, rfl, id⟩
  · refine ⟨_, rfl, Json.setItems_ne_nil config _ _, ?_, ?_⟩
    · rw [Json.lookup_setItems, if_neg (by decide)]
    · rintro (hnone | ⟨agents, hagents⟩)
      · unfold agentsOf at hitems
        rw [hnone] at hitems
        cases hitems
      · obtain rfl := Option.some.inj (hitems.symm.trans hagents)
        have hdicts := exists_obj_of_filterOneList hnew fun item hitem => by
          obtain ⟨members, -, rfl⟩ := List.mem_map.mp hitem
          exact ⟨members, rfl⟩
        obtain ⟨newAgents, rfl⟩ := exists_map_obj hdicts
        refine .inr ⟨newAgents, ?_⟩
        unfold agentsOf
        rw [Json.lookup_setItems, if_pos rfl]
        rfl

/-- Definitions are read from `commondefs` alone. -/
theorem definedReplacements_congr {config other : List (PyStr × Json)}
    (h : Json.lookup other (str "commondefs") = Json.lookup config (str "commondefs"))
    (commondefsKey : PyStr) :
    definedReplacements commondefsKey other = definedReplacements commondefsKey config := by
  unfold definedReplacements
  rw [h]

end AbstractCommonDefsConfigFilter

open AbstractCommonDefsConfigFilter

/-! ## The two filters -/

/-- Values are put in where they are in a table, and there are agents. -/
theorem DictionaryCommonDefsConfigFilter.exists_filterConfig_iff {config : List (PyStr × Json)}
    (hconfig : config ≠ []) :
    (∃ filtered, DictionaryCommonDefsConfigFilter.filterConfig (.obj config) = .ok filtered) ↔
      HasTable (str "replacement_values") config ∧
        ∀ replacements, definedReplacements (str "replacement_values") config = .ok replacements →
          replacements ≠ [] → ∃ agents, agentsOf config = some agents := by
  have hmake : ∀ replacements s, ∃ made, makeReplacements replacements s = .ok made := by
    intro replacements s
    unfold makeReplacements
    split <;> exact ⟨_, rfl⟩
  unfold DictionaryCommonDefsConfigFilter.filterConfig
  rw [AbstractCommonDefsConfigFilter.exists_filterConfig_iff _ _ hconfig]
  refine and_congr_right fun _ => forall_congr' fun replacements => forall_congr' fun _ =>
    forall_congr' fun _ => ?_
  constructor
  · rintro ⟨-, agents, -, -, hagents, -⟩
    exact ⟨agents, hagents⟩
  · rintro ⟨agents, hagents⟩
    obtain ⟨newReplacements, hnew⟩ : ∃ newReplacements,
        filterReplacements makeReplacements replacements = .ok newReplacements := by
      unfold filterReplacements
      rw [exists_mapM_ok_iff]
      intro entry _
      rw [exists_map_ok_iff, exists_filterValue_iff]
      exact fun s _ => hmake replacements s
    obtain ⟨newAgents, hnewAgents⟩ :=
      (exists_filterOneList_iff (makeReplacements newReplacements) agents).mpr
        fun s _ => hmake newReplacements s
    exact ⟨newReplacements, agents, newAgents, hnew, hagents, hnewAgents⟩

namespace StringCommonDefsConfigFilter

/-- A number, or a truth value: it has no length. -/
def isNumber : Json → Bool
  | .bool _ | .int _ | .float _ => true
  | _ => false

theorem exists_makeReplacements_iff (replacements : Replacements) (s : PyStr) :
    (∃ made, makeReplacements replacements s = .ok made) ↔
      ∀ entry ∈ replacements, isNumber entry.2 = false := by
  unfold makeReplacements
  rw [exists_map_ok_iff]
  refine exists_foldlM_ok_iff (fun source entry => ?_) replacements s
  obtain ⟨key, value⟩ := entry
  cases value with
  | str text =>
      cases key with
      | text search =>
          unfold replaceOne
          simp only [isNumber]
          split <;> simp
      | _ => simp [replaceOne, isNumber]
  | _ => simp [replaceOne, isNumber]

/-- A number stays one, and nothing else becomes one. -/
theorem isNumber_of_filterValue {replacements : Replacements} {value filtered : Json}
    (h : filterValue (makeReplacements replacements) value = .ok filtered) :
    isNumber filtered = isNumber value := by
  cases value with
  | str s =>
      rw [filterValue] at h
      obtain ⟨text, -, rfl⟩ := exists_of_map_eq_ok h
      rfl
  | arr items =>
      rw [filterValue] at h
      obtain ⟨newItems, -, rfl⟩ := exists_of_map_eq_ok h
      rfl
  | obj members =>
      rw [filterValue] at h
      obtain ⟨newMembers, -, rfl⟩ := exists_of_map_eq_ok h
      rfl
  | null => cases h; rfl
  | bool b => cases h; rfl
  | int n => cases h; rfl
  | float x => cases h; rfl

/-- No definition is a number, or there is no text into which one could be put. -/
def HasTexts (replacements : Replacements) (agents : List Json) : Prop :=
  (∀ entry ∈ replacements, isNumber entry.2 = false) ∨
    (∀ entry ∈ replacements, stringsOf entry.2 = []) ∧ stringsOfItems agents = []

theorem exists_filtered_iff (replacements : Replacements) (agents : List Json) :
    (∃ newReplacements newAgents,
      filterReplacements makeReplacements replacements = .ok newReplacements ∧
      filterOneList (makeReplacements newReplacements) agents = .ok newAgents) ↔
        HasTexts replacements agents := by
  have hnumbers : ∀ newReplacements,
      filterReplacements makeReplacements replacements = .ok newReplacements →
        ((∀ entry ∈ newReplacements, isNumber entry.2 = false) ↔
          ∀ entry ∈ replacements, isNumber entry.2 = false) := by
    intro newReplacements hnew
    have hmap : newReplacements.map (fun entry => isNumber entry.2) =
        replacements.map fun entry => isNumber entry.2 := by
      refine map_eq_of_mapM_eq_ok (fun entry newEntry hentry => ?_) hnew
      obtain ⟨value, hvalue, rfl⟩ := exists_of_map_eq_ok hentry
      exact isNumber_of_filterValue hvalue
    have hall := congrArg (fun flags : List Bool => ∀ flag ∈ flags, flag = false) hmap
    simpa using hall
  have hreplacements : (∃ newReplacements,
      filterReplacements makeReplacements replacements = .ok newReplacements) ↔
        ∀ entry ∈ replacements, ∀ s ∈ stringsOf entry.2,
          ∀ other ∈ replacements, isNumber other.2 = false := by
    unfold filterReplacements
    rw [exists_mapM_ok_iff]
    refine forall_congr' fun entry => forall_congr' fun _ => ?_
    rw [exists_map_ok_iff, exists_filterValue_iff]
    exact forall_congr' fun s => forall_congr' fun _ => exists_makeReplacements_iff replacements s
  constructor
  · rintro ⟨newReplacements, newAgents, hnew, hnewAgents⟩
    by_cases hfree : ∀ entry ∈ replacements, isNumber entry.2 = false
    · exact .inl hfree
    · refine .inr ⟨fun entry hentry => ?_, ?_⟩
      · rw [List.eq_nil_iff_forall_not_mem]
        exact fun s hs => hfree (hreplacements.mp ⟨_, hnew⟩ entry hentry s hs)
      · rw [List.eq_nil_iff_forall_not_mem]
        intro s hs
        have hmade := (exists_filterOneList_iff _ agents).mp ⟨_, hnewAgents⟩ s hs
        rw [exists_makeReplacements_iff, hnumbers _ hnew] at hmade
        exact hfree hmade
  · intro h
    obtain ⟨newReplacements, hnew⟩ := hreplacements.mpr fun entry hentry s hs => by
      rcases h with hfree | ⟨hnone, -⟩
      · exact hfree
      · rw [hnone entry hentry] at hs
        exact absurd hs List.not_mem_nil
    obtain ⟨newAgents, hnewAgents⟩ :=
      (exists_filterOneList_iff (makeReplacements newReplacements) agents).mpr fun s hs => by
        rw [exists_makeReplacements_iff, hnumbers _ hnew]
        rcases h with hfree | ⟨-, hnone⟩
        · exact hfree
        · rw [hnone] at hs
          exact absurd hs List.not_mem_nil
    exact ⟨newReplacements, newAgents, hnew, hnewAgents⟩

/-- Texts are put in where they are in a table and there are agents, unless a number would have to
be put into a text. -/
theorem exists_filterConfig_iff {config : List (PyStr × Json)} (hconfig : config ≠ []) :
    (∃ filtered, filterConfig (.obj config) = .ok filtered) ↔
      HasTable (str "replacement_strings") config ∧
        ∀ replacements, definedReplacements (str "replacement_strings") config = .ok replacements →
          replacements ≠ [] → ∃ agents, agentsOf config = some agents ∧
            HasTexts replacements agents := by
  unfold filterConfig
  rw [AbstractCommonDefsConfigFilter.exists_filterConfig_iff _ _ hconfig]
  refine and_congr_right fun _ => forall_congr' fun replacements => forall_congr' fun _ =>
    forall_congr' fun _ => ?_
  constructor
  · rintro ⟨newReplacements, agents, newAgents, hnew, hagents, hnewAgents⟩
    exact ⟨agents, hagents, (exists_filtered_iff replacements agents).mp
      ⟨newReplacements, newAgents, hnew, hnewAgents⟩⟩
  · rintro ⟨agents, hagents, htexts⟩
    obtain ⟨newReplacements, newAgents, hnew, hnewAgents⟩ :=
      (exists_filtered_iff replacements agents).mpr htexts
    exact ⟨newReplacements, agents, newAgents, hnew, hagents, hnewAgents⟩

end StringCommonDefsConfigFilter

/-! ## Both together -/

/-- The first two filters. -/
def putDefinitions (config : List (PyStr × Json)) : Except PyError Json :=
  DictionaryCommonDefsConfigFilter.filterConfig (.obj config) >>=
    StringCommonDefsConfigFilter.filterConfig

/-- A configuration whose definitions can be put in: they are in tables, there are agents where
there are any, and no number would have to be put into a text. -/
structure Definable (config : List (PyStr × Json)) : Prop where
  values : HasTable (str "replacement_values") config
  agents : ∀ replacements,
    definedReplacements (str "replacement_values") config = .ok replacements →
      replacements ≠ [] → ∃ agents, agentsOf config = some agents
  strings : HasTable (str "replacement_strings") config
  texts : ∀ valued, DictionaryCommonDefsConfigFilter.filterConfig (.obj config) =
      .ok (.obj valued) → ∀ replacements,
    definedReplacements (str "replacement_strings") config = .ok replacements →
      replacements ≠ [] → ∃ agents, agentsOf valued = some agents ∧
        StringCommonDefsConfigFilter.HasTexts replacements agents

section Definitions

variable {config : List (PyStr × Json)}

theorem exists_putDefinitions_iff (hconfig : config ≠ []) :
    (∃ defined, putDefinitions config = .ok defined) ↔ Definable config := by
  have hvalues := DictionaryCommonDefsConfigFilter.exists_filterConfig_iff hconfig
  unfold putDefinitions
  constructor
  · rintro ⟨defined, h⟩
    obtain ⟨filtered, hfiltered, h⟩ := exists_of_bind_ok h
    obtain ⟨hvaluesTable, hagents⟩ := hvalues.mp ⟨filtered, hfiltered⟩
    obtain ⟨valued, rfl, hvalued, hsame, -⟩ := exists_obj_of_filterConfig hconfig hfiltered
    obtain ⟨hstrings, htexts⟩ :=
      (StringCommonDefsConfigFilter.exists_filterConfig_iff hvalued).mp ⟨defined, h⟩
    rw [← exists_definedReplacements_iff, definedReplacements_congr hsame,
      exists_definedReplacements_iff] at hstrings
    rw [definedReplacements_congr hsame] at htexts
    refine ⟨hvaluesTable, hagents, hstrings, fun other hother => ?_⟩
    obtain rfl := Json.obj.inj (Except.ok.inj (hfiltered.symm.trans hother))
    exact htexts
  · intro h
    obtain ⟨filtered, hfiltered⟩ := hvalues.mpr ⟨h.values, h.agents⟩
    obtain ⟨valued, rfl, hvalued, hsame, -⟩ := exists_obj_of_filterConfig hconfig hfiltered
    rw [hfiltered]
    refine (StringCommonDefsConfigFilter.exists_filterConfig_iff hvalued).mpr ⟨?_, ?_⟩
    · rw [← exists_definedReplacements_iff, definedReplacements_congr hsame,
        exists_definedReplacements_iff]
      exact h.strings
    · rw [definedReplacements_congr hsame]
      exact h.texts valued hfiltered

/-- What comes out is a dictionary. -/
theorem of_putDefinitions (hconfig : config ≠ []) {filtered : Json}
    (h : putDefinitions config = .ok filtered) :
    ∃ defined, filtered = .obj defined ∧ defined ≠ [] ∧
      (HasDictAgents config → HasDictAgents defined) := by
  obtain ⟨middle, hmiddle, h⟩ := exists_of_bind_ok h
  obtain ⟨valued, rfl, hvalued, -, hdicts⟩ := exists_obj_of_filterConfig hconfig hmiddle
  obtain ⟨defined, rfl, hdefined, -, hdicts'⟩ := exists_obj_of_filterConfig hvalued h
  exact ⟨defined, rfl, hdefined, fun hagents => hdicts' (hdicts hagents)⟩

end Definitions

end NoraFleet.Networks
