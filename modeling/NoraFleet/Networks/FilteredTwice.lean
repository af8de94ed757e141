import Mathlib
import NoraFleet.Networks.FilterPasses

/-!
# A configuration that is filtered twice

A configuration is filtered when a network is made of it, and once more when the parameters of the
network are validated. Definitions are put in before defaults are, and are put into each other only
once: what the filters leave may refer to a definition, and is filtered to something else then.

* `stays_of_settled` — where no reference is left a second time changes nothing;
* `settled_of_stays` — and where no unions are made and no names are corrected, only there;
* `filterConfig_twice` — both together.
-/

namespace NoraFleet.Networks

open Base Json AbstractCommonDefsConfigFilter DefaultsConfigFilter NameCorrectionConfigFilter

namespace NetworkConfigFilterChain

/-- Two configurations are the same, up to the order of the members of dictionaries. -/
structure SameConfig (once twice : Members) : Prop where
  others : ∀ key, key ≠ str "tools" → lookup twice key = lookup once key
  tools : lookup twice (str "tools") = lookup once (str "tools") ∨
    ∃ agents newAgents : List Members,
      lookup once (str "tools") = some (.arr (agents.map .obj)) ∧
      lookup twice (str "tools") = some (.arr (newAgents.map .obj)) ∧
      List.Forall₂ (fun newAgent agent => SameValue (.obj newAgent) (.obj agent)) newAgents agents

/-- What was filtered stays as it is when it is filtered again. -/
def Stays (extractorGet : ExtractorGet) (overlay : Overlay) (strOf : StrOf) (once : Members) :
    Prop :=
  ∃ twice, filterConfig extractorGet overlay strOf (.obj once) = .ok (.obj twice) ∧
    SameConfig once twice

/-- Nothing is put in for a text, or into it. -/
def Rests (values strings : Replacements) (text : PyStr) : Prop :=
  resolveText values strings text = .ok (.str text)

/-- No reference is left in the agents of a configuration, which are given with its definitions put
in: not in what is put in for a text, nor in a default that goes into an agent, nor in a corrected
name. And the schema of the front man has its required keys as the union of both lists. -/
structure NothingLeft (config : Members) (values strings : Replacements) (agents : List Members) :
    Prop where
  texts : ∀ text ∈ stringsOfItems (itemsOf config), ∀ made,
    resolveText values strings text = .ok made → ∀ part ∈ stringsOf made, Rests values strings part
  defaults : ∀ index agent, agents[index]? = some agent → ∀ default ∈ defaultsMapping,
    ∀ text, Enters default (offer config (index == 0) default) agent text →
      Rests values strings text
  names : ∀ agent ∈ agents, ∀ name, correction agent = some name →
    Rests values strings (correctedName name)
  lists : ∀ index agent, agents[index]? = some agent → ∀ default ∈ defaultsMapping,
    HasUnionLists default (offer config (index == 0) default) agent ∧
      TakesUnions default (offer config (index == 0) default) agent

/-- The agents of a configuration, with its definitions put in. -/
structure HasDefined (config : Members) (values strings : Replacements) (agents : List Members) :
    Prop where
  defines : Defines config values strings
  agents : filterOneList (resolveText values strings) (itemsOf config) = .ok (agents.map .obj)

/-- A configuration of which no reference is left after one pass. -/
def IsSettled (config : Members) : Prop :=
  ∀ values strings agents, HasDefined config values strings agents →
    NothingLeft config values strings agents

/-! ## Agents that are the same where defaults go -/

section Agents

variable {overlay : Overlay} {agent other : Members} {path : List PyStr}

theorem atPath_congr (hpath : path ≠ [])
    (h : ∀ first, path.head? = some first → lookup other first = lookup agent first) :
    (Json.obj other).atPath path = (Json.obj agent).atPath path := by
  obtain ⟨first, rest, rfl⟩ := List.exists_cons_of_ne_nil hpath
  rw [atPath_obj, atPath_obj, h first rfl]

theorem isFree_congr
    (h : ∀ first, path.head? = some first → lookup other first = lookup agent first) :
    IsFree path other ↔ IsFree path agent := by
  cases path with
  | nil => exact Iff.rfl
  | cons first rest =>
      cases rest with
      | nil => exact Iff.rfl
      | cons second rest =>
          unfold IsFree partAt
          rw [h first rfl]

theorem settled_congr {default : Default} {offered : Json} (hdest : default.dest ≠ [])
    (h : ∀ first, default.dest.head? = some first → lookup other first = lookup agent first)
    (hsettled : Settled default offered agent) : Settled default offered other := by
  unfold Settled
  rwa [isFree_congr h, atPath_congr hdest h]

/-- Renaming changes nothing where defaults go. -/
theorem settled_renamed {default : Default} (hmem : default ∈ defaultsMapping) {offered : Json}
    (corrections : List PyStr) (h : Settled default offered agent) :
    Settled default offered (followed corrections (corrected agent)) := by
  obtain ⟨-, htools, hslash⟩ := head?_dest_ne default hmem
  refine settled_congr (dest_of_mem_defaultsMapping default hmem).1 (fun first hfirst => ?_) h
  refine lookup_renamed corrections agent (hslash first hfirst) ?_
  rintro rfl
  exact htools hfirst

theorem getElem?_renamed (agents : List Members) (index : Nat) :
    (renamed agents)[index]? = agents[index]?.map fun agent =>
      followed (agents.filterMap correction) (corrected agent) := by
  unfold renamed
  exact List.getElem?_map

/-- **Agents in which every default is settled stay as they are**, and so do their names. -/
theorem sameValue_renamed_defaultedAgents (hoverlay : DeepMerge overlay) {config : Members}
    {agents : List Members}
    (h : ∀ index agent, (renamed agents)[index]? = some agent → ∀ default ∈ defaultsMapping,
      Settled default (offer config (index == 0) default) agent) :
    List.Forall₂ (fun twice once => SameValue (.obj twice) (.obj once))
      (renamed (defaultedAgents overlay config (renamed agents))) (renamed agents) := by
  refine sameValue_renamed ?_
  have hsame : List.Forall₂ (fun twice once : Members => SameValue (.obj twice) (.obj once) ∧
      lookup twice (str "name") = lookup once (str "name") ∧
      lookup twice (str "tools") = lookup once (str "tools"))
        (defaultedAgents overlay config (renamed agents))
        ((renamed agents).zipIdx.map Prod.fst) := by
    unfold defaultedAgents
    rw [List.forall₂_map_left_iff, List.forall₂_map_right_iff, List.forall₂_same]
    intro agent hagent
    refine ⟨?_, ?_, ?_⟩
    · exact sameValue_putDefaults hoverlay dest_of_mem_defaultsMapping pairwise_defaultsMapping
        (h agent.2 agent.1 (List.mem_zipIdx_iff_getElem?.mp hagent))
    · exact lookup_putDefaults _ (fun default hmem => (head?_dest_ne default hmem).1) agent.1
    · exact lookup_putDefaults _ (fun default hmem => (head?_dest_ne default hmem).2.1) agent.1
  rwa [List.zipIdx_map_fst] at hsame

end Agents

/-! ## Keys of what is put in -/

section Distinct

variable {config : Members} {values strings : Replacements}

theorem HasDefined.distinct {agents : List Members} (h : HasDefined config values strings agents)
    (hconfig : Distinct (.obj config)) : ∀ agent ∈ agents, Distinct (.obj agent) := by
  have hitems : ∀ item ∈ itemsOf config, Distinct item := by
    unfold itemsOf agentsOf
    cases hiterate : ((lookup config (str "tools")).getD .null).iterate with
    | none => exact fun _ hmem => absurd hmem List.not_mem_nil
    | some items =>
        refine Distinct.iterate ?_ hiterate
        cases hlookup : lookup config (str "tools") with
        | none => trivial
        | some tools => exact hconfig.lookup hlookup
  have hall := distinct_filterOneList (distinct_resolveText (h.defines.distinct hconfig)) h.agents
    hitems
  exact fun agent hagent => hall _ (List.mem_map_of_mem hagent)

end Distinct

/-! ## A configuration that was filtered -/

section Filtered

variable {extractorGet : ExtractorGet} {overlay : Overlay} {strOf : StrOf}
  {config defined once : Members} {values strings : Replacements} {agents : List Members}

/-- The two passes of the filters. -/
theorem passes_of_filterConfig {filtered : Json}
    (h : filterConfig extractorGet overlay strOf (.obj config) = .ok filtered) :
    ∃ defined values strings, Defines config values strings ∧
      Replaced (resolveText values strings) (values = [] ∧ strings = []) config defined ∧
      resolve extractorGet overlay strOf defined = .ok filtered := by
  rw [filterConfig_eq_bind] at h
  obtain ⟨middle, hmiddle, h⟩ := exists_of_bind_ok h
  obtain ⟨defined, values, strings, rfl, hdefines, hreplaced⟩ := replaced_of_putDefinitions hmiddle
  exact ⟨defined, values, strings, hdefines, hreplaced, h⟩

theorem itemsOf_of_noTools (h : noTools ((lookup config (str "tools")).getD .null) = .ok true) :
    itemsOf config = [] := by
  unfold itemsOf agentsOf
  unfold noTools at h
  split at h
  · rename_i htools
    rw [htools]
    rfl
  · split at h
    · cases h
    · rename_i items hitems
      rw [hitems, Option.getD_some]
      exact List.isEmpty_iff.mp (Except.ok.inj h)

/-- The filters, where both passes return. -/
theorem filterConfig_of_passes {newConfig : Members} {filtered : Json}
    (hput : putDefinitions config = .ok (.obj newConfig))
    (hresolve : resolve extractorGet overlay strOf newConfig = .ok filtered) :
    filterConfig extractorGet overlay strOf (.obj config) = .ok filtered := by
  rw [filterConfig_eq _ _ _ hput, hresolve]

/-- A configuration without agents stays as it is. -/
theorem stays_of_noTools (hdefines : Defines config values strings)
    (hreplaced : Replaced (resolveText values strings) (values = [] ∧ strings = []) config once)
    (hnone : noTools ((lookup once (str "tools")).getD .null) = .ok true) :
    Stays extractorGet overlay strOf once := by
  have hitems : filterOneList (resolveText values strings) (itemsOf once) = .ok [] := by
    rw [itemsOf_of_noTools hnone]
    rfl
  obtain ⟨twice, hput, hagain⟩ := exists_putDefinitions
    (hdefines.congr (hreplaced.others _ (by decide))) hreplaced.listed hitems
  have hempty : itemsOf twice = [] := Except.ok.inj (hagain.agents.symm.trans hitems)
  by_cases hno : values = [] ∧ strings = []
  · rw [hagain.same hno] at hput
    exact ⟨once, filterConfig_of_passes hput (resolve_of_noTools hnone), fun _ _ => rfl, .inl rfl⟩
  · obtain ⟨items, htools⟩ := hreplaced.listed hno
    obtain ⟨twiceItems, htwice⟩ := hagain.listed hno
    rw [itemsOf_of_lookup htwice] at hempty
    have hold : items = [] := by
      rw [← itemsOf_of_lookup htools, itemsOf_of_noTools hnone]
    subst hempty hold
    have hnone' : noTools ((lookup twice (str "tools")).getD .null) = .ok true := by
      rw [htwice]
      rfl
    refine ⟨twice, filterConfig_of_passes hput (resolve_of_noTools hnone'), hagain.others, .inl ?_⟩
    rw [htwice, htools]

/-- The agents that the filters leave. -/
def filteredAgents (overlay : Overlay) (config : Members) (agents : List Members) : List Members :=
  renamed (defaultedAgents overlay config agents)

/-- The agents that are left depend on the defaults alone. -/
theorem filteredAgents_congr (overlay : Overlay) (agents : List Members) {other : Members}
    (h : ∀ key, key ≠ str "tools" → lookup other key = lookup config key) :
    filteredAgents overlay other agents = filteredAgents overlay config agents := by
  have hput : ∀ isFrontMan agent,
      putDefaults overlay (offer other isFrontMan) defaultsMapping agent =
        putDefaults overlay (offer config isFrontMan) defaultsMapping agent := by
    intro isFrontMan agent
    exact List.foldl_ext _ _ agent fun tool default hmem => by
      rw [offer_congr h isFrontMan default hmem]
  unfold filteredAgents defaultedAgents
  simp only [hput]

/-- Where an agent that is left comes from. -/
theorem getElem?_filteredAgents {index : Nat} {agent : Members}
    (h : (filteredAgents overlay config agents)[index]? = some agent) :
    ∃ old, agents[index]? = some old ∧
      agent = followed ((defaultedAgents overlay config agents).filterMap correction)
        (corrected (putDefaults overlay (offer config (index == 0)) defaultsMapping old)) := by
  unfold filteredAgents at h
  rw [getElem?_renamed, getElem?_defaultedAgents] at h
  obtain ⟨middle, hmiddle, rfl⟩ := Option.map_eq_some_iff.mp h
  obtain ⟨old, hold, rfl⟩ := Option.map_eq_some_iff.mp hmiddle
  exact ⟨old, hold, rfl⟩

theorem correction_putDefaults (offers : Default → Json) (agent : Members) :
    correction (putDefaults overlay offers defaultsMapping agent) = correction agent :=
  correction_congr (lookup_putDefaults _ (fun default hmem => (head?_dest_ne default hmem).1) agent)

/-- Names that are written are written again. -/
theorem hasWritableName_filteredAgents
    (hwritable : ∀ agent ∈ agents, HasWritableName strOf agent) :
    ∀ agent ∈ filteredAgents overlay config agents, HasWritableName strOf agent := by
  intro agent hagent
  obtain ⟨index, hindex⟩ := List.getElem?_of_mem hagent
  obtain ⟨old, hold, rfl⟩ := getElem?_filteredAgents hindex
  unfold HasWritableName
  rw [lookup_renamed _ _ (by decide) (by decide),
    lookup_putDefaults _ fun default hmem => (head?_dest_ne default hmem).1]
  exact hwritable old (List.mem_of_getElem? hold)

/-- What becomes of the agents of a configuration. -/
theorem filtered_of_resolve (hget : Extracts extractorGet)
    (htools : lookup defined (str "tools") = some (.arr (agents.map .obj)))
    (hlists : ∀ index agent, agents[index]? = some agent → ∀ default ∈ defaultsMapping,
      HasUnionLists default (offer defined (index == 0) default) agent)
    (h : resolve extractorGet overlay strOf defined = .ok (.obj once)) :
    lookup once (str "tools") = some (.arr ((filteredAgents overlay defined agents).map .obj)) ∧
      (∀ key, key ≠ str "tools" → lookup once key = lookup defined key) ∧
      ∀ agent ∈ agents, HasWritableName strOf agent := by
  have hagents : agentsOf defined = some (agents.map .obj) := by
    unfold agentsOf
    rw [htools]
    rfl
  have hwritable := ((exists_resolve_iff hget hagents).mp ⟨_, h⟩).2
  obtain ⟨newConfig, hresolve, hnew, hothers⟩ := exists_resolve hget htools hlists hwritable
  obtain rfl := Json.obj.inj (Except.ok.inj (h.symm.trans hresolve))
  exact ⟨hnew, hothers, hwritable⟩

/-- **Where no reference is left, every text that is left rests.** -/
theorem rests_of_nothingLeft (hoverlay : DeepMerge overlay) (hkeeps : KeepsDistinct overlay)
    (hconfig : Distinct (.obj config)) (hdefined : HasDefined config values strings agents)
    (hleft : NothingLeft config values strings agents) :
    ∀ agent ∈ filteredAgents overlay config agents, ∀ text ∈ stringsOfMembers agent,
      Rests values strings text := by
  intro agent hagent text htext
  obtain ⟨index, hindex⟩ := List.getElem?_of_mem hagent
  obtain ⟨old, hold, rfl⟩ := getElem?_filteredAgents hindex
  have hmem : putDefaults overlay (offer config (index == 0)) defaultsMapping old ∈
      defaultedAgents overlay config agents := by
    refine List.mem_of_getElem? (i := index) ?_
    rw [getElem?_defaultedAgents, hold]
    rfl
  rcases mem_stringsOfMembers_renamed hmem htext with htext | ⟨name, hname, rfl⟩
  · rcases mem_stringsOfMembers_putDefaults hoverlay hkeeps dest_of_mem_defaultsMapping
      pairwise_defaultsMapping (fun default _ => distinct_offer hconfig _ default)
      (hdefined.distinct hconfig old (List.mem_of_getElem? hold)) htext
      with hown | ⟨default, hdefault, henters⟩
    · have hitem : text ∈ stringsOfItems (agents.map .obj) :=
        mem_stringsOfItems.mpr ⟨_, List.mem_map_of_mem (List.mem_of_getElem? hold), hown⟩
      obtain ⟨source, hsource, made, hmade, hpart⟩ :=
        (mem_stringsOf_filterOneList hdefined.agents).mp hitem
      exact hleft.texts source hsource made hmade text hpart
    · exact hleft.defaults index old hold default hdefault text henters
  · obtain ⟨other, hother, hcorrection⟩ := List.mem_filterMap.mp hname
    obtain ⟨index', old', hold', rfl⟩ := mem_defaultedAgents hother
    rw [correction_putDefaults] at hcorrection
    exact hleft.names old' (List.mem_of_getElem? hold') name hcorrection

/-- **Where no reference is left, a second time changes nothing.** -/
theorem stays_of_settled (hget : Extracts extractorGet) (hoverlay : DeepMerge overlay)
    (hkeeps : KeepsDistinct overlay) (hconfig : Distinct (.obj config))
    (honce : filterConfig extractorGet overlay strOf (.obj config) = .ok (.obj once))
    (hsettled : IsSettled config) : Stays extractorGet overlay strOf once := by
  obtain ⟨defined, values, strings, hdefines, hreplaced, hresolve⟩ := passes_of_filterConfig honce
  rcases agents_of_resolve hresolve with hnone | ⟨agents, htools⟩
  · rw [resolve_of_noTools hnone] at hresolve
    obtain rfl := Json.obj.inj (Except.ok.inj hresolve)
    exact stays_of_noTools hdefines hreplaced hnone
  have hdefined : HasDefined config values strings agents := by
    refine ⟨hdefines, ?_⟩
    rw [hreplaced.agents, itemsOf_of_lookup htools]
  have hleft := hsettled values strings agents hdefined
  have hoffers := offer_congr hreplaced.others
  have hlists : ∀ index agent, agents[index]? = some agent → ∀ default ∈ defaultsMapping,
      HasUnionLists default (offer defined (index == 0) default) agent := by
    intro index agent hagent default hmem
    rw [hoffers _ default hmem]
    exact (hleft.lists index agent hagent default hmem).1
  obtain ⟨honceTools, honceOthers, hwritable⟩ := filtered_of_resolve hget htools hlists hresolve
  rw [filteredAgents_congr overlay agents hreplaced.others] at honceTools
  -- the first pass puts nothing in
  have hitems : filterOneList (resolveText values strings) (itemsOf once) = .ok (itemsOf once) := by
    rw [filterOneList_eq_self_iff, itemsOf_of_lookup honceTools]
    intro text htext
    obtain ⟨item, hitem, htext⟩ := mem_stringsOfItems.mp htext
    obtain ⟨agent, hagent, rfl⟩ := List.mem_map.mp hitem
    exact rests_of_nothingLeft hoverlay hkeeps hconfig hdefined hleft agent hagent text htext
  have honceDefines : Defines once values strings :=
    hdefines.congr ((honceOthers _ (by decide)).trans (hreplaced.others _ (by decide)))
  obtain ⟨again, hput, hagain⟩ := exists_putDefinitions honceDefines
    (fun _ => ⟨_, honceTools⟩) hitems
  have hagainItems : itemsOf again = itemsOf once :=
    Except.ok.inj (hagain.agents.symm.trans hitems)
  have hagainTools : lookup again (str "tools") =
      some (.arr ((filteredAgents overlay config agents).map .obj)) := by
    by_cases hno : values = [] ∧ strings = []
    · rwa [hagain.same hno]
    · obtain ⟨items, hlookup⟩ := hagain.listed hno
      rw [itemsOf_of_lookup hlookup, itemsOf_of_lookup honceTools] at hagainItems
      rw [hlookup, hagainItems]
  have hagainOthers : ∀ key, key ≠ str "tools" → lookup again key = lookup config key :=
    fun key hkey => ((hagain.others key hkey).trans (honceOthers key hkey)).trans
      (hreplaced.others key hkey)
  -- and in the second one every default is settled
  have hall : ∀ index agent, (filteredAgents overlay config agents)[index]? = some agent →
      ∀ default ∈ defaultsMapping, Settled default (offer again (index == 0) default) agent := by
    intro index agent hagent default hmem
    obtain ⟨old, hold, rfl⟩ := getElem?_filteredAgents hagent
    rw [offer_congr hagainOthers _ default hmem]
    exact settled_renamed hmem _ (settled_putDefaults hoverlay dest_of_mem_defaultsMapping
      pairwise_defaultsMapping (fun default hmem => (hleft.lists index old hold default hmem).1)
      (fun default hmem => (hleft.lists index old hold default hmem).2) default hmem)
  obtain ⟨twice, htwice, htwiceTools, htwiceOthers⟩ := @exists_resolve extractorGet overlay strOf
    again _ hget hagainTools
    (fun index agent hagent default hmem => (hall index agent hagent default hmem).hasUnionLists)
    (hasWritableName_filteredAgents hwritable)
  refine ⟨twice, filterConfig_of_passes hput htwice, fun key hkey => ?_, .inr ?_⟩
  · exact (htwiceOthers key hkey).trans (hagain.others key hkey)
  · exact ⟨_, _, honceTools, htwiceTools, sameValue_renamed_defaultedAgents hoverlay hall⟩

end Filtered

/-! ## What has to rest -/

/-- No unions are made of the defaults of a configuration, each place has only one default, and no
name is corrected. -/
structure IsPlain (config : Members) : Prop where
  schema : topValue config (str "sly_data_schema") = .null
  verbose : topValue config (str "llm_config.verbose") = .null ∨
    topValue config (str "verbose") = .null
  names : ∀ values strings agents, HasDefined config values strings agents →
    ∀ agent ∈ agents, correction agent = none

section Plain

variable {extractorGet : ExtractorGet} {overlay : Overlay} {strOf : StrOf}
  {config once : Members} {values strings : Replacements} {agents : List Members}

theorem unionFields_or_schema : ∀ default ∈ defaultsMapping,
    default.sourceKey = str "sly_data_schema" ∨ default.unionFields = [] := by
  decide

theorem apart_or_verbose : defaultsMapping.Pairwise fun first last =>
    ¬ first.dest.head? = last.dest.head? ∨
      (first.sourceKey = str "llm_config.verbose" ∧ last.sourceKey = str "verbose") := by
  decide

theorem offer_of_topValue {default : Default} (h : topValue config default.sourceKey = .null)
    (isFrontMan : Bool) : offer config isFrontMan default = .null := by
  unfold offer
  split
  · rfl
  · exact h

theorem IsPlain.makesNoUnion (h : IsPlain config) (isFrontMan : Bool) :
    ∀ default ∈ defaultsMapping, MakesNoUnion default (offer config isFrontMan default) := by
  intro default hmem
  rcases unionFields_or_schema default hmem with hschema | hunion
  · exact .inl (offer_of_topValue (hschema ▸ h.schema) isFrontMan)
  · exact .inr hunion

theorem IsPlain.apart (h : IsPlain config) (isFrontMan : Bool) :
    defaultsMapping.Pairwise fun first last => Apart first last.dest ∨
      offer config isFrontMan first = .null ∨ offer config isFrontMan last = .null := by
  refine apart_or_verbose.imp fun {first last} hpair => ?_
  rcases hpair with hapart | ⟨hfirst, hlast⟩
  · exact .inl hapart
  · rcases h.verbose with hnone | hnone
    · exact .inr (.inl (offer_of_topValue (hfirst ▸ hnone) isFrontMan))
    · exact .inr (.inr (offer_of_topValue (hlast ▸ hnone) isFrontMan))

theorem lists_of_makesNoUnion {default : Default} {offered : Json} (agent : Members)
    (h : MakesNoUnion default offered) :
    HasUnionLists default offered agent ∧ TakesUnions default offered agent := by
  rcases h with rfl | hunion
  · refine ⟨fun basis value hbasis => ?_, fun basis hbasis => ?_⟩
    · cases hbasis
    · cases hbasis
  · unfold HasUnionLists TakesUnions
    rw [hunion]
    exact ⟨fun _ _ _ _ _ hfield => absurd hfield List.not_mem_nil,
      fun _ _ _ _ _ hfield => absurd hfield List.not_mem_nil⟩

theorem followedTools_nil (tools : Json) : followedTools [] tools = tools := by
  cases tools with
  | arr items =>
      show Json.arr (items.map (correctTool [])) = _
      rw [show correctTool [] = id from funext correctTool_nil, List.map_id]
  | _ => rfl

/-- An agent of which nothing is corrected. -/
theorem valueAt_followed_of_none {agent : Members} (h : correction agent = none)
    (path : List PyStr) :
    (Json.obj (followed [] (corrected agent))).valueAt path = (Json.obj agent).valueAt path := by
  cases path with
  | nil => rfl
  | cons key rest =>
      have hlookup : lookup (followed [] (corrected agent)) key = lookup agent key := by
        have hcorrected : lookup (corrected agent) key = lookup agent key := by
          rw [lookup_corrected, h]
          exact if_neg nofun
        rw [lookup_followed, hcorrected, show followedTools [] = id from funext followedTools_nil,
          Option.map_id]
        exact ite_self _
      rw [valueAt_obj, valueAt_obj, hlookup]

/-- Nothing is put in that is null. -/
theorem ne_null_of_resolveText {text : PyStr} {made : Json}
    (h : resolveText values strings text = .ok made) : made ≠ .null := by
  obtain ⟨middle, hmiddle, hmade⟩ := exists_of_bind_ok h
  have hmiddleNull : middle ≠ .null := by
    rintro rfl
    unfold DictionaryCommonDefsConfigFilter.makeReplacements at hmiddle
    split at hmiddle
    · cases hmiddle
    · cases hmiddle
    · rename_i hnot _
      exact hnot (Except.ok.inj hmiddle)
  rintro rfl
  cases middle with
  | null => exact hmiddleNull rfl
  | str s =>
      rw [filterValue] at hmade
      obtain ⟨_, -, hnull⟩ := exists_of_map_eq_ok hmade
      cases hnull
  | arr items =>
      obtain ⟨_, -, hnull⟩ := filterValue_arr_eq_ok.mp hmade
      cases hnull
  | obj members =>
      obtain ⟨_, -, hnull⟩ := filterValue_obj_eq_ok.mp hmade
      cases hnull
  | _ => cases hmade

/-- What becomes of a value in which there are texts is not null. -/
theorem ne_null_of_filterValue {text : PyStr} {leaf made : Json}
    (h : filterValue (resolveText values strings) leaf = .ok made) (htext : text ∈ stringsOf leaf) :
    made ≠ .null := by
  cases leaf with
  | str s => exact ne_null_of_resolveText h
  | arr items =>
      obtain ⟨_, -, rfl⟩ := filterValue_arr_eq_ok.mp h
      simp
  | obj members =>
      obtain ⟨_, -, rfl⟩ := filterValue_obj_eq_ok.mp h
      simp
  | _ => exact absurd htext List.not_mem_nil

theorem nothingLeft_nil (h : HasDefined config values strings []) :
    NothingLeft config values strings [] := by
  have hitems : itemsOf config = [] := by
    have hagents := h.agents
    cases hconfig : itemsOf config with
    | nil => rfl
    | cons item rest =>
        rw [hconfig] at hagents
        obtain ⟨_, _, -, -, hcons⟩ := filterOneList_cons_eq_ok.mp hagents
        cases hcons
  refine ⟨?_, fun index agent hagent => ?_, fun agent hagent => ?_, fun index agent hagent => ?_⟩
  · rw [hitems]
    exact fun _ htext => absurd htext List.not_mem_nil
  · cases hagent
  · exact absurd hagent List.not_mem_nil
  · cases hagent

/-- One agent that is the same when it is filtered again: its texts rest. -/
theorem rests_of_sameValue (hoverlay : DeepMerge overlay) {agent again : Members}
    {offers : Default → Json}
    (hunions : ∀ default ∈ defaultsMapping, MakesNoUnion default (offers default))
    (hagain : filterValue (resolveText values strings) (.obj agent) = .ok (.obj again))
    (hsame : SameValue (.obj (putDefaults overlay offers defaultsMapping again)) (.obj agent))
    {path : List PyStr} {leaf : Json} (hleaf : (Json.obj agent).valueAt path = some leaf) :
    ∀ text ∈ stringsOf leaf, Rests values strings text := by
  intro text htext
  obtain ⟨made, hmade, hfiltered⟩ := atPath_filterValue hagain (atPath_of_leaf hleaf htext)
  have hvalue : (Json.obj again).valueAt path = some made.outline := by
    unfold valueAt
    rw [hmade]
    rfl
  have hnull : made.outline ≠ .null := by
    have hne := ne_null_of_filterValue hfiltered htext
    cases made with
    | null => exact absurd rfl hne
    | _ => simp [outline]
  have hkept :=
    valueAt_putDefaults_of_some hoverlay dest_of_mem_defaultsMapping hunions hvalue hnull
  rw [hsame path, hleaf] at hkept
  -- the value at the path is what becomes of it
  have hmadeLeaf : made = leaf := by
    rw [Option.some.inj hkept] at htext ⊢
    cases made with
    | obj members => exact absurd htext List.not_mem_nil
    | _ => rfl
  rw [hmadeLeaf] at hfiltered
  exact (filterValue_eq_self_iff leaf).mp hfiltered text htext

/-- Agents of which no name is corrected. -/
theorem getElem?_filteredAgents_of_plain (hnames : ∀ agent ∈ agents, correction agent = none)
    {index : Nat} {agent : Members} (h : agents[index]? = some agent) :
    ∃ new, (filteredAgents overlay config agents)[index]? = some new ∧
      lookup new (str "name") = lookup agent (str "name") ∧
      ∀ path, (Json.obj new).valueAt path =
        (Json.obj (putDefaults overlay (offer config (index == 0)) defaultsMapping agent)).valueAt
          path := by
  have hnone : (defaultedAgents overlay config agents).filterMap correction = [] := by
    rw [List.filterMap_eq_nil_iff]
    intro other hother
    obtain ⟨index', old, hold, rfl⟩ := mem_defaultedAgents hother
    rw [correction_putDefaults]
    exact hnames old (List.mem_of_getElem? hold)
  refine ⟨followed [] (corrected (putDefaults overlay (offer config (index == 0))
    defaultsMapping agent)), ?_, ?_, fun path => ?_⟩
  · unfold filteredAgents
    rw [getElem?_renamed, getElem?_defaultedAgents, h, hnone]
    rfl
  · rw [lookup_renamed _ _ (by decide) (by decide)]
    exact lookup_putDefaults _ (fun default hmem => (head?_dest_ne default hmem).1) agent
  · refine valueAt_followed_of_none ?_ path
    rw [correction_putDefaults]
    exact hnames agent (List.mem_of_getElem? h)

/-- The name of an agent that is the same when it is filtered again is not corrected then. -/
theorem correction_eq_none_of_sameValue {old agent twice again : Members}
    (hnone : correction old = none) (hname : lookup agent (str "name") = lookup old (str "name"))
    (htwice : lookup twice (str "name") = lookup again (str "name"))
    (hsame : SameValue (.obj twice) (.obj agent)) : correction again = none := by
  cases hcorrection : correction again with
  | none => rfl
  | some name =>
      have hvalue := hsame [str "name"]
      rw [valueAt_obj, valueAt_obj, htwice, (correction_eq_some hcorrection).1, hname] at hvalue
      obtain ⟨value, hvalue, hname'⟩ := Option.bind_eq_some_iff.mp hvalue.symm
      obtain rfl : value = .str name := by
        cases value with
        | obj members => cases hname'
        | _ => exact Option.some.inj hname'
      have heq := correction_congr
        (hvalue.trans (correction_eq_some hcorrection).1.symm)
      rw [hnone, hcorrection] at heq
      cases heq

/-- **The texts of agents that stay as they are rest.** -/
theorem rests_of_forall₂ (hoverlay : DeepMerge overlay) {newAgents : List Members}
    (hplain : IsPlain config) (hnames : ∀ agent ∈ agents, correction agent = none)
    (hagain : filterOneList (resolveText values strings)
      ((filteredAgents overlay config agents).map .obj) = .ok (newAgents.map .obj))
    (hsame : List.Forall₂ (fun twice once => SameValue (.obj twice) (.obj once))
      (filteredAgents overlay config newAgents) (filteredAgents overlay config agents))
    {index : Nat} {agent : Members} (hagent : agents[index]? = some agent) {path : List PyStr}
    {leaf : Json} (hleaf : (Json.obj (putDefaults overlay (offer config (index == 0))
      defaultsMapping agent)).valueAt path = some leaf) :
    ∀ text ∈ stringsOf leaf, Rests values strings text := by
  have hpairs := forall₂_of_filterOneList hagain
  rw [List.forall₂_map_left_iff, List.forall₂_map_right_iff] at hpairs
  have hnewNames : ∀ new ∈ newAgents, correction new = none := by
    intro new hnew
    obtain ⟨position, hposition⟩ := List.getElem?_of_mem hnew
    obtain ⟨once, honce, -⟩ := exists_of_forall₂ hpairs.flip hposition
    obtain ⟨old, hold, rfl⟩ := getElem?_filteredAgents honce
    obtain ⟨twice, htwice, hpair⟩ := exists_of_forall₂ hsame.flip honce
    obtain ⟨new', hnew', rfl⟩ := getElem?_filteredAgents htwice
    obtain rfl := Option.some.inj (hposition.symm.trans hnew')
    have hkept : ∀ (corrections : List PyStr) (offers : Default → Json) (agent : Members),
        lookup (followed corrections (corrected (putDefaults overlay offers defaultsMapping agent)))
          (str "name") = lookup agent (str "name") := by
      intro corrections offers agent
      rw [lookup_renamed _ _ (by decide) (by decide)]
      exact lookup_putDefaults _ (fun default hmem => (head?_dest_ne default hmem).1) agent
    exact correction_eq_none_of_sameValue (hnames old (List.mem_of_getElem? hold)) (hkept _ _ _)
      (hkept _ _ _) hpair
  obtain ⟨once, honce, -, honceValue⟩ :=
    @getElem?_filteredAgents_of_plain overlay config agents hnames index agent hagent
  obtain ⟨new, hnew, hfiltered⟩ := exists_of_forall₂ hpairs honce
  obtain ⟨twice, htwice, -, htwiceValue⟩ :=
    @getElem?_filteredAgents_of_plain overlay config newAgents hnewNames index new hnew
  obtain ⟨twice', htwice', hpair⟩ := exists_of_forall₂ hsame.flip honce
  obtain rfl := Option.some.inj (htwice.symm.trans htwice')
  rw [← honceValue] at hleaf
  exact rests_of_sameValue hoverlay (hplain.makesNoUnion _) hfiltered
    (fun path => (htwiceValue path).symm.trans (hpair path)) hleaf

/-- **A configuration that stays as it is has no references left**, where no unions are made, each
place has one default, and no name is corrected. -/
theorem settled_of_stays (hget : Extracts extractorGet) (hoverlay : DeepMerge overlay)
    (hconfig : Distinct (.obj config))
    (honce : filterConfig extractorGet overlay strOf (.obj config) = .ok (.obj once))
    (hplain : IsPlain config) (hstays : Stays extractorGet overlay strOf once) :
    IsSettled config := by
  intro values strings agents hdefined
  obtain ⟨defined, values', strings', hdefines, hreplaced, hresolve⟩ := passes_of_filterConfig honce
  obtain rfl := hdefined.defines.values.unique hdefines.values
  obtain rfl := hdefined.defines.strings.unique hdefines.strings
  have hitems : itemsOf defined = agents.map .obj :=
    Except.ok.inj (hreplaced.agents.symm.trans hdefined.agents)
  rcases agents_of_resolve hresolve with hnone | ⟨agents', htools⟩
  · rw [itemsOf_of_noTools hnone] at hitems
    obtain rfl := List.map_eq_nil_iff.mp hitems.symm
    exact nothingLeft_nil hdefined
  obtain rfl : agents' = agents := by
    rw [itemsOf_of_lookup htools] at hitems
    exact List.map_injective_iff.mpr (fun _ _ => Json.obj.inj) hitems
  have hnames := hplain.names _ _ agents' hdefined
  have hunions : ∀ {other : Members},
      (∀ key, key ≠ str "tools" → lookup other key = lookup config key) →
      ∀ isFrontMan, ∀ default ∈ defaultsMapping,
        MakesNoUnion default (offer other isFrontMan default) := by
    intro other hother isFrontMan default hmem
    rw [offer_congr hother isFrontMan default hmem]
    exact hplain.makesNoUnion isFrontMan default hmem
  obtain ⟨honceTools, honceOthers, -⟩ := filtered_of_resolve hget htools
    (fun index agent _ default hmem =>
      (lists_of_makesNoUnion agent (hunions hreplaced.others (index == 0) default hmem)).1) hresolve
  rw [filteredAgents_congr overlay agents' hreplaced.others] at honceTools
  -- the second time
  obtain ⟨twice, htwice, hsame⟩ := hstays
  obtain ⟨again, values, strings, hagainDefines, hagain, hagainResolve⟩ :=
    passes_of_filterConfig htwice
  have honceDefines := hdefines.congr
    ((honceOthers _ (by decide)).trans (hreplaced.others _ (by decide)))
  obtain rfl := honceDefines.values.unique hagainDefines.values
  obtain rfl := honceDefines.strings.unique hagainDefines.strings
  have hagainItems := hagain.agents
  rw [itemsOf_of_lookup honceTools] at hagainItems
  have hagainOthers : ∀ key, key ≠ str "tools" → lookup again key = lookup config key :=
    fun key hkey => ((hagain.others key hkey).trans (honceOthers key hkey)).trans
      (hreplaced.others key hkey)
  rcases agents_of_resolve hagainResolve with hnone | ⟨newAgents, hnewTools⟩
  · rw [itemsOf_of_noTools hnone] at hagainItems
    have hlength := (forall₂_of_filterOneList hagainItems).length_eq
    have hnil : agents' = [] := by
      simpa [filteredAgents, renamed, defaultedAgents] using hlength
    subst hnil
    exact nothingLeft_nil hdefined
  rw [itemsOf_of_lookup hnewTools] at hagainItems
  obtain ⟨htwiceTools, -, -⟩ := filtered_of_resolve hget hnewTools
    (fun index agent _ default hmem =>
      (lists_of_makesNoUnion agent (hunions hagainOthers (index == 0) default hmem)).1)
    hagainResolve
  rw [filteredAgents_congr overlay newAgents hagainOthers] at htwiceTools
  have hforall : List.Forall₂ (fun twice once => SameValue (.obj twice) (.obj once))
      (filteredAgents overlay config newAgents) (filteredAgents overlay config agents') := by
    have hinjective : Function.Injective (List.map Json.obj) :=
      List.map_injective_iff.mpr fun _ _ => Json.obj.inj
    rcases hsame.tools with heq | ⟨onceAgents, twiceAgents, honceAgents, htwiceAgents, hforall⟩
    · rw [htwiceTools, honceTools] at heq
      rw [hinjective (Json.arr.inj (Option.some.inj heq)), List.forall₂_same]
      exact fun _ _ _ => rfl
    · rw [honceTools] at honceAgents
      rw [htwiceTools] at htwiceAgents
      rwa [hinjective (Json.arr.inj (Option.some.inj honceAgents)),
        hinjective (Json.arr.inj (Option.some.inj htwiceAgents))]
  have hrests := @rests_of_forall₂ overlay config _ _ agents' hoverlay newAgents hplain hnames
    hagainItems hforall
  refine ⟨fun source hsource made hmade text htext => ?_, ?_, ?_, ?_⟩
  · have hitem := (mem_stringsOf_filterOneList hdefined.agents).mpr
      ⟨source, hsource, made, hmade, htext⟩
    obtain ⟨item, hitem, htext⟩ := mem_stringsOfItems.mp hitem
    obtain ⟨agent, hagent, rfl⟩ := List.mem_map.mp hitem
    obtain ⟨path, leaf, hleaf, htext⟩ :=
      exists_leaf _ (hdefined.distinct hconfig agent hagent) htext
    obtain ⟨index, hindex⟩ := List.getElem?_of_mem hagent
    have hnull : leaf ≠ .null := by
      rintro rfl
      exact List.not_mem_nil htext
    exact hrests hindex (valueAt_putDefaults_of_some hoverlay dest_of_mem_defaultsMapping
      (hplain.makesNoUnion _) hleaf hnull) text htext
  · intro index agent hagent default hmem text henters
    obtain ⟨path, leaf, hleaf, htext⟩ := exists_leaf_putDefaults hoverlay
      dest_of_mem_defaultsMapping (hplain.makesNoUnion _) (hplain.apart _) hmem henters
    exact hrests hagent hleaf text htext
  · intro agent hagent name hname
    rw [hnames agent hagent] at hname
    cases hname
  · intro index agent _ default hmem
    exact lists_of_makesNoUnion agent (hplain.makesNoUnion _ default hmem)

end Plain

/-! ## Examples -/

instance (values strings : Replacements) (text : PyStr) : Decidable (Rests values strings text) :=
  match h : resolveText values strings text with
  | .ok (.str part) => decidable_of_iff (part = text) (by simp [Rests, h])
  | .ok .null | .ok (.bool _) | .ok (.int _) | .ok (.float _) | .ok (.arr _) | .ok (.obj _)
  | .error _ => isFalse (by simp [Rests, h])

/-- A front man with a helper. -/
def teamConfig : Members :=
  [(str "commondefs", .obj
      [(str "replacement_values", .obj
        [(str "model", .obj [(str "class", .str (str "openai"))])]),
      (str "replacement_strings", .obj [(str "who", .str (str "you"))])]),
    (str "llm_config", .obj [(str "model_name", .str (str "fast"))]),
    (str "sly_data_schema", .obj (schemaOf ["key"])),
    (str "tools", .arr
      [.obj [(str "name", .str (str "front")),
          (str "instructions", .str (str "Help \x7bwho\x7d.")),
          (str "llm_config", .str (str "model")), (str "tools", .arr [.str (str "helper")])],
        .obj [(str "name", .str (str "helper"))]])]

theorem distinct_teamConfig : Distinct (.obj teamConfig) := by
  decide

/-- The values of the team, as replacements. -/
def teamValues : Replacements := [(.text (str "model"), .obj [(str "class", .str (str "openai"))])]

/-- Its strings. -/
def teamStrings : Replacements := [(.text (str "who"), .str (str "you"))]

/-- The agents of the team, with definitions put in. -/
def teamAgents : List Members :=
  [[(str "name", .str (str "front")), (str "instructions", .str (str "Help you.")),
      (str "llm_config", .obj [(str "class", .str (str "openai"))]),
      (str "tools", .arr [.str (str "helper")])],
    [(str "name", .str (str "helper"))]]

theorem defines_teamConfig : Defines teamConfig teamValues teamStrings :=
  ⟨⟨_, rfl, rfl⟩, ⟨_, rfl, rfl⟩⟩

theorem rests_teamConfig : ∀ text ∈ stringsOfItems (teamAgents.map .obj) ++
    defaultsMapping.flatMap fun default => stringsOf (topValue teamConfig default.sourceKey),
      Rests teamValues teamStrings text := by
  decide

theorem isSettled_teamConfig : IsSettled teamConfig := by
  intro values strings agents hdefined
  obtain rfl := defines_teamConfig.values.unique hdefined.defines.values
  obtain rfl := defines_teamConfig.strings.unique hdefined.defines.strings
  obtain rfl : agents = teamAgents := by
    have hagents : filterOneList (resolveText teamValues teamStrings) (itemsOf teamConfig) =
        .ok (teamAgents.map .obj) := rfl
    exact List.map_injective_iff.mpr (fun _ _ => Json.obj.inj)
      (Except.ok.inj (hdefined.agents.symm.trans hagents))
  refine ⟨fun source hsource made hmade text htext => ?_, ?_, ?_, ?_⟩
  · refine rests_teamConfig text (List.mem_append_left _ ?_)
    exact (mem_stringsOf_filterOneList hdefined.agents).mpr ⟨source, hsource, made, hmade, htext⟩
  · rintro index agent - default hmem text ⟨-, path, leaf, hleaf, htext, -⟩
    have hoffered := mem_stringsOf_of_atPath (atPath_of_leaf hleaf htext) htext
    unfold offer at hoffered
    split at hoffered
    · exact absurd hoffered List.not_mem_nil
    · exact rests_teamConfig text
        (List.mem_append_right _ (List.mem_flatMap.mpr ⟨default, hmem, hoffered⟩))
  · decide
  · intro index agent hagent default hmem
    by_cases hunion : default.unionFields = []
    · exact lists_of_makesNoUnion agent (.inr hunion)
    obtain ⟨field, hfield⟩ := List.exists_mem_of_ne_nil _ hunion
    obtain ⟨-, hsource, hfront, hdest⟩ := of_mem_unionFields default hmem field hfield
    cases index with
    | succ index =>
        refine lists_of_makesNoUnion agent (.inl ?_)
        unfold offer
        rw [hfront]
        rfl
    | zero =>
        obtain rfl := Option.some.inj hagent
        refine ⟨fun basis value _ hvalue => ?_, fun basis hbasis _ _ other hother => ?_⟩
        · rw [hdest] at hvalue
          cases hvalue
        · obtain ⟨rfl, -⟩ := of_mem_unionFields default hmem other hother
          unfold offer at hbasis
          rw [hfront, hsource] at hbasis
          obtain rfl := Json.obj.inj hbasis
          exact ⟨_, rfl, by simp [Key.IsHashable, Key.ofJson], by decide⟩

/-- A definition refers to another one, whose key occurs in it. -/
def RefersTo (occurs : PyStr → PyStr → Prop) (defined : Replacements) (key other : PyStr) : Prop :=
  ∃ value otherValue, (Key.text key, value) ∈ defined ∧ (Key.text other, otherValue) ∈ defined ∧
    ∃ text ∈ stringsOf value, occurs other text

/-- The definitions of a configuration do not refer to each other in a cycle. -/
structure IsAcyclic (config : Members) : Prop where
  values : ∀ defined, definedReplacements (str "replacement_values") config = .ok defined →
    ∀ key, ¬Relation.TransGen (RefersTo Eq defined) key key
  strings : ∀ defined, definedReplacements (str "replacement_strings") config = .ok defined →
    ∀ key, ¬Relation.TransGen (RefersTo (fun other text =>
      StringCommonDefsConfigFilter.braced other <:+: text) defined) key key

/-- Three definitions in a row. -/
def chainConfig : Members :=
  [(str "commondefs", .obj [(str "replacement_values", .obj
      [(str "a", .str (str "b")), (str "b", .str (str "c")),
        (str "c", .obj [(str "model_name", .str (str "fast"))])])]),
    (str "tools", .arr [.obj [(str "name", .str (str "front")),
      (str "llm_config", .str (str "a"))]])]

theorem isAcyclic_chainConfig : IsAcyclic chainConfig := by
  refine ⟨fun defined hdefined key hcycle => ?_, fun defined hdefined key hcycle => ?_⟩
  · have hstep : ∀ first last, RefersTo Eq defined first last → first < last := by
      obtain rfl : [(Key.text (str "a"), Json.str (str "b")), (Key.text (str "b"), .str (str "c")),
          (Key.text (str "c"), .obj [(str "model_name", .str (str "fast"))])] = defined :=
        Except.ok.inj hdefined
      rintro first last ⟨value, -, hfirst, -, text, htext, rfl⟩
      simp only [List.mem_cons, List.not_mem_nil, or_false, Prod.mk.injEq, Key.text.injEq]
        at hfirst
      rcases hfirst with ⟨rfl, rfl⟩ | ⟨rfl, rfl⟩ | ⟨rfl, rfl⟩ <;>
      · obtain rfl := List.mem_singleton.mp htext
        decide
    have hless : Relation.TransGen (· < ·) key key := Relation.TransGen.mono hstep _ _ hcycle
    rw [Relation.transGen_eq_self] at hless
    exact lt_irrefl key hless
  · obtain rfl : [] = defined := Except.ok.inj hdefined
    obtain ⟨other, ⟨value, otherValue, hvalue, -⟩, -⟩ :=
      Relation.TransGen.head'_iff.mp hcycle
    exact absurd hvalue List.not_mem_nil

end NetworkConfigFilterChain

end NoraFleet.Networks
