import Mathlib
import NoraFleet.Networks.Defaults

/-!
# Defaults of a configuration

What `DefaultsConfigFilter` makes of a configuration. Where a default was put once there is nothing
left to put, whatever other defaults do to the same agent.

* `settled_putDefaults` — after all defaults each of them is settled;
* `sameValue_putDefaults` — defaults that are settled change nothing;
* `filterConfig_defaulted` — what the filter does to a configuration, once and twice.
-/

namespace NoraFleet.Networks

open Base Json

namespace DefaultsConfigFilter

variable (overlay : Overlay)

/-! ## The defaults again -/

section Again

variable {overlay} {default : Default} {offered : Json} {tool : Members}

theorem lookup_mergeOf (unionFields : List PyStr) (basis value : Members) (key : PyStr) :
    lookup (mergeOf overlay unionFields basis value) key =
      if key ∈ unionFields then
        some (.arr (onceEach Key.of (itemsUnder basis key ++ itemsUnder value key)))
      else lookup (overlay basis value) key := by
  unfold mergeOf
  induction unionFields using List.reverseRecOn with
  | nil => rw [if_neg List.not_mem_nil, List.foldl_nil]
  | append_singleton fields field ih =>
      rw [List.foldl_append, List.foldl_cons, List.foldl_nil, lookup_setItems, ih]
      by_cases hkey : key = field
      · rw [if_pos hkey, if_pos (by simp [hkey]), hkey]
      · simp [hkey]

theorem covers_foldl_setItems {upper lower : Members} (h : Covers upper lower)
    (fields : List PyStr) (union : PyStr → List Json) :
    Covers (fields.foldl (fun merged field =>
      Dict.setItems merged field (.arr (union field))) upper)
      lower := by
  induction fields generalizing upper with
  | nil => exact h
  | cons field rest ih => exact ih (h.setItems field _)

/-- What is offered has been laid under a value already. -/
def Absorbs (unionFields : List PyStr) (offered v : Json) : Prop :=
  ∀ basis value, offered = .obj basis → v = .obj value →
    Covers value basis ∧ ∀ field ∈ unionFields, IsUnionList basis field ∧
      ∃ items, lookup value field = some (.arr items) ∧ (∀ item ∈ items, Key.IsHashable item) ∧
        onceEach Key.of (itemsUnder basis field ++ items) = items

/-- There is nothing left to put for a default. -/
def Settled (default : Default) (offered : Json) (tool : Members) : Prop :=
  offered = .null ∨ ¬IsFree default.dest tool ∨
    ∃ v, (Json.obj tool).atPath default.dest = some v ∧ v ≠ .null ∧
      Absorbs default.unionFields offered v

/-- What was laid under a value already does not change it. -/
theorem sameValue_mergeOf (hoverlay : DeepMerge overlay) {unionFields : List PyStr}
    {basis value : Members} (h : Absorbs unionFields (.obj basis) (.obj value)) :
    SameValue (.obj (mergeOf overlay unionFields basis value)) (.obj value) := by
  obtain ⟨hcovers, hunions⟩ := h basis value rfl rfl
  intro path
  cases path with
  | nil => rfl
  | cons key rest =>
      rw [valueAt_obj, lookup_mergeOf]
      by_cases hkey : key ∈ unionFields
      · obtain ⟨-, items, hitems, -, hunion⟩ := hunions key hkey
        rw [if_pos hkey, itemsUnder_of_lookup hitems, hunion, valueAt_obj, hitems]
      · rw [if_neg hkey, ← valueAt_obj]
        exact hcovers.sameValue hoverlay (key :: rest)

/-- **A default that is settled changes nothing.** -/
theorem sameValue_putDefault (hoverlay : DeepMerge overlay) (hdest : default.dest ≠ [])
    (hlength : default.dest.length ≤ 2) (h : Settled default offered tool) :
    SameValue (.obj (putDefault overlay default offered tool)) (.obj tool) := by
  rcases h with rfl | hclosed | ⟨v, hv, hnull, habsorbs⟩
  · exact fun _ => rfl
  · rw [putDefault_of_not_isFree hlength hclosed]
    exact fun _ => rfl
  · by_cases hdicts : (∃ basis, offered = .obj basis) ∧ ∃ value, v = .obj value
    · obtain ⟨⟨basis, rfl⟩, value, rfl⟩ := hdicts
      rw [putDefault_merge hv]
      exact sameValue_setAt hdest hv (sameValue_mergeOf hoverlay habsorbs)
    · have hleft : putDefault overlay default offered tool = tool := by
        by_cases hvalue : ∃ value, v = .obj value
        · obtain ⟨value, rfl⟩ := hvalue
          exact putDefault_of_dict hv fun basis hbasis => hdicts ⟨⟨basis, hbasis⟩, value, rfl⟩
        · exact putDefault_of_scalar hv hnull fun value heq => hvalue ⟨value, heq⟩
      rw [hleft]
      exact fun _ => rfl

/-- A dictionary that an agent takes over has lists without duplicates where unions are made. -/
def TakesUnions (default : Default) (offered : Json) (tool : Members) : Prop :=
  ∀ basis, offered = .obj basis → ((Json.obj tool).atPath default.dest).getD .null = .null →
    IsFree default.dest tool → ∀ field ∈ default.unionFields,
      ∃ items, lookup basis field = some (.arr items) ∧ (∀ item ∈ items, Key.IsHashable item) ∧
        (items.map Key.of).Nodup

/-- **What was put is settled.** -/
theorem settled_putDefault (hoverlay : DeepMerge overlay) (hdest : default.dest ≠ [])
    (hlength : default.dest.length ≤ 2) (hlists : HasUnionLists default offered tool)
    (hunions : TakesUnions default offered tool) :
    Settled default offered (putDefault overlay default offered tool) := by
  by_cases hoffered : offered = .null
  · exact .inl hoffered
  by_cases hfree : IsFree default.dest tool
  · refine .inr (.inr ?_)
    rw [atPath_putDefault_dest hdest hfree]
    by_cases hold : ((Json.obj tool).atPath default.dest).getD .null = .null
    · -- taken over: it covers itself
      refine ⟨offered, ?_, hoffered, ?_⟩
      · unfold laid
        rw [hold]
        cases offered with
        | null => exact absurd rfl hoffered
        | _ => rfl
      · rintro basis value rfl hvalue
        obtain rfl := Json.obj.inj hvalue
        refine ⟨covers_self basis, fun field hfield => ?_⟩
        obtain ⟨items, hitems, hhashable, hnodup⟩ := hunions basis rfl hold hfree field hfield
        refine ⟨.inr ⟨items, hitems, hhashable⟩, items, hitems, hhashable, ?_⟩
        rw [itemsUnder_of_lookup hitems]
        have htwice := onceEach_append_onceEach Key.of items []
        rwa [List.append_nil, onceEach_of_nodup hnodup] at htwice
    · obtain ⟨v, hv⟩ : ∃ v, (Json.obj tool).atPath default.dest = some v := by
        cases hvalue : (Json.obj tool).atPath default.dest with
        | none =>
            rw [hvalue] at hold
            exact absurd rfl hold
        | some v => exact ⟨v, rfl⟩
      rw [hv, Option.getD_some] at hold
      rw [hv]
      by_cases hvalue : ∃ value, v = .obj value
      · obtain ⟨value, rfl⟩ := hvalue
        by_cases hbasis : ∃ basis, offered = .obj basis
        · -- merged: the union is there already
          obtain ⟨basis, rfl⟩ := hbasis
          refine ⟨_, rfl, by simp, ?_⟩
          intro lower upper hlower hupper
          obtain rfl := Json.obj.inj hlower
          obtain rfl := Json.obj.inj hupper
          refine ⟨covers_foldl_setItems (covers_overlay hoverlay basis value) _ _, ?_⟩
          intro field hfield
          obtain ⟨hbasis, hvalue⟩ := hlists basis value rfl hv field hfield
          refine ⟨hbasis, _, (lookup_mergeOf _ _ _ _).trans (if_pos hfield), ?_,
            onceEach_append_onceEach _ _ _⟩
          intro item hitem
          rcases List.mem_append.mp (onceEach_subset _ hitem) with hfirst | hlast
          · exact hbasis.isHashable item hfirst
          · exact hvalue.isHashable item hlast
        · refine ⟨.obj value, ?_, hold, fun basis _ hoffered => absurd ⟨basis, hoffered⟩ hbasis⟩
          cases offered with
          | obj basis => exact absurd ⟨basis, rfl⟩ hbasis
          | _ => rfl
      · -- a scalar of the agent stays
        have hscalar : ∀ value, v ≠ .obj value := fun value heq => hvalue ⟨value, heq⟩
        exact ⟨v, laid_of_scalar _ hold hscalar offered, hold,
          fun _ value _ heq => absurd heq (hscalar value)⟩
  · -- what is in the way is still in the way
    refine .inr (.inl ?_)
    rw [isFree_putDefault_dest hdest hlength]
    exact hfree

end Again

/-! ## Defaults that go together -/

/-- Two defaults have destinations apart, or the same one, where no unions are made. -/
def Compatible (default other : Default) : Prop :=
  Apart default other.dest ∨
    (default.dest = other.dest ∧ default.unionFields = [] ∧ other.unionFields = [])

instance : DecidableRel Compatible := fun default other =>
  inferInstanceAs (Decidable (¬ default.dest.head? = other.dest.head? ∨
    (default.dest = other.dest ∧ default.unionFields = [] ∧ other.unionFields = [])))

theorem Compatible.symm {default other : Default} (h : Compatible default other) :
    Compatible other default := by
  rcases h with hapart | ⟨hdest, hfirst, hsecond⟩
  · exact .inl (Ne.symm hapart)
  · exact .inr ⟨hdest.symm, hsecond, hfirst⟩

section Together

variable {overlay} {offers : Default → Json} {defaults : List Default} {tool : Members}
  {default other : Default} {offered : Json}

theorem hasUnionLists_putDefault (hdest : default.dest ≠ [])
    (hcompatible : Compatible other default)
    {basis : Json} (h : HasUnionLists default basis tool) :
    HasUnionLists default basis (putDefault overlay other offered tool) := by
  intro lower upper hlower hupper
  rcases hcompatible with hapart | ⟨-, -, hunion⟩
  · rw [atPath_putDefault hdest hapart] at hupper
    exact h lower upper hlower hupper
  · rw [hunion]
    exact fun _ hfield => absurd hfield List.not_mem_nil

theorem takesUnions_putDefault (hdest : default.dest ≠ []) (hcompatible : Compatible other default)
    {basis : Json} (h : TakesUnions default basis tool) :
    TakesUnions default basis (putDefault overlay other offered tool) := by
  intro lower hlower hmissing hfree
  rcases hcompatible with hapart | ⟨-, -, hunion⟩
  · rw [atPath_putDefault hdest hapart] at hmissing
    exact h lower hlower hmissing ((isFree_putDefault hapart).mp hfree)
  · rw [hunion]
    exact fun _ hfield => absurd hfield List.not_mem_nil

/-- What is settled stays so. -/
theorem Settled.putDefault (hoverlay : DeepMerge overlay) (hdest : default.dest ≠ [])
    (hlength : default.dest.length ≤ 2) (hcompatible : Compatible other default) {basis : Json}
    (h : Settled default basis tool) :
    Settled default basis (putDefault overlay other offered tool) := by
  rcases hcompatible with hapart | ⟨hsame, -, hunion⟩
  · unfold Settled
    rw [isFree_putDefault hapart, atPath_putDefault hdest hapart]
    exact h
  · rcases h with hnone | hclosed | ⟨v, hv, hnull, habsorbs⟩
    · exact .inl hnone
    · refine .inr (.inl ?_)
      rw [← hsame] at hdest hlength hclosed ⊢
      rw [isFree_putDefault_dest hdest hlength]
      exact hclosed
    · refine .inr (.inr ?_)
      have hfree : IsFree other.dest tool := by
        rw [hsame]
        exact isFree_of_atPath hv
      rw [← hsame] at hdest hv ⊢
      rw [atPath_putDefault_dest hdest hfree, hv]
      by_cases hdicts : (∃ lower, offered = .obj lower) ∧ ∃ value, v = .obj value
      · -- another dictionary is laid under the value
        obtain ⟨⟨lower, rfl⟩, value, rfl⟩ := hdicts
        refine ⟨_, rfl, by simp, ?_⟩
        intro first merged hfirst hmerged
        obtain rfl := Json.obj.inj hmerged
        refine ⟨covers_foldl_setItems (Covers.overlay hoverlay (habsorbs first value hfirst rfl).1
          lower) _ _, ?_⟩
        rw [hunion]
        exact fun _ hfield => absurd hfield List.not_mem_nil
      · refine ⟨v, ?_, hnull, habsorbs⟩
        cases v with
        | null => exact absurd rfl hnull
        | obj value =>
            cases offered with
            | obj lower => exact absurd ⟨⟨lower, rfl⟩, value, rfl⟩ hdicts
            | _ => rfl
        | _ => cases offered <;> rfl

/-- Defaults of an agent, which are put without an error. -/
theorem foldlM_applyDefault {extractorGet : ExtractorGet} (hget : Extracts extractorGet)
    {config : Members} {isFrontMan : Bool} (hdests : ∀ default ∈ defaults, default.dest ≠ [])
    (hcompatible : defaults.Pairwise Compatible)
    (hlists : ∀ default ∈ defaults, HasUnionLists default (offer config isFrontMan default) tool) :
    defaults.foldlM (applyDefault extractorGet overlay (.obj config) isFrontMan) (.obj tool) =
      .ok (.obj (putDefaults overlay (offer config isFrontMan) defaults tool)) := by
  induction defaults generalizing tool with
  | nil => rfl
  | cons default rest ih =>
      rw [List.forall_mem_cons] at hdests hlists
      rw [List.pairwise_cons] at hcompatible
      rw [List.foldlM_cons, applyDefault_eq hget hdests.1 hlists.1]
      refine ih hdests.2 hcompatible.2 fun next hnext => ?_
      exact hasUnionLists_putDefault (hdests.2 next hnext) (hcompatible.1 next hnext)
        (hlists.2 next hnext)

/-- What is settled stays so through the other defaults. -/
theorem Settled.putDefaults (hoverlay : DeepMerge overlay) (hdest : default.dest ≠ [])
    (hlength : default.dest.length ≤ 2) {basis : Json} (h : Settled default basis tool)
    (hcompatible : ∀ other ∈ defaults, Compatible other default) :
    Settled default basis (putDefaults overlay offers defaults tool) := by
  induction defaults generalizing tool with
  | nil => exact h
  | cons other rest ih =>
      rw [List.forall_mem_cons] at hcompatible
      exact ih (h.putDefault hoverlay hdest hlength hcompatible.1) hcompatible.2

/-- **After all defaults each of them is settled.** -/
theorem settled_putDefaults (hoverlay : DeepMerge overlay)
    (hdests : ∀ default ∈ defaults, default.dest ≠ [] ∧ default.dest.length ≤ 2)
    (hcompatible : defaults.Pairwise Compatible)
    (hlists : ∀ default ∈ defaults, HasUnionLists default (offers default) tool)
    (hunions : ∀ default ∈ defaults, TakesUnions default (offers default) tool) :
    ∀ default ∈ defaults,
      Settled default (offers default) (putDefaults overlay offers defaults tool) := by
  induction defaults generalizing tool with
  | nil => exact fun _ hmem => absurd hmem List.not_mem_nil
  | cons default rest ih =>
      rw [List.forall_mem_cons] at hdests hlists hunions
      rw [List.pairwise_cons] at hcompatible
      obtain ⟨⟨hdest, hlength⟩, hrest⟩ := hdests
      rw [List.forall_mem_cons]
      constructor
      · have hput := settled_putDefault hoverlay hdest hlength hlists.1 hunions.1
        exact hput.putDefaults hoverlay hdest hlength fun other hother =>
          (hcompatible.1 other hother).symm
      · refine ih hrest hcompatible.2 (fun next hnext => ?_) fun next hnext => ?_
        · exact hasUnionLists_putDefault (hrest next hnext).1 (hcompatible.1 next hnext)
            (hlists.2 next hnext)
        · exact takesUnions_putDefault (hrest next hnext).1 (hcompatible.1 next hnext)
            (hunions.2 next hnext)

theorem Settled.hasUnionLists {basis : Json} (h : Settled default basis tool) :
    HasUnionLists default basis tool := by
  intro lower upper hlower hupper field hfield
  rcases h with rfl | hclosed | ⟨v, hv, -, habsorbs⟩
  · cases hlower
  · exact absurd (isFree_of_atPath hupper) hclosed
  · obtain rfl := Option.some.inj (hv.symm.trans hupper)
    obtain ⟨hbasis, items, hitems, hhashable, -⟩ := (habsorbs lower upper hlower rfl).2 field hfield
    exact ⟨hbasis, .inr ⟨items, hitems, hhashable⟩⟩

/-- **Defaults that are settled change nothing.** -/
theorem sameValue_putDefaults (hoverlay : DeepMerge overlay)
    (hdests : ∀ default ∈ defaults, default.dest ≠ [] ∧ default.dest.length ≤ 2)
    (hcompatible : defaults.Pairwise Compatible)
    (h : ∀ default ∈ defaults, Settled default (offers default) tool) :
    SameValue (.obj (putDefaults overlay offers defaults tool)) (.obj tool) := by
  induction defaults generalizing tool with
  | nil => exact fun _ => rfl
  | cons default rest ih =>
      rw [List.forall_mem_cons] at hdests h
      rw [List.pairwise_cons] at hcompatible
      obtain ⟨⟨hdest, hlength⟩, hrest⟩ := hdests
      have hfirst := sameValue_putDefault hoverlay hdest hlength h.1
      have hothers : SameValue (.obj (putDefaults overlay offers rest
          (DefaultsConfigFilter.putDefault overlay default (offers default) tool)))
            (.obj (DefaultsConfigFilter.putDefault overlay default (offers default) tool)) :=
        ih hrest hcompatible.2 fun next hnext => (h.2 next hnext).putDefault hoverlay
          (hrest next hnext).1 (hrest next hnext).2 (hcompatible.1 next hnext)
      exact fun path => (hothers path).trans (hfirst path)

end Together

/-! ## A configuration -/

theorem dest_of_mem_defaultsMapping : ∀ default ∈ defaultsMapping,
    default.dest ≠ [] ∧ default.dest.length ≤ 2 := by
  decide

theorem pairwise_defaultsMapping : defaultsMapping.Pairwise Compatible := by
  decide

theorem dest_or_apart : ∀ default ∈ defaultsMapping, ∀ other ∈ defaultsMapping,
    other.dest = default.dest ∨ ¬ other.dest.head? = default.dest.head? := by
  decide

theorem unionFields_eq : ∀ default ∈ defaultsMapping, ∀ other ∈ defaultsMapping,
    other.dest = default.dest → other.unionFields = default.unionFields := by
  decide

theorem source_of_mem_defaultsMapping : ∀ default ∈ defaultsMapping,
    default.sourceKey.splitOn 46 ≠ [] ∧
      ¬ (default.sourceKey.splitOn 46).head? = some (str "tools") := by
  decide

/-- What the filter makes of an agent. -/
structure Defaulted (config : Members) (isFrontMan : Bool) (tool newTool : Members) : Prop where
  kept : ∀ default ∈ defaultsMapping, ∀ v, (Json.obj tool).atPath default.dest = some v →
    v ≠ .null → (∀ members, v ≠ .obj members) → (Json.obj newTool).atPath default.dest = some v
  filled : ∀ default ∈ defaultsMapping,
    ((Json.obj tool).atPath default.dest).getD .null = .null → IsFree default.dest tool →
      (Json.obj newTool).atPath default.dest =
        takenOver overlay default.unionFields ((Json.obj tool).atPath default.dest)
          (offersTo (offer config isFrontMan) default.dest defaultsMapping)
  blocked : ∀ default ∈ defaultsMapping, ¬IsFree default.dest tool →
    (Json.obj tool).atPath default.dest = none ∧ (Json.obj newTool).atPath default.dest = none
  merged : ∀ default ∈ defaultsMapping, ∀ value,
    (Json.obj tool).atPath default.dest = some (.obj value) →
      (Json.obj newTool).atPath default.dest =
        some (.obj (laidUnder overlay default.unionFields value
          (dictsOf (offersTo (offer config isFrontMan) default.dest defaultsMapping))))
  others : SameApart (defaultsMapping.map Default.dest) tool newTool

/-- The agents with the defaults of a configuration; the first of them is the front man. -/
def defaultedAgents (config : Members) (agents : List Members) : List Members :=
  agents.zipIdx.map fun agent =>
    putDefaults overlay (offer config (agent.2 == 0)) defaultsMapping agent.1

section Configurations

variable {overlay} {extractorGet : ExtractorGet} {config newConfig : Members}
  {agents : List Members}

/-- All defaults of an agent. -/
theorem defaulted_putDefaults (config : Members) (isFrontMan : Bool) (tool : Members) :
    Defaulted overlay config isFrontMan tool
      (putDefaults overlay (offer config isFrontMan) defaultsMapping tool) := by
  have hvalue : ∀ default ∈ defaultsMapping, IsFree default.dest tool →
      (Json.obj (putDefaults overlay (offer config isFrontMan) defaultsMapping tool)).atPath
          default.dest =
        (defaultsMapping.filter fun other => other.dest = default.dest).foldl
          (fun old other => laid overlay other.unionFields old (offer config isFrontMan other))
          ((Json.obj tool).atPath default.dest) := fun default hmem hfree =>
    atPath_putDefaults (dest_of_mem_defaultsMapping default hmem) hfree
      (dest_or_apart default hmem)
  have hunion : ∀ default ∈ defaultsMapping,
      ∀ other ∈ defaultsMapping.filter fun other => other.dest = default.dest,
        other.unionFields = default.unionFields := by
    intro default hmem other hother
    obtain ⟨hother, hdest⟩ := List.mem_filter.mp hother
    exact unionFields_eq default hmem other hother (of_decide_eq_true hdest)
  refine ⟨?_, ?_, ?_, ?_, sameApart_putDefaults⟩
  · intro default hmem v hv hnull hscalar
    rw [hvalue default hmem (isFree_of_atPath hv), hv]
    exact foldl_laid_of_scalar hnull hscalar _
  · intro default hmem hmissing hfree
    rw [hvalue default hmem hfree]
    exact foldl_laid_of_missing (hunion default hmem) hmissing
  · intro default hmem hclosed
    refine ⟨atPath_of_not_isFree hclosed, atPath_of_not_isFree ?_⟩
    rw [isFree_putDefaults (dest_of_mem_defaultsMapping default hmem) (dest_or_apart default hmem)]
    exact hclosed
  · intro default hmem value hv
    rw [hvalue default hmem (isFree_of_atPath hv), hv]
    exact foldl_laid_of_dict (hunion default hmem) value

theorem getElem?_defaultedAgents (config : Members) (agents : List Members) (index : Nat) :
    (defaultedAgents overlay config agents)[index]? = agents[index]?.map fun agent =>
      putDefaults overlay (offer config (index == 0)) defaultsMapping agent := by
  unfold defaultedAgents
  rw [List.getElem?_map, List.getElem?_zipIdx, Nat.zero_add]
  cases agents[index]? with
  | none => rfl
  | some agent => rfl

/-- Agents in which every default is settled. -/
theorem sameValue_defaultedAgents (hoverlay : DeepMerge overlay)
    (h : ∀ index agent, agents[index]? = some agent → ∀ default ∈ defaultsMapping,
      Settled default (offer config (index == 0) default) agent) :
    List.Forall₂ (fun twice once => SameValue (.obj twice) (.obj once))
      (defaultedAgents overlay config agents) agents := by
  unfold defaultedAgents
  have hsame : List.Forall₂ (fun twice once => SameValue (.obj twice) (.obj once))
      (agents.zipIdx.map fun agent =>
        putDefaults overlay (offer config (agent.2 == 0)) defaultsMapping agent.1)
      (agents.zipIdx.map Prod.fst) := by
    rw [List.forall₂_map_left_iff, List.forall₂_map_right_iff, List.forall₂_same]
    intro agent hagent
    exact sameValue_putDefaults hoverlay dest_of_mem_defaultsMapping pairwise_defaultsMapping
      (h agent.2 agent.1 (List.mem_zipIdx_iff_getElem?.mp hagent))
  rwa [List.zipIdx_map_fst] at hsame

/-- The filter returns where all unions can be made. -/
theorem exists_filterConfig (overlay : Overlay) (hget : Extracts extractorGet)
    (htools : lookup config (str "tools") = some (.arr (agents.map .obj)))
    (hlists : ∀ index agent, agents[index]? = some agent → ∀ default ∈ defaultsMapping,
      HasUnionLists default (offer config (index == 0) default) agent) :
    ∃ newConfig, filterConfig extractorGet overlay (.obj config) = .ok (.obj newConfig) ∧
      lookup newConfig (str "tools") =
        some (.arr ((defaultedAgents overlay config agents).map .obj)) ∧
      ∀ key, key ≠ str "tools" → lookup newConfig key = lookup config key := by
  unfold filterConfig
  rw [changeTools_eq htools]
  by_cases hnil : agents = []
  · subst hnil
    exact ⟨config, rfl, htools, fun _ _ => rfl⟩
  · have happly : applyDefaults extractorGet overlay (.obj config) (agents.map .obj) =
        .ok ((defaultedAgents overlay config agents).map .obj) := by
      unfold applyDefaults defaultedAgents
      rw [List.zipIdx_map, List.mapM_map, List.map_map]
      refine mapM_eq_ok_map fun agent hagent => ?_
      have hindex : agents[agent.2]? = some agent.1 := List.mem_zipIdx_iff_getElem?.mp hagent
      exact foldlM_applyDefault hget
        (fun default hmem => (dest_of_mem_defaultsMapping default hmem).1)
        pairwise_defaultsMapping (hlists agent.2 agent.1 hindex)
    rw [if_neg hnil, happly]
    refine ⟨_, rfl, (lookup_setItems _ _ _ _).trans (if_pos rfl), fun key hkey => ?_⟩
    exact (lookup_setItems _ _ _ _).trans (if_neg hkey)

/-- The defaults are not changed. -/
theorem offer_congr (h : ∀ key, key ≠ str "tools" → lookup newConfig key = lookup config key)
    (isFrontMan : Bool) : ∀ default ∈ defaultsMapping,
      offer newConfig isFrontMan default = offer config isFrontMan default := by
  intro default hmem
  obtain ⟨hpath, hhead⟩ := source_of_mem_defaultsMapping default hmem
  unfold offer topValue
  cases hsource : default.sourceKey.splitOn 46 with
  | nil => exact absurd hsource hpath
  | cons first rest =>
      rw [hsource] at hhead
      rw [atPath_obj, atPath_obj, h first fun heq => hhead (congrArg some heq)]

/-- **Defaults.** They go to where an agent has nothing, or are laid under its dictionaries, and
nothing else changes; a second time they change nothing. -/
theorem filterConfig_defaulted (config : Members) (agents : List Members)
    (hget : Extracts extractorGet) (hoverlay : DeepMerge overlay)
    (htools : lookup config (str "tools") = some (.arr (agents.map .obj)))
    (hlists : ∀ index agent, agents[index]? = some agent → ∀ default ∈ defaultsMapping,
      HasUnionLists default (offer config (index == 0) default) agent) :
    ∃ newConfig newAgents, filterConfig extractorGet overlay (.obj config) = .ok (.obj newConfig) ∧
      lookup newConfig (str "tools") = some (.arr (newAgents.map .obj)) ∧
      (∀ key, key ≠ str "tools" → lookup newConfig key = lookup config key) ∧
      newAgents.length = agents.length ∧
      (∀ index agent newAgent, agents[index]? = some agent → newAgents[index]? = some newAgent →
        Defaulted overlay config (index == 0) agent newAgent) ∧
      ((∀ index agent, agents[index]? = some agent → ∀ default ∈ defaultsMapping,
          TakesUnions default (offer config (index == 0) default) agent) →
        ∃ twiceConfig twiceAgents,
          filterConfig extractorGet overlay (.obj newConfig) = .ok (.obj twiceConfig) ∧
          lookup twiceConfig (str "tools") = some (.arr (twiceAgents.map .obj)) ∧
          (∀ key, key ≠ str "tools" → lookup twiceConfig key = lookup newConfig key) ∧
          List.Forall₂ (fun twice once => SameValue (.obj twice) (.obj once)) twiceAgents
            newAgents) := by
  obtain ⟨newConfig, hnew, hnewTools, hothers⟩ := exists_filterConfig overlay hget htools hlists
  refine ⟨newConfig, _, hnew, hnewTools, hothers, ?_, ?_, ?_⟩
  · unfold defaultedAgents
    rw [List.length_map, List.length_zipIdx]
  · intro index agent newAgent hagent hnewAgent
    rw [getElem?_defaultedAgents, hagent] at hnewAgent
    obtain rfl := Option.some.inj hnewAgent
    exact defaulted_putDefaults config _ agent
  · intro hunions
    -- after the first time every default is settled
    have hsettled : ∀ index newAgent,
        (defaultedAgents overlay config agents)[index]? = some newAgent →
        ∀ default ∈ defaultsMapping,
          Settled default (offer newConfig (index == 0) default) newAgent := by
      intro index newAgent hnewAgent default hmem
      rw [getElem?_defaultedAgents] at hnewAgent
      obtain ⟨agent, hagent, rfl⟩ := Option.map_eq_some_iff.mp hnewAgent
      rw [offer_congr hothers _ default hmem]
      exact settled_putDefaults hoverlay dest_of_mem_defaultsMapping pairwise_defaultsMapping
        (hlists index agent hagent) (hunions index agent hagent) default hmem
    obtain ⟨twiceConfig, htwice, htwiceTools, htwiceOthers⟩ := exists_filterConfig overlay hget
      hnewTools fun index newAgent hnewAgent default hmem =>
        (hsettled index newAgent hnewAgent default hmem).hasUnionLists
    exact ⟨twiceConfig, _, htwice, htwiceTools, htwiceOthers,
      sameValue_defaultedAgents hoverlay hsettled⟩

/-- Unions are made of one field of one default, for the front man. -/
theorem of_mem_unionFields : ∀ default ∈ defaultsMapping, ∀ field ∈ default.unionFields,
    field = str "required" ∧ default.sourceKey = str "sly_data_schema" ∧
      default.frontManOnly = true ∧ default.dest = [str "function", str "sly_data_schema"] := by
  decide

/-- A schema that requires some keys. -/
def schemaOf (required : List String) : Members :=
  [(str "type", .str (str "object")),
    (str "required", .arr (required.map fun key => .str (str key)))]

def frontMan : Members :=
  [(str "name", .str (str "front")),
    (str "function", .obj [(str "sly_data_schema", .obj (schemaOf ["token", "user"]))])]

def helper : Members := [(str "name", .str (str "helper")), (str "max_steps", .int 3)]

def fullConfig : Members :=
  [(str "max_steps", .int 10), (str "sly_data_schema", .obj (schemaOf ["key", "token"])),
    (str "tools", .arr ([frontMan, helper].map .obj))]

theorem extracts_dictionaryGet : Extracts dictionaryGet := fun _ _ => rfl

theorem isUnionList_schemaOf (required : List String) :
    IsUnionList (schemaOf required) (str "required") := by
  refine .inr ⟨_, rfl, fun item hitem => ?_⟩
  obtain ⟨key, -, rfl⟩ := List.mem_map.mp hitem
  exact ⟨_, rfl⟩

theorem filterConfig_defaulted_fullConfig :
    ∃ (newConfig : Members) (newAgents : List Members),
      filterConfig dictionaryGet deepOverlay (.obj fullConfig) = .ok (.obj newConfig) ∧
      lookup newConfig (str "tools") = some (.arr (newAgents.map .obj)) ∧
      (∀ newAgent, newAgents[0]? = some newAgent →
        Defaulted deepOverlay fullConfig true frontMan newAgent) ∧
      (∀ newAgent, newAgents[1]? = some newAgent →
        Defaulted deepOverlay fullConfig false helper newAgent) ∧
      ∃ twiceConfig, filterConfig dictionaryGet deepOverlay (.obj newConfig) =
        .ok (.obj twiceConfig) := by
  have hfront : ∀ index agent, [frontMan, helper][index]? = some agent →
      ∀ default ∈ defaultsMapping, ∀ field ∈ default.unionFields, ∀ basis,
        offer fullConfig (index == 0) default = .obj basis → agent = frontMan ∧
          basis = schemaOf ["key", "token"] := by
    intro index agent hagent default hmem field hfield basis hbasis
    obtain ⟨-, hsource, hfrontOnly, -⟩ := of_mem_unionFields default hmem field hfield
    unfold offer at hbasis
    rw [hsource, hfrontOnly] at hbasis
    cases index with
    | zero =>
        refine ⟨(Option.some.inj hagent).symm, (Json.obj.inj hbasis).symm⟩
    | succ index => cases hbasis
  obtain ⟨newConfig, newAgents, hnew, htools, -, -, hdefaulted, htwice⟩ :=
    filterConfig_defaulted fullConfig [frontMan, helper] extracts_dictionaryGet
      deepMerge_deepOverlay rfl (by
        intro index agent hagent default hmem basis value hbasis hvalue field hfield
        obtain ⟨rfl, rfl⟩ := hfront index agent hagent default hmem field hfield basis hbasis
        obtain ⟨rfl, -, -, hdest⟩ := of_mem_unionFields default hmem field hfield
        rw [hdest] at hvalue
        obtain rfl := Json.obj.inj (Option.some.inj hvalue)
        exact ⟨isUnionList_schemaOf _, isUnionList_schemaOf _⟩)
  obtain ⟨twiceConfig, -, htwice, -⟩ := htwice (by
    intro index agent hagent default hmem basis hbasis hmissing hfree field hfield
    obtain ⟨rfl, rfl⟩ := hfront index agent hagent default hmem field hfield basis hbasis
    obtain ⟨-, -, -, hdest⟩ := of_mem_unionFields default hmem field hfield
    rw [hdest] at hmissing
    cases hmissing)
  exact ⟨newConfig, newAgents, hnew, htools, fun newAgent => hdefaulted 0 frontMan newAgent rfl,
    fun newAgent => hdefaulted 1 helper newAgent rfl, twiceConfig, htwice⟩

/-- A configuration of one agent. -/
def configOf (top front : Members) : Members := top ++ [(str "tools", .arr [.obj front])]

/-- What the first agent of a configuration has at a path. -/
def frontValue (config : Json) (path : List PyStr) : Option Json :=
  match config.atPath [str "tools"] with
  | some (.arr (front :: _)) => front.atPath path
  | _ => none

def typeOnly : Members := [(str "type", .str (str "object"))]

def blockedConfig : Members :=
  configOf [(str "sly_data_schema", .obj typeOnly)] [(str "function", .str (str "spec"))]

def bareConfig : Members := configOf [(str "sly_data_schema", .obj typeOnly)] []

def doubleConfig : Members :=
  configOf [(str "llm_config", .obj [(str "verbose", .obj [(str "level", .int 1)])]),
    (str "verbose", .obj [(str "other", .int 2)])] []

def nestedConfig : Members :=
  configOf [(str "sly_data_schema", .obj [(str "required", .arr [.arr []])])]
    [(str "function", .obj [(str "sly_data_schema", .obj typeOnly)])]

/-- There is no union of lists of lists; a front man whose function is a text gets no schema; of
two dictionaries for one key both are taken; and a schema without required keys gets an empty list
of them the second time. -/
theorem defaults_astray :
    (¬ ∀ (config : Members) (agents : List Members),
      lookup config (str "tools") = some (.arr (agents.map .obj)) →
        ∃ once, filterConfig dictionaryGet deepOverlay (.obj config) = .ok once) ∧
    (¬ ∀ (config agent : Members) (others : List Members) (once value : Json) (later : List Json),
      ∀ default ∈ defaultsMapping,
        lookup config (str "tools") = some (.arr ((agent :: others).map .obj)) →
        (Json.obj agent).atPath default.dest = none →
        offersTo (offer config true) default.dest defaultsMapping = value :: later →
        filterConfig dictionaryGet deepOverlay (.obj config) = .ok once →
          frontValue once default.dest = some value) ∧
    (¬ ∀ (config agent : Members) (others : List Members) (once value : Json) (later : List Json),
      ∀ default ∈ defaultsMapping, IsFree default.dest agent →
        lookup config (str "tools") = some (.arr ((agent :: others).map .obj)) →
        (Json.obj agent).atPath default.dest = none →
        offersTo (offer config true) default.dest defaultsMapping = value :: later →
        filterConfig dictionaryGet deepOverlay (.obj config) = .ok once →
          frontValue once default.dest = some value) ∧
    ¬ ∀ (config : Members) (agents : List Members) (once twice : Json),
      lookup config (str "tools") = some (.arr (agents.map .obj)) →
      filterConfig dictionaryGet deepOverlay (.obj config) = .ok once →
      filterConfig dictionaryGet deepOverlay once = .ok twice →
        ∀ path, frontValue twice path = frontValue once path := by
  refine ⟨fun h => ?_, fun h => ?_, fun h => ?_, fun h => ?_⟩
  · obtain ⟨once, honce⟩ := h nestedConfig [_] rfl
    have hraises : filterConfig dictionaryGet deepOverlay (.obj nestedConfig) =
        .error .typeError := rfl
    rw [hraises] at honce
    cases honce
  · have hmissing : none = some (Json.obj typeOnly) :=
      h blockedConfig [(str "function", .str (str "spec"))] [] _ (.obj typeOnly) []
        ⟨str "sly_data_schema", str "function.sly_data_schema", true, [str "required"]⟩
        (by simp [defaultsMapping]) rfl rfl rfl rfl
    cases hmissing
  · have hmerged := h doubleConfig [] [] _ (.obj [(str "level", .int 1)])
      [.obj [(str "other", .int 2)]] (plain "verbose") (by simp [defaultsMapping]) trivial rfl rfl
      rfl rfl
    cases hmerged
  · have hsame := h bareConfig [[]] _ _ rfl rfl rfl
      [str "function", str "sly_data_schema", str "required"]
    cases hsame

end Configurations

end DefaultsConfigFilter

end NoraFleet.Networks
