import Mathlib
import NoraFleet.Networks.ConfigTexts
import NoraFleet.Networks.DefaultedConfigs

/-!
# Texts of defaults

Which texts of a default go into an agent: those for which the agent has no place taken. What the
agent has of its own is left.

* `mem_stringsOfMembers_putDefaults` — no other texts go into an agent;
* `valueAt_putDefaults_of_some` — what an agent has stays;
* `exists_leaf_of_enters` — what goes into an agent is found there.
-/

namespace NoraFleet.Networks

open Base Json

namespace DefaultsConfigFilter

variable {overlay : Overlay}

/-- A text of what is offered goes into an agent: the agent has nothing at the destination, or a
dictionary that says nothing of the place of the text. Where a union is made, all texts go in. -/
def Enters (default : Default) (offered : Json) (agent : Members) (text : PyStr) : Prop :=
  IsFree default.dest agent ∧ ∃ path leaf, offered.valueAt path = some leaf ∧
    text ∈ stringsOf leaf ∧
    (((Json.obj agent).atPath default.dest).getD .null = .null ∨
      ∃ value, (Json.obj agent).atPath default.dest = some (.obj value) ∧
        ((Json.obj value).speaks path = none ∨ ∃ field ∈ default.unionFields, path = [field]))

/-! ## Merged dictionaries -/

section Merged

variable {basis value : Members}

theorem distinct_mergeOf (hkeeps : KeepsDistinct overlay) (hbasis : Distinct (.obj basis))
    (hvalue : Distinct (.obj value)) (unionFields : List PyStr) :
    Distinct (.obj (mergeOf overlay unionFields basis value)) := by
  have hitems : ∀ {members : Members}, Distinct (.obj members) → ∀ (field : PyStr),
      ∀ item ∈ itemsUnder members field, Distinct item := by
    intro members hmembers field item hitem
    unfold itemsUnder at hitem
    split at hitem
    · rename_i items hlookup
      exact distinct_arr.mp (hmembers.lookup hlookup) item hitem
    · exact absurd hitem List.not_mem_nil
  unfold mergeOf
  induction unionFields using List.reverseRecOn with
  | nil => exact hkeeps basis value hbasis hvalue
  | append_singleton fields field ih =>
      rw [List.foldl_append, List.foldl_cons, List.foldl_nil]
      refine distinct_setItems ih field (distinct_arr.mpr fun item hitem => ?_)
      rcases List.mem_append.mp (onceEach_subset _ hitem) with hfirst | hlast
      · exact hitems hbasis field item hfirst
      · exact hitems hvalue field item hlast

/-- The texts of an entry of a list are found where the list is. -/
theorem mem_stringsOf_of_itemsUnder {members : Members} {field text : PyStr} {item : Json}
    (hitem : item ∈ itemsUnder members field) (htext : text ∈ stringsOf item) :
    ∃ leaf, (Json.obj members).valueAt [field] = some leaf ∧ text ∈ stringsOf leaf := by
  unfold itemsUnder at hitem
  split at hitem
  · rename_i items hlookup
    refine ⟨.arr items, ?_, mem_stringsOfItems.mpr ⟨item, hitem, htext⟩⟩
    rw [valueAt_obj, hlookup]
    rfl
  · exact absurd hitem List.not_mem_nil

/-- The texts of a merge are texts of the upper dictionary, or it has nothing in their place, or a
union is made there. -/
theorem mem_stringsOfMembers_mergeOf (hoverlay : DeepMerge overlay) (hkeeps : KeepsDistinct overlay)
    (hbasis : Distinct (.obj basis)) (hvalue : Distinct (.obj value)) {unionFields : List PyStr}
    {text : PyStr} (h : text ∈ stringsOfMembers (mergeOf overlay unionFields basis value)) :
    text ∈ stringsOfMembers value ∨ ∃ path leaf, (Json.obj basis).valueAt path = some leaf ∧
      text ∈ stringsOf leaf ∧
      ((Json.obj value).speaks path = none ∨ ∃ field ∈ unionFields, path = [field]) := by
  unfold mergeOf at h
  induction unionFields using List.reverseRecOn with
  | nil =>
      rw [List.foldl_nil] at h
      obtain ⟨path, leaf, hleaf, htext⟩ := exists_leaf _ (hkeeps basis value hbasis hvalue) h
      have hpath : path ≠ [] := by
        rintro rfl
        obtain rfl := Option.some.inj hleaf
        exact List.not_mem_nil htext
      have hmerged := valueAt_overlay hoverlay basis value hpath
      rw [show (Json.obj (overlay basis value)).valueAt path = some leaf from hleaf] at hmerged
      cases hspeaks : (Json.obj value).speaks path with
      | some said =>
          rw [hspeaks, Option.some_or, Option.getD_some] at hmerged
          have hupper : (Json.obj value).valueAt path = some leaf := by
            rw [valueAt_eq, hspeaks, hmerged]
            rfl
          exact .inl (mem_stringsOf_of_atPath (atPath_of_leaf hupper htext) htext)
      | none =>
          rw [hspeaks, Option.none_or, ← valueAt_eq] at hmerged
          exact .inr ⟨path, leaf, hmerged.symm, htext, .inl hspeaks⟩
  | append_singleton fields field ih =>
      rw [List.foldl_append, List.foldl_cons, List.foldl_nil] at h
      rcases mem_stringsOfMembers_setItems h with hunion | hbefore
      · obtain ⟨item, hitem, htext⟩ := mem_stringsOfItems.mp hunion
        rcases List.mem_append.mp (onceEach_subset _ hitem) with hfirst | hlast
        · obtain ⟨leaf, hleaf, htext⟩ := mem_stringsOf_of_itemsUnder hfirst htext
          exact .inr ⟨[field], leaf, hleaf, htext, .inr ⟨field, by simp, rfl⟩⟩
        · obtain ⟨leaf, hleaf, htext⟩ := mem_stringsOf_of_itemsUnder hlast htext
          exact .inl (mem_stringsOf_of_atPath (atPath_of_leaf hleaf htext) htext)
      · rcases ih hbefore with hupper | ⟨path, leaf, hleaf, htext, hplace⟩
        · exact .inl hupper
        · refine .inr ⟨path, leaf, hleaf, htext, hplace.imp_right ?_⟩
          rintro ⟨other, hother, rfl⟩
          exact ⟨other, List.mem_append_left _ hother, rfl⟩

end Merged

/-! ## Texts that go into an agent -/

section Entering

variable {default other : Default} {offered : Json} {agent : Members} {offers : Default → Json}
  {defaults : List Default} {text : PyStr}

/-- An agent is left, takes over what is offered, or has it laid under a dictionary. -/
theorem putDefault_parts (overlay : Overlay) (default : Default) (offered : Json)
    (agent : Members) :
    putDefault overlay default offered agent = agent ∨
      (((Json.obj agent).atPath default.dest).getD .null = .null ∧
        putDefault overlay default offered agent = setAt offered default.dest agent) ∨
      ∃ basis value, offered = .obj basis ∧
        (Json.obj agent).atPath default.dest = some (.obj value) ∧
        putDefault overlay default offered agent =
          setAt (.obj (mergeOf overlay default.unionFields basis value)) default.dest agent := by
  by_cases hoffered : offered = .null
  · rw [hoffered]
    exact .inl rfl
  by_cases hmissing : ((Json.obj agent).atPath default.dest).getD .null = .null
  · exact .inr (.inl ⟨hmissing, putDefault_of_missing hoffered hmissing⟩)
  cases hold : (Json.obj agent).atPath default.dest with
  | none =>
      rw [hold] at hmissing
      exact absurd rfl hmissing
  | some v =>
      rw [hold, Option.getD_some] at hmissing
      by_cases hvalue : ∃ value, v = .obj value
      · obtain ⟨value, rfl⟩ := hvalue
        by_cases hbasis : ∃ basis, offered = .obj basis
        · obtain ⟨basis, rfl⟩ := hbasis
          exact .inr (.inr ⟨basis, value, rfl, rfl, putDefault_merge hold⟩)
        · exact .inl (putDefault_of_dict hold fun basis heq => hbasis ⟨basis, heq⟩)
      · exact .inl (putDefault_of_scalar hold hmissing fun value heq => hvalue ⟨value, heq⟩)

theorem distinct_putDefault (hkeeps : KeepsDistinct overlay) (hoffered : Distinct offered)
    (hagent : Distinct (.obj agent)) :
    Distinct (.obj (putDefault overlay default offered agent)) := by
  rcases putDefault_parts overlay default offered agent with
    heq | ⟨-, heq⟩ | ⟨basis, value, rfl, hvalue, heq⟩
  · rwa [heq]
  · rw [heq]
    exact distinct_setAt hoffered _ hagent
  · rw [heq]
    exact distinct_setAt (distinct_mergeOf hkeeps hoffered (hagent.atPath hvalue) _) _ hagent

/-- **The texts of an agent with a default.** -/
theorem mem_stringsOfMembers_putDefault (hoverlay : DeepMerge overlay)
    (hkeeps : KeepsDistinct overlay) (hlength : default.dest.length ≤ 2)
    (hoffered : Distinct offered) (hagent : Distinct (.obj agent))
    (h : text ∈ stringsOfMembers (putDefault overlay default offered agent)) :
    text ∈ stringsOfMembers agent ∨ Enters default offered agent text := by
  by_cases hfree : IsFree default.dest agent
  · rcases putDefault_parts overlay default offered agent with
      heq | ⟨hmissing, heq⟩ | ⟨basis, value, rfl, hvalue, heq⟩
    · rw [heq] at h
      exact .inl h
    · rw [heq] at h
      rcases mem_stringsOfMembers_setAt h with hnew | hold
      · obtain ⟨path, leaf, hleaf, htext⟩ := exists_leaf offered hoffered hnew
        exact .inr ⟨hfree, path, leaf, hleaf, htext, .inl hmissing⟩
      · exact .inl hold
    · rw [heq] at h
      rcases mem_stringsOfMembers_setAt h with hnew | hold
      · rcases mem_stringsOfMembers_mergeOf hoverlay hkeeps hoffered (hagent.atPath hvalue) hnew
          with hupper | ⟨path, leaf, hleaf, htext, hplace⟩
        · exact .inl (mem_stringsOf_of_atPath hvalue hupper)
        · exact .inr ⟨hfree, path, leaf, hleaf, htext, .inr ⟨value, hvalue, hplace⟩⟩
      · exact .inl hold
  · rw [putDefault_of_not_isFree hlength hfree] at h
    exact .inl h

/-- What goes into an agent with another default goes into the agent. -/
theorem Enters.of_putDefault (hoverlay : DeepMerge overlay) (hdest : default.dest ≠ [])
    (hlength : default.dest.length ≤ 2) (hcompatible : Compatible other default) {basis : Json}
    (h : Enters default basis (putDefault overlay other offered agent) text) :
    Enters default basis agent text := by
  rcases hcompatible with hapart | ⟨hsame, hfirst, hunion⟩
  · unfold Enters at h
    rwa [isFree_putDefault hapart, atPath_putDefault hdest hapart] at h
  · obtain ⟨hfree, path, leaf, hleaf, htext, hplace⟩ := h
    rw [← hsame] at hdest hlength hfree hplace
    rw [isFree_putDefault_dest hdest hlength] at hfree
    refine ⟨hsame ▸ hfree, path, leaf, hleaf, htext, ?_⟩
    rw [← hsame]
    rcases putDefault_parts overlay other offered agent with
      heq | ⟨hmissing, -⟩ | ⟨lower, value, rfl, hvalue, heq⟩
    · rw [heq, hunion] at hplace
      rwa [hunion]
    · exact .inl hmissing
    · rw [heq, atPath_setAt _ hdest hfree] at hplace
      rcases hplace with hnull | ⟨merged, hmerged, hspeaks | ⟨field, hfield, -⟩⟩
      · cases hnull
      · -- what was merged says nothing, and so the value said nothing
        obtain rfl := Json.obj.inj (Option.some.inj hmerged)
        have hpath : path ≠ [] := by
          rintro rfl
          cases hspeaks
        rw [hfirst] at hspeaks
        exact .inr ⟨value, hvalue, .inl (speaks_of_overlay hoverlay hpath hspeaks)⟩
      · rw [hunion] at hfield
        exact absurd hfield List.not_mem_nil

/-- **The texts of an agent with all defaults** are its own, or go into it. -/
theorem mem_stringsOfMembers_putDefaults (hoverlay : DeepMerge overlay)
    (hkeeps : KeepsDistinct overlay)
    (hdests : ∀ default ∈ defaults, default.dest ≠ [] ∧ default.dest.length ≤ 2)
    (hcompatible : defaults.Pairwise Compatible)
    (hoffers : ∀ default ∈ defaults, Distinct (offers default)) (hagent : Distinct (.obj agent))
    (h : text ∈ stringsOfMembers (putDefaults overlay offers defaults agent)) :
    text ∈ stringsOfMembers agent ∨
      ∃ default ∈ defaults, Enters default (offers default) agent text := by
  induction defaults generalizing agent with
  | nil => exact .inl h
  | cons first rest ih =>
      rw [List.forall_mem_cons] at hdests hoffers
      rw [List.pairwise_cons] at hcompatible
      rcases ih hdests.2 hcompatible.2 hoffers.2 (distinct_putDefault hkeeps hoffers.1 hagent) h
        with hold | ⟨default, hmem, henters⟩
      · rcases mem_stringsOfMembers_putDefault hoverlay hkeeps hdests.1.2 hoffers.1 hagent hold
          with hagent | henters
        · exact .inl hagent
        · exact .inr ⟨first, List.mem_cons_self, henters⟩
      · obtain ⟨hdest, hlength⟩ := hdests.2 default hmem
        exact .inr ⟨default, List.mem_cons_of_mem _ hmem,
          henters.of_putDefault hoverlay hdest hlength (hcompatible.1 default hmem)⟩

end Entering

/-! ## What stays and what is found -/

section Found

variable {default : Default} {offered : Json} {agent : Members} {offers : Default → Json}
  {defaults : List Default}

/-- No unions are made of what is offered. -/
def MakesNoUnion (default : Default) (offered : Json) : Prop :=
  offered = .null ∨ default.unionFields = []

/-- **What an agent has stays.** -/
theorem valueAt_putDefault_of_some (hoverlay : DeepMerge overlay) (hdest : default.dest ≠ [])
    (hlength : default.dest.length ≤ 2) (hunion : MakesNoUnion default offered)
    {path : List PyStr} {x : Json} (hx : (Json.obj agent).valueAt path = some x)
    (hnull : x ≠ .null) :
    (Json.obj (putDefault overlay default offered agent)).valueAt path = some x := by
  by_cases hfree : IsFree default.dest agent
  · by_cases hbelow : default.dest <+: path
    · obtain ⟨rest, rfl⟩ := hbelow
      rw [valueAt_append] at hx
      obtain ⟨old, hold, hrest⟩ := Option.bind_eq_some_iff.mp hx
      rcases putDefault_parts overlay default offered agent with
        heq | ⟨hmissing, -⟩ | ⟨basis, value, rfl, hvalue, heq⟩
      · rw [heq, valueAt_append, hold]
        exact hrest
      · -- below nothing there is nothing
        rw [hold, Option.getD_some] at hmissing
        subst hmissing
        cases rest with
        | nil => exact absurd (Option.some.inj hrest).symm hnull
        | cons key rest => cases hrest
      · obtain rfl := Option.some.inj (hold.symm.trans hvalue)
        rw [heq, valueAt_append, atPath_setAt _ hdest hfree]
        rcases hunion with hnone | hunion
        · cases hnone
        · rw [hunion]
          show (Json.obj (overlay basis value)).valueAt rest = some x
          by_cases hrest' : rest = []
          · subst hrest'
            exact hrest
          · rw [valueAt_overlay hoverlay basis value hrest', valueAt_eq_some_iff.mp hrest]
            rfl
    · rcases putDefault_cases overlay default offered agent with heq | ⟨v, heq⟩
      · rwa [heq]
      · rw [heq]
        rcases valueAt_setAt v agent hbelow with hsame | ⟨-, hnone | hnone, -⟩
        · exact hsame.trans hx
        · rw [hnone] at hx
          cases hx
        · rw [hnone] at hx
          exact absurd (Option.some.inj hx).symm hnull
  · rwa [putDefault_of_not_isFree hlength hfree]

theorem valueAt_putDefaults_of_some (hoverlay : DeepMerge overlay)
    (hdests : ∀ default ∈ defaults, default.dest ≠ [] ∧ default.dest.length ≤ 2)
    (hunions : ∀ default ∈ defaults, MakesNoUnion default (offers default))
    {path : List PyStr} {x : Json} (hx : (Json.obj agent).valueAt path = some x)
    (hnull : x ≠ .null) :
    (Json.obj (putDefaults overlay offers defaults agent)).valueAt path = some x := by
  induction defaults generalizing agent with
  | nil => exact hx
  | cons first rest ih =>
      rw [List.forall_mem_cons] at hdests hunions
      exact ih hdests.2 hunions.2
        (valueAt_putDefault_of_some hoverlay hdests.1.1 hdests.1.2 hunions.1 hx hnull)

/-- A text that goes into an agent is found there. -/
theorem exists_leaf_putDefault (hoverlay : DeepMerge overlay) (hdest : default.dest ≠ [])
    (hunion : MakesNoUnion default offered) {text : PyStr} (h : Enters default offered agent text) :
    ∃ path leaf, (Json.obj (putDefault overlay default offered agent)).valueAt path = some leaf ∧
      text ∈ stringsOf leaf := by
  obtain ⟨hfree, path, leaf, hleaf, htext, hplace⟩ := h
  refine ⟨default.dest ++ path, leaf, ?_, htext⟩
  rw [valueAt_append]
  have hoffered : offered ≠ .null := by
    rintro rfl
    cases path with
    | nil =>
        obtain rfl := Option.some.inj hleaf
        exact List.not_mem_nil htext
    | cons key rest => cases hleaf
  rcases hplace with hmissing | ⟨value, hvalue, hspeaks | ⟨field, hfield, -⟩⟩
  · rw [putDefault_of_missing hoffered hmissing, atPath_setAt _ hdest hfree]
    exact hleaf
  · have hpath : path ≠ [] := by
      rintro rfl
      cases hspeaks
    obtain ⟨basis, rfl⟩ : ∃ basis, offered = .obj basis := by
      obtain ⟨key, rest, rfl⟩ := List.exists_cons_of_ne_nil hpath
      cases offered with
      | obj basis => exact ⟨basis, rfl⟩
      | _ => cases hleaf
    rw [putDefault_merge hvalue, atPath_setAt _ hdest hfree,
      hunion.resolve_left hoffered]
    show (Json.obj (overlay basis value)).valueAt path = some leaf
    rw [valueAt_overlay hoverlay basis value hpath, hspeaks, Option.none_or, ← valueAt_eq]
    exact hleaf
  · rw [hunion.resolve_left hoffered] at hfield
    exact absurd hfield List.not_mem_nil

/-- **What goes into an agent is found there**, where each place has only one default. -/
theorem exists_leaf_putDefaults (hoverlay : DeepMerge overlay)
    (hdests : ∀ default ∈ defaults, default.dest ≠ [] ∧ default.dest.length ≤ 2)
    (hunions : ∀ default ∈ defaults, MakesNoUnion default (offers default))
    (hapart : defaults.Pairwise fun first last =>
      Apart first last.dest ∨ offers first = .null ∨ offers last = .null)
    {text : PyStr} {default : Default} (hmem : default ∈ defaults)
    (h : Enters default (offers default) agent text) :
    ∃ path leaf, (Json.obj (putDefaults overlay offers defaults agent)).valueAt path = some leaf ∧
      text ∈ stringsOf leaf := by
  induction defaults generalizing agent with
  | nil => cases hmem
  | cons first rest ih =>
      rw [List.forall_mem_cons] at hdests hunions
      rw [List.pairwise_cons] at hapart
      rcases List.mem_cons.mp hmem with rfl | hmem
      · obtain ⟨path, leaf, hleaf, htext⟩ :=
          exists_leaf_putDefault hoverlay hdests.1.1 hunions.1 h
        refine ⟨path, leaf, ?_, htext⟩
        refine valueAt_putDefaults_of_some hoverlay hdests.2 hunions.2 hleaf ?_
        rintro rfl
        exact List.not_mem_nil htext
      · refine ih hdests.2 hunions.2 hapart.2 hmem ?_
        show Enters default (offers default) (putDefault overlay first (offers first) agent) text
        rcases hapart.1 default hmem with hplace | hnone | hnone
        · unfold Enters
          rwa [isFree_putDefault hplace, atPath_putDefault (hdests.2 default hmem).1 hplace]
        · rw [hnone]
          exact h
        · obtain ⟨-, path, leaf, hleaf, htext, -⟩ := h
          rw [hnone] at hleaf
          cases path with
          | nil =>
              obtain rfl := Option.some.inj hleaf
              exact absurd htext List.not_mem_nil
          | cons key rest => cases hleaf

end Found

end DefaultsConfigFilter

end NoraFleet.Networks
