import Mathlib
import NoraFleet.Base.Distinct
import NoraFleet.Networks.DefinedConfigs

/-!
# Texts of a configuration

Filters put texts into a configuration and replace the texts that are there. Where no dictionary
has a key twice, a text is found at a path of keys, in a value that is no dictionary.

* `exists_leaf` — where a text is found;
* `mem_stringsOf_filterValue` — the texts that come of others;
* `filterValue_eq_self_iff` — what no text of is replaced.
-/

namespace NoraFleet.Networks

open Base Json

/-! ## Where texts are -/

theorem mem_stringsOfItems {items : List Json} {text : PyStr} :
    text ∈ stringsOfItems items ↔ ∃ item ∈ items, text ∈ stringsOf item := by
  induction items with
  | nil => simp [stringsOfItems]
  | cons item rest ih => rw [stringsOfItems, List.mem_append, ih, List.exists_mem_cons_iff]

theorem mem_stringsOfMembers {members : Members} {text : PyStr} :
    text ∈ stringsOfMembers members ↔ ∃ member ∈ members, text ∈ stringsOf member.2 := by
  induction members with
  | nil => simp [stringsOfMembers]
  | cons member rest ih => rw [stringsOfMembers, List.mem_append, ih, List.exists_mem_cons_iff]

mutual

/-- A text is found at a path. -/
theorem exists_leaf {text : PyStr} : ∀ v, Distinct v → text ∈ stringsOf v →
    ∃ path leaf, v.valueAt path = some leaf ∧ text ∈ stringsOf leaf
  | .str s, _, h => ⟨[], .str s, rfl, h⟩
  | .arr items, _, h => ⟨[], .arr items, rfl, h⟩
  | .obj members, hv, h => by
      rw [distinct_obj] at hv
      obtain ⟨key, child, hmem, path, leaf, hleaf, htext⟩ := exists_leafUnder members hv.2 h
      refine ⟨key :: path, leaf, ?_, htext⟩
      rw [valueAt_obj, (lookup_eq_some_iff hv.1).mpr hmem]
      exact hleaf

theorem exists_leafUnder {text : PyStr} : ∀ members : Members,
    (∀ member ∈ members, Distinct member.2) → text ∈ stringsOfMembers members →
    ∃ key child, (key, child) ∈ members ∧
      ∃ path leaf, child.valueAt path = some leaf ∧ text ∈ stringsOf leaf
  | (key, child) :: rest, hmembers, h => by
      rw [List.forall_mem_cons] at hmembers
      rw [stringsOfMembers, List.mem_append] at h
      rcases h with hchild | hrest
      · exact ⟨key, child, List.mem_cons_self, exists_leaf child hmembers.1 hchild⟩
      · obtain ⟨other, value, hmem, hleaf⟩ := exists_leafUnder rest hmembers.2 hrest
        exact ⟨other, value, List.mem_cons_of_mem _ hmem, hleaf⟩

end

theorem mem_stringsOf_of_atPath {text : PyStr} {path : List PyStr} {v w : Json}
    (hw : v.atPath path = some w) (htext : text ∈ stringsOf w) : text ∈ stringsOf v := by
  induction path generalizing v with
  | nil =>
      obtain rfl : v = w := by
        cases v <;> exact Option.some.inj hw
      exact htext
  | cons key rest ih =>
      cases v with
      | obj members =>
          rw [atPath_obj] at hw
          obtain ⟨child, hchild, hrest⟩ := Option.bind_eq_some_iff.mp hw
          exact mem_stringsOfMembers.mpr ⟨_, mem_of_lookup hchild, ih hrest⟩
      | _ => cases hw

/-- What is found at a path is there, if there are texts in it. -/
theorem atPath_of_leaf {text : PyStr} {path : List PyStr} {v leaf : Json}
    (hleaf : v.valueAt path = some leaf) (htext : text ∈ stringsOf leaf) :
    v.atPath path = some leaf := by
  unfold valueAt at hleaf
  obtain ⟨found, hfound, rfl⟩ := Option.map_eq_some_iff.mp hleaf
  rw [hfound]
  cases found with
  | obj members => exact absurd htext List.not_mem_nil
  | _ => rfl

/-- Of the texts of a dictionary in which something is set, those that are new are in it. -/
theorem mem_stringsOfMembers_setItems {members : Members} {key text : PyStr} {v : Json}
    (h : text ∈ stringsOfMembers (Dict.setItems members key v)) :
    text ∈ stringsOf v ∨ text ∈ stringsOfMembers members := by
  obtain ⟨member, hmember, htext⟩ := mem_stringsOfMembers.mp h
  rcases mem_setItems hmember with rfl | hold
  · exact .inl htext
  · exact .inr (mem_stringsOfMembers.mpr ⟨member, hold, htext⟩)

theorem mem_stringsOfMembers_setAt {value : Json} {text : PyStr} {path : List PyStr}
    {target : Members} (h : text ∈ stringsOfMembers (setAt value path target)) :
    text ∈ stringsOf value ∨ text ∈ stringsOfMembers target := by
  induction path generalizing target with
  | nil => exact .inr h
  | cons first rest ih =>
      cases rest with
      | nil => exact mem_stringsOfMembers_setItems h
      | cons second rest =>
          unfold setAt at h
          cases hpart : partAt target first with
          | none =>
              rw [hpart] at h
              exact .inr h
          | some part =>
              rw [hpart] at h
              rcases mem_stringsOfMembers_setItems h with hset | hold
              · rcases ih hset with hvalue | hbelow
                · exact .inl hvalue
                · rcases of_partAt hpart with hlookup | ⟨rfl, -⟩
                  · exact .inr (mem_stringsOfMembers.mpr ⟨_, mem_of_lookup hlookup, hbelow⟩)
                  · exact absurd hbelow List.not_mem_nil
              · exact .inr hold

/-! ## Texts that are replaced -/

namespace AbstractCommonDefsConfigFilter

section Filtered

variable {make other : PyStr → Except PyError Json}

theorem filterValue_arr_eq_ok {items : List Json} {filtered : Json} :
    filterValue make (.arr items) = .ok filtered ↔
      ∃ newItems, filterOneList make items = .ok newItems ∧ filtered = .arr newItems := by
  rw [filterValue]
  cases filterOneList make items with
  | error e => simp [Except.map]
  | ok newItems => simp [Except.map, eq_comm]

theorem filterValue_obj_eq_ok {members : Members} {filtered : Json} :
    filterValue make (.obj members) = .ok filtered ↔
      ∃ newMembers, filterOneDict make members = .ok newMembers ∧ filtered = .obj newMembers := by
  rw [filterValue]
  cases filterOneDict make members with
  | error e => simp [Except.map]
  | ok newMembers => simp [Except.map, eq_comm]

theorem filterOneList_cons_eq_ok {item : Json} {rest filtered : List Json} :
    filterOneList make (item :: rest) = .ok filtered ↔
      ∃ newItem newRest, filterValue make item = .ok newItem ∧
        filterOneList make rest = .ok newRest ∧ filtered = newItem :: newRest := by
  rw [filterOneList]
  cases filterValue make item with
  | error e => simp
  | ok newItem =>
      cases filterOneList make rest with
      | error e => simp [Except.map]
      | ok newRest => simp [Except.map, eq_comm]

theorem filterOneDict_cons_eq_ok {key : PyStr} {value : Json} {rest filtered : Members} :
    filterOneDict make ((key, value) :: rest) = .ok filtered ↔
      ∃ newValue newRest, filterValue make value = .ok newValue ∧
        filterOneDict make rest = .ok newRest ∧ filtered = (key, newValue) :: newRest := by
  rw [filterOneDict]
  cases filterValue make value with
  | error e => simp
  | ok newValue =>
      cases filterOneDict make rest with
      | error e => simp [Except.map]
      | ok newRest => simp [Except.map, eq_comm]

mutual

/-- The texts of a value come of those that were replaced. -/
theorem mem_stringsOf_filterValue {text : PyStr} : ∀ {value filtered : Json},
    filterValue make value = .ok filtered →
      (text ∈ stringsOf filtered ↔
        ∃ s ∈ stringsOf value, ∃ made, make s = .ok made ∧ text ∈ stringsOf made)
  | .str s, filtered, h => by
      rw [filterValue] at h
      simp [stringsOf, h]
  | .arr items, _, h => by
      obtain ⟨newItems, hnew, rfl⟩ := filterValue_arr_eq_ok.mp h
      exact mem_stringsOf_filterOneList hnew
  | .obj members, _, h => by
      obtain ⟨newMembers, hnew, rfl⟩ := filterValue_obj_eq_ok.mp h
      exact mem_stringsOf_filterOneDict hnew
  | .null, _, rfl | .bool _, _, rfl | .int _, _, rfl | .float _, _, rfl => by simp [stringsOf]

theorem mem_stringsOf_filterOneList {text : PyStr} : ∀ {items filtered : List Json},
    filterOneList make items = .ok filtered →
      (text ∈ stringsOfItems filtered ↔
        ∃ s ∈ stringsOfItems items, ∃ made, make s = .ok made ∧ text ∈ stringsOf made)
  | [], _, rfl => by simp [stringsOfItems]
  | item :: rest, _, h => by
      obtain ⟨newItem, newRest, hitem, hrest, rfl⟩ := filterOneList_cons_eq_ok.mp h
      rw [stringsOfItems, stringsOfItems, List.mem_append, mem_stringsOf_filterValue hitem,
        mem_stringsOf_filterOneList hrest]
      simp only [List.mem_append, or_and_right, exists_or]

theorem mem_stringsOf_filterOneDict {text : PyStr} : ∀ {members filtered : Members},
    filterOneDict make members = .ok filtered →
      (text ∈ stringsOfMembers filtered ↔
        ∃ s ∈ stringsOfMembers members, ∃ made, make s = .ok made ∧ text ∈ stringsOf made)
  | [], _, rfl => by simp [stringsOfMembers]
  | (key, value) :: rest, _, h => by
      obtain ⟨newValue, newRest, hvalue, hrest, rfl⟩ := filterOneDict_cons_eq_ok.mp h
      rw [stringsOfMembers, stringsOfMembers, List.mem_append, mem_stringsOf_filterValue hvalue,
        mem_stringsOf_filterOneDict hrest]
      simp only [List.mem_append, or_and_right, exists_or]

end

mutual

/-- Nothing changes exactly if no text is replaced. -/
theorem filterValue_eq_self_iff : ∀ value : Json,
    filterValue make value = .ok value ↔ ∀ s ∈ stringsOf value, make s = .ok (.str s)
  | .str s => by simp [filterValue, stringsOf]
  | .arr items => by
      rw [filterValue_arr_eq_ok, stringsOf, ← filterOneList_eq_self_iff items]
      simp
  | .obj members => by
      rw [filterValue_obj_eq_ok, stringsOf, ← filterOneDict_eq_self_iff members]
      simp
  | .null | .bool _ | .int _ | .float _ => by simp [filterValue, stringsOf]

theorem filterOneList_eq_self_iff : ∀ items : List Json,
    filterOneList make items = .ok items ↔ ∀ s ∈ stringsOfItems items, make s = .ok (.str s)
  | [] => by simp [filterOneList, stringsOfItems]
  | item :: rest => by
      rw [filterOneList_cons_eq_ok, stringsOfItems, List.forall_mem_append,
        ← filterValue_eq_self_iff item, ← filterOneList_eq_self_iff rest]
      simp [eq_comm]

theorem filterOneDict_eq_self_iff : ∀ members : Members,
    filterOneDict make members = .ok members ↔ ∀ s ∈ stringsOfMembers members, make s = .ok (.str s)
  | [] => by simp [filterOneDict, stringsOfMembers]
  | (key, value) :: rest => by
      rw [filterOneDict_cons_eq_ok, stringsOfMembers, List.forall_mem_append,
        ← filterValue_eq_self_iff value, ← filterOneDict_eq_self_iff rest]
      simp [eq_comm]

end

mutual

/-- Texts that are replaced twice. -/
theorem filterValue_bind : ∀ value filtered : Json,
    filterValue (fun s => make s >>= filterValue other) value = .ok filtered ↔
      ∃ middle, filterValue make value = .ok middle ∧ filterValue other middle = .ok filtered
  | .str s, filtered => by
      rw [filterValue, filterValue]
      cases make s <;> simp [bind, Except.bind]
  | .arr items, filtered => by
      simp only [filterValue_arr_eq_ok, filterOneList_bind items]
      constructor
      · rintro ⟨newItems, ⟨middle, hmiddle, hnew⟩, rfl⟩
        exact ⟨_, ⟨middle, hmiddle, rfl⟩, filterValue_arr_eq_ok.mpr ⟨newItems, hnew, rfl⟩⟩
      · rintro ⟨_, ⟨middle, hmiddle, rfl⟩, hother⟩
        obtain ⟨newItems, hnew, rfl⟩ := filterValue_arr_eq_ok.mp hother
        exact ⟨newItems, ⟨middle, hmiddle, hnew⟩, rfl⟩
  | .obj members, filtered => by
      simp only [filterValue_obj_eq_ok, filterOneDict_bind members]
      constructor
      · rintro ⟨newMembers, ⟨middle, hmiddle, hnew⟩, rfl⟩
        exact ⟨_, ⟨middle, hmiddle, rfl⟩, filterValue_obj_eq_ok.mpr ⟨newMembers, hnew, rfl⟩⟩
      · rintro ⟨_, ⟨middle, hmiddle, rfl⟩, hother⟩
        obtain ⟨newMembers, hnew, rfl⟩ := filterValue_obj_eq_ok.mp hother
        exact ⟨newMembers, ⟨middle, hmiddle, hnew⟩, rfl⟩
  | .null, filtered | .bool _, filtered | .int _, filtered | .float _, filtered => by
      simp [filterValue]

theorem filterOneList_bind : ∀ items filtered : List Json,
    filterOneList (fun s => make s >>= filterValue other) items = .ok filtered ↔
      ∃ middle, filterOneList make items = .ok middle ∧ filterOneList other middle = .ok filtered
  | [], filtered => by simp [filterOneList]
  | item :: rest, filtered => by
      simp only [filterOneList_cons_eq_ok, filterValue_bind item,
        filterOneList_bind rest]
      constructor
      · rintro ⟨newItem, newRest, ⟨midItem, hmidItem, hitem⟩, ⟨midRest, hmidRest, hrest⟩, rfl⟩
        exact ⟨_, ⟨midItem, midRest, hmidItem, hmidRest, rfl⟩,
          filterOneList_cons_eq_ok.mpr ⟨newItem, newRest, hitem, hrest, rfl⟩⟩
      · rintro ⟨_, ⟨midItem, midRest, hmidItem, hmidRest, rfl⟩, h⟩
        obtain ⟨newItem, newRest, hitem, hrest, rfl⟩ := filterOneList_cons_eq_ok.mp h
        exact ⟨newItem, newRest, ⟨midItem, hmidItem, hitem⟩, ⟨midRest, hmidRest, hrest⟩, rfl⟩

theorem filterOneDict_bind : ∀ members filtered : Members,
    filterOneDict (fun s => make s >>= filterValue other) members = .ok filtered ↔
      ∃ middle, filterOneDict make members = .ok middle ∧ filterOneDict other middle = .ok filtered
  | [], filtered => by simp [filterOneDict]
  | (key, value) :: rest, filtered => by
      simp only [filterOneDict_cons_eq_ok, filterValue_bind value,
        filterOneDict_bind rest]
      constructor
      · rintro ⟨newValue, newRest, ⟨midValue, hmidValue, hvalue⟩, ⟨midRest, hmidRest, hrest⟩, rfl⟩
        exact ⟨_, ⟨midValue, midRest, hmidValue, hmidRest, rfl⟩,
          filterOneDict_cons_eq_ok.mpr ⟨newValue, newRest, hvalue, hrest, rfl⟩⟩
      · rintro ⟨_, ⟨midValue, midRest, hmidValue, hmidRest, rfl⟩, h⟩
        obtain ⟨newValue, newRest, hvalue, hrest, rfl⟩ := filterOneDict_cons_eq_ok.mp h
        exact ⟨newValue, newRest, ⟨midValue, hmidValue, hvalue⟩, ⟨midRest, hmidRest, hrest⟩, rfl⟩

end

theorem forall₂_of_filterOneList {items filtered : List Json}
    (h : filterOneList make items = .ok filtered) :
    List.Forall₂ (fun item newItem => filterValue make item = .ok newItem) items filtered := by
  induction items generalizing filtered with
  | nil =>
      cases h
      exact .nil
  | cons item rest ih =>
      obtain ⟨newItem, newRest, hitem, hrest, rfl⟩ := filterOneList_cons_eq_ok.mp h
      exact .cons hitem (ih hrest)

/-- The keys stay. -/
theorem map_fst_filterOneDict {members filtered : Members}
    (h : filterOneDict make members = .ok filtered) :
    filtered.map Prod.fst = members.map Prod.fst := by
  induction members generalizing filtered with
  | nil =>
      cases h
      rfl
  | cons member rest ih =>
      obtain ⟨newValue, newRest, -, hrest, rfl⟩ := filterOneDict_cons_eq_ok.mp h
      rw [List.map_cons, List.map_cons, ih hrest]

mutual

/-- Keys are distinct where they are in what is put in. -/
theorem distinct_filterValue (hmake : ∀ s made, make s = .ok made → Distinct made) :
    ∀ {value filtered : Json}, filterValue make value = .ok filtered → Distinct value →
      Distinct filtered
  | .str s, filtered, h, _ => by
      rw [filterValue] at h
      exact hmake s filtered h
  | .arr items, _, h, hvalue => by
      obtain ⟨newItems, hnew, rfl⟩ := filterValue_arr_eq_ok.mp h
      exact distinct_arr.mpr (distinct_filterOneList hmake hnew (distinct_arr.mp hvalue))
  | .obj members, _, h, hvalue => by
      obtain ⟨newMembers, hnew, rfl⟩ := filterValue_obj_eq_ok.mp h
      rw [distinct_obj] at hvalue ⊢
      rw [map_fst_filterOneDict hnew]
      exact ⟨hvalue.1, distinct_filterOneDict hmake hnew hvalue.2⟩
  | .null, _, rfl, hvalue | .bool _, _, rfl, hvalue | .int _, _, rfl, hvalue
  | .float _, _, rfl, hvalue => hvalue

theorem distinct_filterOneList (hmake : ∀ s made, make s = .ok made → Distinct made) :
    ∀ {items filtered : List Json}, filterOneList make items = .ok filtered →
      (∀ item ∈ items, Distinct item) → ∀ item ∈ filtered, Distinct item
  | [], _, rfl, hitems => hitems
  | item :: rest, _, h, hitems => by
      obtain ⟨newItem, newRest, hitem, hrest, rfl⟩ := filterOneList_cons_eq_ok.mp h
      rw [List.forall_mem_cons] at hitems ⊢
      exact ⟨distinct_filterValue hmake hitem hitems.1, distinct_filterOneList hmake hrest hitems.2⟩

theorem distinct_filterOneDict (hmake : ∀ s made, make s = .ok made → Distinct made) :
    ∀ {members filtered : Members}, filterOneDict make members = .ok filtered →
      (∀ member ∈ members, Distinct member.2) → ∀ member ∈ filtered, Distinct member.2
  | [], _, rfl, hmembers => hmembers
  | (key, value) :: rest, _, h, hmembers => by
      obtain ⟨newValue, newRest, hvalue, hrest, rfl⟩ := filterOneDict_cons_eq_ok.mp h
      rw [List.forall_mem_cons] at hmembers ⊢
      exact ⟨distinct_filterValue hmake hvalue hmembers.1,
        distinct_filterOneDict hmake hrest hmembers.2⟩

end

theorem lookup_filterOneDict {members filtered : Members} {key : PyStr} {value : Json}
    (h : filterOneDict make members = .ok filtered) (hvalue : lookup members key = some value) :
    ∃ newValue, lookup filtered key = some newValue ∧ filterValue make value = .ok newValue := by
  induction members generalizing filtered with
  | nil => cases hvalue
  | cons member rest ih =>
      obtain ⟨newValue, newRest, hfirst, hrest, rfl⟩ := filterOneDict_cons_eq_ok.mp h
      rw [lookup_cons] at hvalue ⊢
      split at hvalue
      · rename_i hkey
        obtain rfl := Option.some.inj hvalue
        exact ⟨newValue, if_pos hkey, hfirst⟩
      · rename_i hkey
        rw [if_neg hkey]
        exact ih hrest hvalue

/-- What is at a path is filtered there. -/
theorem atPath_filterValue {value filtered found : Json} {path : List PyStr}
    (h : filterValue make value = .ok filtered) (hfound : value.atPath path = some found) :
    ∃ newFound, filtered.atPath path = some newFound ∧ filterValue make found = .ok newFound := by
  induction path generalizing value filtered with
  | nil =>
      obtain rfl : value = found := by
        cases value <;> exact Option.some.inj hfound
      exact ⟨filtered, by cases filtered <;> rfl, h⟩
  | cons key rest ih =>
      cases value with
      | obj members =>
          obtain ⟨newMembers, hnew, rfl⟩ := filterValue_obj_eq_ok.mp h
          rw [atPath_obj] at hfound
          obtain ⟨child, hchild, hrest⟩ := Option.bind_eq_some_iff.mp hfound
          obtain ⟨newChild, hlookup, hfiltered⟩ := lookup_filterOneDict hnew hchild
          rw [atPath_obj, hlookup]
          exact ih hfiltered hrest
      | _ => cases hfound

end Filtered

end AbstractCommonDefsConfigFilter

end NoraFleet.Networks
