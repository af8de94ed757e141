import Mathlib.Data.List.Nodup
import Mathlib.Tactic.Common

/-!
# Insertion-ordered dictionaries

The dictionary of the Python data model: a finite map that remembers the
order in which its keys were first inserted. Assigning to a present key
keeps the key's place, assigning to a new key appends it, and removing a
key forgets its place. Iteration order is observable (a stable sort over
`items()` breaks ties by it), so the entries are a list, and the structure
carries the proof that no key occurs twice.
-/

namespace Base

/-- A dictionary: its entries in insertion order, no key twice. -/
structure Dict (κ ν : Type*) where
  items : List (κ × ν)
  nodup : (items.map Prod.fst).Nodup

namespace Dict

variable {κ ν : Type*}

/-- The keys, in insertion order. -/
def keys (d : Dict κ ν) : List κ := d.items.map Prod.fst

/-- `len(d)`. -/
def length (d : Dict κ ν) : Nat := d.items.length

instance : Membership κ (Dict κ ν) := ⟨fun d k => k ∈ d.keys⟩

theorem mem_iff_keys {d : Dict κ ν} {k : κ} : k ∈ d ↔ k ∈ d.keys := Iff.rfl

/-- `{}`. -/
def empty : Dict κ ν := ⟨[], List.nodup_nil⟩

@[simp] theorem not_mem_empty (k : κ) : ¬ k ∈ (empty : Dict κ ν) := List.not_mem_nil

@[ext] theorem ext {d e : Dict κ ν} (h : d.items = e.items) : d = e := by
  cases d; cases e; cases h; rfl

section Lookup

variable [DecidableEq κ]

instance (d : Dict κ ν) (k : κ) : Decidable (k ∈ d) :=
  inferInstanceAs (Decidable (k ∈ d.keys))

instance [DecidableEq ν] : DecidableEq (Dict κ ν) := fun d e =>
  decidable_of_iff (d.items = e.items) ⟨ext, congrArg items⟩

/-- `d.get(k)`. -/
def get? (d : Dict κ ν) (k : κ) : Option ν :=
  (d.items.find? fun e => e.1 = k).map Prod.snd

@[simp] theorem get?_empty (k : κ) : (empty : Dict κ ν).get? k = none := rfl

/-- Looking a key up in a list of entries without repeated keys finds exactly
the entry that is there. -/
theorem find?_map_snd_eq_some {l : List (κ × ν)} (nodup : (l.map Prod.fst).Nodup)
    {k : κ} {v : ν} :
    (l.find? fun e => e.1 = k).map Prod.snd = some v ↔ (k, v) ∈ l := by
  induction l with
  | nil => simp
  | cons e rest ih =>
      rw [List.map_cons, List.nodup_cons] at nodup
      by_cases he : e.1 = k
      · subst he
        have absent : ∀ w, (e.1, w) ∉ rest := fun w hw =>
          nodup.1 (List.mem_map.mpr ⟨_, hw, rfl⟩)
        simp only [List.find?_cons, decide_true, Option.map_some, Option.some.injEq,
          List.mem_cons, absent, or_false]
        constructor
        · rintro rfl; rfl
        · intro h; exact (congrArg Prod.snd h).symm
      · have hne : (k, v) ≠ e := fun h => he (by rw [← h])
        simp only [List.find?_cons, he, decide_false, List.mem_cons, hne, false_or]
        exact ih nodup.2

theorem get?_eq_some_iff {d : Dict κ ν} {k : κ} {v : ν} :
    d.get? k = some v ↔ (k, v) ∈ d.items :=
  find?_map_snd_eq_some d.nodup

theorem mem_of_get?_eq_some {d : Dict κ ν} {k : κ} {v : ν} (h : d.get? k = some v) :
    k ∈ d :=
  List.mem_map_of_mem (f := Prod.fst) (get?_eq_some_iff.mp h)

theorem exists_get?_of_mem {d : Dict κ ν} {k : κ} (h : k ∈ d) : ∃ v, d.get? k = some v := by
  obtain ⟨e, he, rfl⟩ := List.mem_map.mp h
  exact ⟨e.2, get?_eq_some_iff.mpr he⟩

/-! ### Assignment -/

/-- The entries after `d[k] = v`: in place for a present key, at the end for a
new one. -/
def setItems (l : List (κ × ν)) (k : κ) (v : ν) : List (κ × ν) :=
  if k ∈ l.map Prod.fst then l.map fun e => if e.1 = k then (k, v) else e
  else l ++ [(k, v)]

theorem setItems_keys (l : List (κ × ν)) (k : κ) (v : ν) :
    (setItems l k v).map Prod.fst =
      if k ∈ l.map Prod.fst then l.map Prod.fst else l.map Prod.fst ++ [k] := by
  unfold setItems
  split
  · rw [List.map_map]
    refine List.map_congr_left fun e _ => ?_
    by_cases he : e.1 = k <;> simp [he]
  · simp

theorem setItems_of_mem {l : List (κ × ν)} (nodup : (l.map Prod.fst).Nodup) {k : κ} {v : ν}
    (h : (k, v) ∈ l) : setItems l k v = l := by
  unfold setItems
  rw [if_pos (List.mem_map_of_mem h)]
  have hsame : ∀ e ∈ l, (if e.1 = k then (k, v) else e) = e := by
    intro e he
    split
    · rename_i hk
      exact (List.inj_on_of_nodup_map nodup he h hk).symm
    · rfl
  rw [List.map_congr_left hsame, List.map_id']

theorem filter_setItems (l : List (κ × ν)) (k : κ) (v : ν) :
    (setItems l k v).filter (fun e => e.1 ≠ k) = l.filter (fun e => e.1 ≠ k) := by
  unfold setItems
  split
  · rename_i hmem
    clear hmem
    induction l with
    | nil => rfl
    | cons e rest ih =>
        rw [List.map_cons, List.filter_cons, List.filter_cons, ih]
        by_cases he : e.1 = k <;> simp [he]
  · simp

/-- `d[k] = v`. -/
def set (d : Dict κ ν) (k : κ) (v : ν) : Dict κ ν where
  items := setItems d.items k v
  nodup := by
    rw [setItems_keys]
    split
    · exact d.nodup
    · rename_i h
      exact List.nodup_append.mpr ⟨d.nodup, List.nodup_singleton k, by
        intro a ha b hb hab
        rw [List.mem_singleton.mp hb] at hab
        exact h (hab ▸ ha)⟩

theorem keys_set (d : Dict κ ν) (k : κ) (v : ν) :
    (d.set k v).keys = if k ∈ d then d.keys else d.keys ++ [k] :=
  setItems_keys d.items k v

theorem items_set_of_not_mem {d : Dict κ ν} {k : κ} (h : k ∉ d) (v : ν) :
    (d.set k v).items = d.items ++ [(k, v)] := if_neg h

@[simp] theorem mem_set {d : Dict κ ν} {k x : κ} {v : ν} :
    x ∈ d.set k v ↔ x = k ∨ x ∈ d := by
  rw [mem_iff_keys, keys_set]
  by_cases hk : k ∈ d
  · rw [if_pos hk]
    constructor
    · exact Or.inr
    · rintro (rfl | h)
      · exact hk
      · exact h
  · rw [if_neg hk, List.mem_append, List.mem_singleton, or_comm]
    rfl

theorem mem_items_set {d : Dict κ ν} {k x : κ} {v w : ν} :
    (x, w) ∈ (d.set k v).items ↔ (x = k ∧ w = v) ∨ (x ≠ k ∧ (x, w) ∈ d.items) := by
  show (x, w) ∈ setItems d.items k v ↔ _
  unfold setItems
  split
  · rename_i hk
    rw [List.mem_map]
    constructor
    · rintro ⟨e, he, heq⟩
      by_cases hek : e.1 = k
      · rw [if_pos hek] at heq
        cases heq
        exact .inl ⟨rfl, rfl⟩
      · rw [if_neg hek] at heq
        subst heq
        exact .inr ⟨hek, he⟩
    · rintro (⟨rfl, rfl⟩ | ⟨hne, hmem⟩)
      · obtain ⟨e, he, hek⟩ := List.mem_map.mp hk
        exact ⟨e, he, by rw [if_pos hek]⟩
      · exact ⟨(x, w), hmem, by rw [if_neg hne]⟩
  · rename_i hk
    rw [List.mem_append, List.mem_singleton, Prod.mk.injEq]
    constructor
    · rintro (h | h)
      · exact .inr ⟨fun hx => hk (hx ▸ List.mem_map_of_mem h), h⟩
      · exact .inl h
    · rintro (h | h)
      · exact .inr h
      · exact .inl h.2

theorem get?_set (d : Dict κ ν) (k x : κ) (v : ν) :
    (d.set k v).get? x = if x = k then some v else d.get? x := by
  apply Option.ext
  intro w
  rw [get?_eq_some_iff, mem_items_set]
  by_cases hx : x = k
  · rw [if_pos hx]
    simp [hx, eq_comm]
  · rw [if_neg hx, get?_eq_some_iff]
    simp [hx]

/-! ### Removal -/

/-- `d.pop(k, None)`, for its effect. -/
def pop (d : Dict κ ν) (k : κ) : Dict κ ν where
  items := d.items.filter fun e => e.1 ≠ k
  nodup := d.nodup.sublist (List.filter_sublist.map Prod.fst)

@[simp] theorem mem_pop {d : Dict κ ν} {k x : κ} : x ∈ d.pop k ↔ x ≠ k ∧ x ∈ d := by
  show x ∈ (d.items.filter fun e => e.1 ≠ k).map Prod.fst ↔ _
  constructor
  · intro h
    obtain ⟨e, he, rfl⟩ := List.mem_map.mp h
    obtain ⟨hmem, hne⟩ := List.mem_filter.mp he
    exact ⟨by simpa using hne, List.mem_map_of_mem hmem⟩
  · rintro ⟨hne, h⟩
    obtain ⟨e, he, rfl⟩ := List.mem_map.mp h
    exact List.mem_map_of_mem (List.mem_filter.mpr ⟨he, by simpa using hne⟩)

theorem get?_pop (d : Dict κ ν) (k x : κ) :
    (d.pop k).get? x = if x = k then none else d.get? x := by
  apply Option.ext
  intro w
  rw [get?_eq_some_iff]
  show (x, w) ∈ (d.items.filter fun e => e.1 ≠ k) ↔ _
  rw [List.mem_filter]
  by_cases hx : x = k
  · simp [hx]
  · rw [if_neg hx, get?_eq_some_iff]
    simp [hx]

/-- Removal of a list of keys, one after the other. -/
def popAll (d : Dict κ ν) (ks : List κ) : Dict κ ν := ks.foldl pop d

@[simp] theorem mem_popAll {d : Dict κ ν} {ks : List κ} {x : κ} :
    x ∈ d.popAll ks ↔ x ∉ ks ∧ x ∈ d := by
  induction ks generalizing d with
  | nil => simp [popAll]
  | cons k rest ih =>
      show x ∈ (d.pop k).popAll rest ↔ _
      rw [ih, mem_pop, List.mem_cons, not_or, and_left_comm, and_assoc]

theorem get?_popAll (d : Dict κ ν) (ks : List κ) (x : κ) :
    (d.popAll ks).get? x = if x ∈ ks then none else d.get? x := by
  induction ks generalizing d with
  | nil => rfl
  | cons k rest ih =>
      show ((d.pop k).popAll rest).get? x = _
      rw [ih, get?_pop]
      by_cases hrest : x ∈ rest
      · rw [if_pos hrest, if_pos (List.mem_cons_of_mem _ hrest)]
      · by_cases hk : x = k
        · rw [if_neg hrest, if_pos hk, if_pos (List.mem_cons.mpr (.inl hk))]
        · rw [if_neg hrest, if_neg hk, if_neg fun hmem => (List.mem_cons.mp hmem).elim hk hrest]

end Lookup

end Dict

end Base
