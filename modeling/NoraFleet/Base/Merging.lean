import Mathlib
import NoraFleet.Base.Dict

/-!
# Merging dictionaries

Two dictionaries are merged by taking the entries of the second one by one: a key
that is new is appended, a key that is there keeps its place and gets the two values
combined. Dictionaries whose values are dictionaries again are merged recursively.

* `get?_mergeWith` — merging combines key by key, so it does so in any order.
* `update_eq_self_iff` — when assignments one after the other change nothing.
* `sumOf_mergeWith` — what is additive for the values is so for the dictionaries.
* `mergeItems_embed` — merging trees of one depth is merging dictionaries of
  dictionaries, and does not fail.
-/

namespace Base

namespace Dict

section Merge

variable {κ ν : Type*} [DecidableEq κ]

/-- One entry is merged into a dictionary. -/
def mergeEntry (combine : ν → ν → ν) (d : Dict κ ν) (entry : κ × ν) : Dict κ ν :=
  d.set entry.1 (match d.get? entry.1 with
    | none => entry.2
    | some held => combine held entry.2)

/-- The entries of the second dictionary are merged into the first. -/
def mergeWith (combine : ν → ν → ν) (d e : Dict κ ν) : Dict κ ν :=
  e.items.foldl (mergeEntry combine) d

variable {combine : ν → ν → ν}

theorem get?_mergeEntry (d : Dict κ ν) (entry : κ × ν) (k : κ) :
    (mergeEntry combine d entry).get? k =
      Option.merge combine (d.get? k) (if k = entry.1 then some entry.2 else none) := by
  unfold mergeEntry
  rw [get?_set]
  by_cases hk : k = entry.1
  · rw [if_pos hk, if_pos hk, hk]
    cases d.get? entry.1 <;> rfl
  · rw [if_neg hk, if_neg hk]
    cases d.get? k <;> rfl

/-- The fold over the entries of the second dictionary: a key is met once. -/
theorem get?_foldl_mergeEntry (entries : List (κ × ν)) (nodup : (entries.map Prod.fst).Nodup)
    (d : Dict κ ν) (k : κ) :
    (entries.foldl (mergeEntry combine) d).get? k =
      Option.merge combine (d.get? k) ((entries.find? fun e => e.1 = k).map Prod.snd) := by
  induction entries generalizing d with
  | nil =>
      simp only [List.foldl_nil, List.find?_nil, Option.map_none]
      cases d.get? k <;> rfl
  | cons entry rest ih =>
      rw [List.map_cons, List.nodup_cons] at nodup
      rw [List.foldl_cons, ih nodup.2, get?_mergeEntry, List.find?_cons]
      by_cases hk : entry.1 = k
      · have habsent : (rest.find? fun e => e.1 = k) = none := by
          rw [List.find?_eq_none]
          intro e he heq
          apply nodup.1
          rw [hk, ← of_decide_eq_true heq]
          exact List.mem_map_of_mem he
        simp only [habsent, hk, decide_true, Option.map_none, Option.map_some, if_true]
        cases d.get? k <;> rfl
      · simp only [if_neg (Ne.symm hk), hk, decide_false]
        cases d.get? k <;> rfl

/-- Merging combines what the two dictionaries have under a key. -/
theorem get?_mergeWith (d e : Dict κ ν) (k : κ) :
    (mergeWith combine d e).get? k = Option.merge combine (d.get? k) (e.get? k) :=
  get?_foldl_mergeEntry e.items e.nodup d k

end Merge

section Sum

variable {κ ν μ : Type*} [DecidableEq κ] [AddCommMonoid μ]

/-- The sum of a quantity over the values. -/
def sumOf (f : ν → μ) (d : Dict κ ν) : μ := (d.items.map fun entry => f entry.2).sum

/-- Replacing the value of a key replaces its part of the sum. -/
theorem sum_setItems_of_mem (f : ν → μ) {l : List (κ × ν)} (nodup : (l.map Prod.fst).Nodup)
    {k : κ} {old : ν} (h : (k, old) ∈ l) (extra : μ) {new : ν} (hnew : f new = f old + extra) :
    ((setItems l k new).map fun entry => f entry.2).sum =
      (l.map fun entry => f entry.2).sum + extra := by
  unfold setItems
  rw [if_pos (List.mem_map_of_mem (f := Prod.fst) h)]
  induction l with
  | nil => exact absurd h List.not_mem_nil
  | cons entry rest ih =>
      rw [List.map_cons, List.nodup_cons] at nodup
      simp only [List.map_cons, List.sum_cons]
      rcases List.mem_cons.mp h with rfl | hrest
      · have hsame : (rest.map fun e => if e.1 = k then (k, new) else e) = rest := by
          calc (rest.map fun e => if e.1 = k then (k, new) else e)
              = rest.map id := List.map_congr_left fun e he => if_neg fun heq =>
                nodup.1 (List.mem_map.mpr ⟨e, he, heq⟩)
            _ = rest := List.map_id rest
        rw [hsame, if_pos rfl, hnew, add_right_comm]
      · have hne : entry.1 ≠ k := by
          intro heq
          apply nodup.1
          rw [heq]
          exact List.mem_map_of_mem (f := Prod.fst) hrest
        rw [if_neg hne, ih nodup.2 hrest, add_assoc]

theorem sumOf_mergeEntry {combine : ν → ν → ν} {f : ν → μ}
    (additive : ∀ a b, f (combine a b) = f a + f b) (d : Dict κ ν) (entry : κ × ν) :
    (mergeEntry combine d entry).sumOf f = d.sumOf f + f entry.2 := by
  unfold mergeEntry
  cases hget : d.get? entry.1 with
  | none =>
      have habsent : entry.1 ∉ d := by
        intro hmem
        obtain ⟨v, hv⟩ := exists_get?_of_mem hmem
        rw [hget] at hv
        cases hv
      unfold sumOf
      rw [items_set_of_not_mem habsent]
      simp
  | some held =>
      exact sum_setItems_of_mem f d.nodup (get?_eq_some_iff.mp hget) (f entry.2)
        (additive held entry.2)

/-- What is additive for the values is additive for the dictionaries. -/
theorem sumOf_mergeWith {combine : ν → ν → ν} {f : ν → μ}
    (additive : ∀ a b, f (combine a b) = f a + f b) (d e : Dict κ ν) :
    (mergeWith combine d e).sumOf f = d.sumOf f + e.sumOf f := by
  have hfold : ∀ (entries : List (κ × ν)) (d : Dict κ ν),
      (entries.foldl (mergeEntry combine) d).sumOf f =
        d.sumOf f + (entries.map fun entry => f entry.2).sum := by
    intro entries
    induction entries with
    | nil => simp
    | cons entry rest ih =>
        intro d
        rw [List.foldl_cons, ih, sumOf_mergeEntry additive, List.map_cons, List.sum_cons,
          add_assoc]
  exact hfold e.items d

end Sum

/-! ### Assignments one after the other -/

section Updates

variable {κ ν : Type*} [DecidableEq κ]

/-- The entries are assigned one after the other. -/
def update (d : Dict κ ν) (entries : List (κ × ν)) : Dict κ ν :=
  entries.foldl (fun d entry => d.set entry.1 entry.2) d

theorem update_cons (d : Dict κ ν) (entry : κ × ν) (rest : List (κ × ν)) :
    d.update (entry :: rest) = (d.set entry.1 entry.2).update rest := rfl

theorem update_append (d : Dict κ ν) (entries more : List (κ × ν)) :
    d.update (entries ++ more) = (d.update entries).update more := by
  unfold update
  rw [List.foldl_append]

theorem mem_update {d : Dict κ ν} {entries : List (κ × ν)} {k : κ} :
    k ∈ d.update entries ↔ k ∈ d ∨ k ∈ entries.map Prod.fst := by
  induction entries generalizing d with
  | nil => simp [update]
  | cons entry rest ih =>
      rw [update_cons, ih, mem_set, List.map_cons, List.mem_cons]
      tauto

/-- New keys, all different, are appended. -/
theorem items_update_of_nodup {d : Dict κ ν} {entries : List (κ × ν)}
    (h : (d.keys ++ entries.map Prod.fst).Nodup) :
    (d.update entries).items = d.items ++ entries := by
  induction entries generalizing d with
  | nil => simp [update]
  | cons entry rest ih =>
      rw [List.map_cons, List.append_cons] at h
      have hnew : entry.1 ∉ d := by
        intro hmem
        have hkeys := List.nodup_append.mp (List.nodup_append.mp h).1
        exact hkeys.2.2 _ hmem _ (List.mem_singleton_self _) rfl
      rw [update_cons, ih, items_set_of_not_mem hnew, List.append_assoc]
      · rfl
      · rwa [keys_set, if_neg hnew]

theorem get?_update_of_not_mem (d : Dict κ ν) {entries : List (κ × ν)} {k : κ}
    (h : k ∉ entries.map Prod.fst) : (d.update entries).get? k = d.get? k := by
  induction entries generalizing d with
  | nil => rfl
  | cons entry rest ih =>
      rw [List.map_cons, List.mem_cons, not_or] at h
      rw [update_cons, ih _ h.2, get?_set, if_neg h.1]

/-- The last assignment of a key counts. -/
theorem get?_update_of_last (d : Dict κ ν) {before after : List (κ × ν)} {k : κ} {v : ν}
    (h : k ∉ after.map Prod.fst) :
    (d.update (before ++ (k, v) :: after)).get? k = some v := by
  rw [update_append, update_cons, get?_update_of_not_mem _ h, get?_set, if_pos rfl]

theorem exists_last_of_mem {entries : List (κ × ν)} {k : κ} (h : k ∈ entries.map Prod.fst) :
    ∃ before v after, entries = before ++ (k, v) :: after ∧ k ∉ after.map Prod.fst := by
  induction entries with
  | nil => exact absurd h List.not_mem_nil
  | cons entry rest ih =>
      by_cases hrest : k ∈ rest.map Prod.fst
      · obtain ⟨before, v, after, hsplit, hnot⟩ := ih hrest
        refine ⟨entry :: before, v, after, ?_, hnot⟩
        rw [hsplit, List.cons_append]
      · have hk : k = entry.1 := (List.mem_cons.mp h).resolve_right hrest
        subst hk
        exact ⟨[], entry.2, rest, rfl, hrest⟩

/-- A dictionary of views follows the dictionary it was taken from. -/
theorem get?_update_map {α μ : Type*} {d : Dict κ μ} {e : Dict κ ν} {view : ν → μ}
    (h : ∀ k, d.get? k = (e.get? k).map view) (key : α → κ) (value : α → ν) (l : List α)
    (k : κ) :
    (d.update (l.map fun x => (key x, view (value x)))).get? k =
      ((e.update (l.map fun x => (key x, value x))).get? k).map view := by
  induction l generalizing d e with
  | nil => exact h k
  | cons x rest ih =>
      rw [List.map_cons, List.map_cons, update_cons, update_cons]
      apply ih
      intro k
      rw [get?_set, get?_set]
      split
      · rfl
      · exact h k

theorem keys_update_of_mem (d : Dict κ ν) {entries : List (κ × ν)}
    (h : ∀ k ∈ entries.map Prod.fst, k ∈ d) : (d.update entries).keys = d.keys := by
  induction entries generalizing d with
  | nil => rfl
  | cons entry rest ih =>
      have hmem : entry.1 ∈ d := h entry.1 List.mem_cons_self
      have hkeys : (d.set entry.1 entry.2).keys = d.keys := by
        rw [keys_set, if_pos hmem]
      rw [update_cons, ih, hkeys]
      intro k hk
      rw [mem_iff_keys, hkeys]
      exact h k (List.mem_cons_of_mem _ hk)

theorem eq_of_keys_of_get? {d e : Dict κ ν} (hkeys : d.keys = e.keys)
    (hget : ∀ k ∈ d, d.get? k = e.get? k) : d = e := by
  obtain ⟨items, nodup⟩ := d
  obtain ⟨items', nodup'⟩ := e
  apply ext
  show items = items'
  replace hkeys : items.map Prod.fst = items'.map Prod.fst := hkeys
  apply List.ext_getElem
  · have hlength := congrArg List.length hkeys
    simpa using hlength
  · intro i hi hi'
    have hkey : items[i].1 = items'[i].1 := by
      have hi_keys : (items.map Prod.fst)[i]? = (items'.map Prod.fst)[i]? := by rw [hkeys]
      simpa [List.getElem?_eq_getElem hi, List.getElem?_eq_getElem hi'] using hi_keys
    have hfirst : get? ⟨items, nodup⟩ items[i].1 = some items[i].2 :=
      get?_eq_some_iff.mpr (List.getElem_mem hi)
    have hsecond : get? ⟨items', nodup'⟩ items'[i].1 = some items'[i].2 :=
      get?_eq_some_iff.mpr (List.getElem_mem hi')
    have hsame := hget items[i].1 (List.mem_map_of_mem (List.getElem_mem hi))
    rw [hfirst, hkey, hsecond] at hsame
    exact Prod.ext hkey (Option.some.inj hsame)

/-- Assignments change nothing exactly when the last one of each key assigns what was
there. -/
theorem update_eq_self_iff (d : Dict κ ν) (entries : List (κ × ν)) :
    d.update entries = d ↔ ∀ before k v after, entries = before ++ (k, v) :: after →
      k ∉ after.map Prod.fst → d.get? k = some v := by
  constructor
  · rintro h before k v after rfl hlast
    rw [← get?_update_of_last d hlast, h]
  · intro h
    have hmem : ∀ k ∈ entries.map Prod.fst, k ∈ d := by
      intro k hk
      obtain ⟨before, v, after, hsplit, hlast⟩ := exists_last_of_mem hk
      exact mem_of_get?_eq_some (h before k v after hsplit hlast)
    apply eq_of_keys_of_get? (keys_update_of_mem d hmem)
    intro k _
    by_cases hk : k ∈ entries.map Prod.fst
    · obtain ⟨before, v, after, hsplit, hlast⟩ := exists_last_of_mem hk
      rw [h before k v after hsplit hlast, hsplit, get?_update_of_last d hlast]
    · exact get?_update_of_not_mem d hk

end Updates

end Dict

/-! ### Folds that do not fail -/

/-- A fold whose steps succeed on what they are about is a fold of values. -/
theorem foldlM_map_eq_ok {σ τ α β ε : Type*} {step : σ → α → Except ε σ} {next : τ → β → τ}
    {state : τ → σ} {item : β → α}
    (h : ∀ t b, step (state t) (item b) = .ok (state (next t b))) (items : List β) (t : τ) :
    (items.map item).foldlM step (state t) = .ok (state (items.foldl next t)) := by
  induction items generalizing t with
  | nil => rfl
  | cons b rest ih =>
      rw [List.map_cons, List.foldlM_cons, h, List.foldl_cons]
      exact ih (next t b)

/-! ### Partial values -/

section Options

variable {μ : Type*} [AddCommMonoid μ]

omit [AddCommMonoid μ] in
@[simp] theorem isSome_merge (f : μ → μ → μ) (a b : Option μ) :
    (Option.merge f a b).isSome = (a.isSome || b.isSome) := by
  cases a <;> cases b <;> rfl

@[simp] theorem getD_merge_add (a b : Option μ) :
    (Option.merge (· + ·) a b).getD 0 = a.getD 0 + b.getD 0 := by
  cases a <;> cases b <;> simp [Option.merge]

omit [AddCommMonoid μ] in
/-- A part that combines as the whole does. -/
theorem bind_merge {ν : Type*} {combine : ν → ν → ν} {f : μ → μ → μ} {part : ν → Option μ}
    (h : ∀ a b, part (combine a b) = Option.merge f (part a) (part b)) (a b : Option ν) :
    (Option.merge combine a b).bind part = Option.merge f (a.bind part) (b.bind part) := by
  cases a with
  | none =>
      cases b with
      | none => rfl
      | some right =>
          show part right = Option.merge f none (part right)
          cases part right <;> rfl
  | some left =>
      cases b with
      | none =>
          show part left = Option.merge f (part left) none
          cases part left <;> rfl
      | some right => exact h left right

theorem option_eq_of_isSome_of_getD {a b : Option μ} (hisSome : a.isSome ↔ b.isSome)
    (hgetD : a.getD 0 = b.getD 0) : a = b := by
  cases a <;> cases b <;> simp_all

end Options

/-! ### Trees of dictionaries -/

/-- A value, or a dictionary of such. -/
inductive Nested (κ α : Type*) where
  | leaf (value : α)
  | dict (items : List (κ × Nested κ α))

namespace Nested

variable {κ α ε : Type*} [DecidableEq κ]

/-- The value that a list of entries has under a key. -/
def lookup {ν : Type*} (items : List (κ × ν)) (key : κ) : Option ν :=
  (items.find? fun item => item.1 = key).map Prod.snd

theorem lookup_cons {ν : Type*} (item : κ × ν) (rest : List (κ × ν)) (key : κ) :
    lookup (item :: rest) key = if item.1 = key then some item.2 else lookup rest key := by
  unfold lookup
  rw [List.find?_cons]
  by_cases hkey : item.1 = key <;> simp [hkey]

theorem lookup_eq_none {ν : Type*} {items : List (κ × ν)} {key : κ}
    (h : key ∉ items.map Prod.fst) : lookup items key = none := by
  induction items with
  | nil => rfl
  | cons item rest ih =>
      rw [List.map_cons, List.mem_cons, not_or] at h
      rw [lookup_cons, if_neg (Ne.symm h.1), ih h.2]

theorem lookup_append {ν : Type*} (items more : List (κ × ν)) (key : κ) :
    lookup (items ++ more) key = (lookup items key).or (lookup more key) := by
  induction items with
  | nil => rfl
  | cons item rest ih =>
      rw [List.cons_append, lookup_cons, lookup_cons, ih]
      by_cases hkey : item.1 = key
      · rw [if_pos hkey, if_pos hkey]
        rfl
      · rw [if_neg hkey, if_neg hkey]

/-- Replacing the values of a key that is there. -/
theorem lookup_replace {ν : Type*} (items : List (κ × ν)) (key other : κ) (v : ν) :
    lookup (items.map fun item => if item.1 = key then (key, v) else item) other =
      if other = key ∧ key ∈ items.map Prod.fst then some v else lookup items other := by
  induction items with
  | nil => simp [lookup]
  | cons item rest ih =>
      rw [List.map_cons, lookup_cons, lookup_cons, ih]
      by_cases hitem : item.1 = key
      · rw [if_pos hitem, List.map_cons, hitem]
        by_cases hother : other = key
        · simp [hother]
        · simp [hother, Ne.symm hother]
      · rw [if_neg hitem, List.map_cons]
        by_cases hother : item.1 = other
        · rw [if_pos hother, if_pos hother, if_neg]
          rintro ⟨rfl, -⟩
          exact hitem hother
        · simp only [if_neg hother, List.mem_cons, Ne.symm hitem, false_or]

theorem lookup_setItems {ν : Type*} (items : List (κ × ν)) (key other : κ) (v : ν) :
    lookup (Dict.setItems items key v) other =
      if other = key then some v else lookup items other := by
  unfold Dict.setItems
  by_cases hmem : key ∈ items.map Prod.fst
  · rw [if_pos hmem, lookup_replace]
    simp only [hmem, and_true]
  · rw [if_neg hmem, lookup_append, lookup_cons]
    by_cases hother : other = key
    · rw [if_pos hother.symm, if_pos hother, hother, lookup_eq_none hmem]
      rfl
    · rw [if_neg (Ne.symm hother), if_neg hother]
      exact Option.or_none

/-! ### The recursive merge -/

mutual

/-- Two values under one key: dictionaries are merged, others are added. -/
def mergeValues (plus : α → α → Except ε α) (clash : ε) :
    Nested κ α → Nested κ α → Except ε (Nested κ α)
  | .dict held, .dict items => (mergeItems plus clash held items).map .dict
  | .leaf held, .leaf value => (plus held value).map .leaf
  | .dict _, .leaf _ => .error clash
  | .leaf _, .dict _ => .error clash

/-- The entries of the second dictionary are merged into the first. -/
def mergeItems (plus : α → α → Except ε α) (clash : ε) (result : List (κ × Nested κ α)) :
    List (κ × Nested κ α) → Except ε (List (κ × Nested κ α))
  | [] => .ok result
  | (key, value) :: rest =>
      match lookup result key with
      | none => mergeItems plus clash (Dict.setItems result key value) rest
      | some held =>
          match mergeValues plus clash held value with
          | .error e => .error e
          | .ok merged => mergeItems plus clash (Dict.setItems result key merged) rest

end

/-! ### Trees of one depth -/

section Embedding

variable {κ' ν : Type*} [DecidableEq κ'] (key : κ' → κ) (tree : ν → Nested κ α)

/-- The entries of a dictionary whose values are trees. -/
def embed (d : Dict κ' ν) : List (κ × Nested κ α) :=
  d.items.map fun entry => (key entry.1, tree entry.2)

variable {key tree}

theorem lookup_map_entries (injective : Function.Injective key) (entries : List (κ' × ν))
    (k : κ') :
    lookup (entries.map fun entry => (key entry.1, tree entry.2)) (key k) =
      (lookup entries k).map tree := by
  induction entries with
  | nil => rfl
  | cons entry rest ih =>
      rw [List.map_cons, lookup_cons, lookup_cons, ih]
      by_cases hk : entry.1 = k
      · rw [if_pos hk, if_pos (congrArg key hk)]
        rfl
      · rw [if_neg hk, if_neg (injective.ne hk)]

theorem lookup_embed (injective : Function.Injective key) (d : Dict κ' ν) (k : κ') :
    lookup (embed key tree d) (key k) = (d.get? k).map tree :=
  lookup_map_entries injective d.items k

theorem setItems_embed (injective : Function.Injective key) (d : Dict κ' ν) (k : κ') (v : ν) :
    Dict.setItems (embed key tree d) (key k) (tree v) = embed key tree (d.set k v) := by
  have hkeys : key k ∈ (embed key tree d).map Prod.fst ↔ k ∈ d.items.map Prod.fst := by
    simp only [embed, List.map_map, List.mem_map, Function.comp_apply]
    exact ⟨fun ⟨entry, hmem, heq⟩ => ⟨entry, hmem, injective heq⟩,
      fun ⟨entry, hmem, heq⟩ => ⟨entry, hmem, congrArg key heq⟩⟩
  show Dict.setItems _ _ _ = (Dict.setItems d.items k v).map _
  unfold Dict.setItems
  by_cases hmem : k ∈ d.items.map Prod.fst
  · rw [if_pos (hkeys.mpr hmem), if_pos hmem]
    simp only [embed, List.map_map]
    refine List.map_congr_left fun entry _ => ?_
    by_cases hk : entry.1 = k
    · simp only [Function.comp_apply, if_pos hk, if_pos (congrArg key hk)]
    · simp only [Function.comp_apply, if_neg hk, if_neg (injective.ne hk)]
  · rw [if_neg (mt hkeys.mp hmem), if_neg hmem]
    simp only [embed, List.map_append, List.map_cons, List.map_nil]

variable {plus : α → α → Except ε α} {clash : ε} {combine : ν → ν → ν}

/-- Merging trees of one depth is merging dictionaries. -/
theorem mergeItems_embed (injective : Function.Injective key)
    (hmerge : ∀ a b, mergeValues plus clash (tree a) (tree b) = .ok (tree (combine a b)))
    (d e : Dict κ' ν) :
    mergeItems plus clash (embed key tree d) (embed key tree e) =
      .ok (embed key tree (d.mergeWith combine e)) := by
  have hfold : ∀ (entries : List (κ' × ν)) (d : Dict κ' ν),
      mergeItems plus clash (embed key tree d)
          (entries.map fun entry => (key entry.1, tree entry.2)) =
        .ok (embed key tree (entries.foldl (Dict.mergeEntry combine) d)) := by
    intro entries
    induction entries with
    | nil => intro d; rfl
    | cons entry rest ih =>
        intro d
        simp only [List.map_cons, mergeItems, lookup_embed injective, List.foldl_cons,
          Dict.mergeEntry]
        cases d.get? entry.1 with
        | none => simp only [Option.map_none, setItems_embed injective, ih]
        | some held => simp only [Option.map_some, hmerge, setItems_embed injective, ih]
  exact hfold e.items d

/-- Merging a dictionary of one depth into entries that have such trees, if any, under
its keys. -/
theorem mergeItems_onto
    (hmerge : ∀ a b, mergeValues plus clash (tree a) (tree b) = .ok (tree (combine a b)))
    (items : List (κ × Nested κ α)) (held : κ → Option ν) (e : Dict κ ν)
    (hheld : ∀ k ∈ e, lookup items k = (held k).map tree) :
    ∃ result, mergeItems plus clash items (embed id tree e) = .ok result ∧
      ∀ k, lookup result k =
        if k ∈ e then (Option.merge combine (held k) (e.get? k)).map tree
        else lookup items k := by
  obtain ⟨entries, nodup⟩ := e
  show ∃ result, mergeItems plus clash items
      (entries.map fun entry => (entry.1, tree entry.2)) = .ok result ∧
    ∀ k, lookup result k =
      if k ∈ entries.map Prod.fst then (Option.merge combine (held k) (lookup entries k)).map tree
      else lookup items k
  replace hheld : ∀ k ∈ entries.map Prod.fst, lookup items k = (held k).map tree := hheld
  induction entries generalizing items with
  | nil => exact ⟨items, rfl, fun k => rfl⟩
  | cons entry rest ih =>
      rw [List.map_cons, List.nodup_cons] at nodup
      -- the entry that is met first is the only one under its key
      have hstep : ∃ value, mergeItems plus clash items
            ((entry :: rest).map fun entry => (entry.1, tree entry.2)) =
          mergeItems plus clash (Dict.setItems items entry.1 (tree value))
            (rest.map fun entry => (entry.1, tree entry.2)) ∧
          Option.merge combine (held entry.1) (some entry.2) = some value := by
        simp only [List.map_cons, mergeItems, hheld entry.1 List.mem_cons_self]
        cases held entry.1 with
        | none => exact ⟨entry.2, rfl, rfl⟩
        | some value => exact ⟨combine value entry.2, by simp only [Option.map_some, hmerge], rfl⟩
      obtain ⟨value, hmerged, hvalue⟩ := hstep
      have hothers : ∀ k, k ≠ entry.1 →
          lookup (Dict.setItems items entry.1 (tree value)) k = lookup items k := by
        intro k hk
        rw [lookup_setItems, if_neg hk]
      obtain ⟨result, hresult, hlookup⟩ := ih _ nodup.2 fun k hk => by
        have hne : k ≠ entry.1 := fun heq => nodup.1 (heq ▸ hk)
        rw [hothers k hne, hheld k (List.mem_cons_of_mem _ hk)]
      refine ⟨result, hmerged.trans hresult, fun k => ?_⟩
      rw [hlookup, lookup_cons, List.map_cons]
      by_cases hk : k = entry.1
      · rw [if_neg (hk ▸ nodup.1), if_pos (List.mem_cons.mpr (.inl hk)), if_pos hk.symm, hk,
          hvalue, lookup_setItems, if_pos rfl]
        rfl
      · rw [hothers k hk, if_neg (Ne.symm hk)]
        simp only [List.mem_cons, hk, false_or]

end Embedding

end Nested

end Base
