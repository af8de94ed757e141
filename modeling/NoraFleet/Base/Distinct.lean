import Mathlib
import NoraFleet.Base.Keys
import NoraFleet.Base.Paths

/-!
# Keys that are distinct

No dictionary of a program has a key twice. What is listed in such a value is found at a path, and
what is set, merged or looped over has its keys distinct again.

* `distinct_setAt` — a value is set at a path;
* `distinct_deepOverlay` — two dictionaries are merged.
-/

namespace Base

namespace Json

mutual

/-- No dictionary inside a value has a key twice. -/
def Distinct : Json → Prop
  | .arr items => DistinctItems items
  | .obj members => (members.map Prod.fst).Nodup ∧ DistinctMembers members
  | _ => True

/-- The same, of a list. -/
def DistinctItems : List Json → Prop
  | [] => True
  | item :: rest => Distinct item ∧ DistinctItems rest

/-- The same, of the values of a dictionary. -/
def DistinctMembers : List (PyStr × Json) → Prop
  | [] => True
  | (_, value) :: rest => Distinct value ∧ DistinctMembers rest

end

mutual

/-- Whether keys are distinct. -/
def decideDistinct : (v : Json) → Decidable (Distinct v)
  | .arr items => decideDistinctItems items
  | .obj members =>
      haveI := decideDistinctMembers members
      inferInstanceAs (Decidable ((members.map Prod.fst).Nodup ∧ DistinctMembers members))
  | .null | .bool _ | .int _ | .float _ | .str _ => isTrue trivial

/-- The same, of a list. -/
def decideDistinctItems : (items : List Json) → Decidable (DistinctItems items)
  | [] => isTrue trivial
  | item :: rest =>
      haveI := decideDistinct item
      haveI := decideDistinctItems rest
      inferInstanceAs (Decidable (Distinct item ∧ DistinctItems rest))

/-- The same, of the values of a dictionary. -/
def decideDistinctMembers : (members : List (PyStr × Json)) → Decidable (DistinctMembers members)
  | [] => isTrue trivial
  | (_, value) :: rest =>
      haveI := decideDistinct value
      haveI := decideDistinctMembers rest
      inferInstanceAs (Decidable (Distinct value ∧ DistinctMembers rest))

end

instance : DecidablePred Distinct := decideDistinct

theorem distinctItems_iff {items : List Json} :
    DistinctItems items ↔ ∀ item ∈ items, Distinct item := by
  induction items with
  | nil => simp [DistinctItems]
  | cons item rest ih => rw [DistinctItems, ih, List.forall_mem_cons]

theorem distinctMembers_iff {members : Members} :
    DistinctMembers members ↔ ∀ member ∈ members, Distinct member.2 := by
  induction members with
  | nil => simp [DistinctMembers]
  | cons member rest ih => rw [DistinctMembers, ih, List.forall_mem_cons]

theorem distinct_arr {items : List Json} :
    Distinct (.arr items) ↔ ∀ item ∈ items, Distinct item := by
  rw [Distinct, distinctItems_iff]

theorem distinct_obj {members : Members} :
    Distinct (.obj members) ↔
      (members.map Prod.fst).Nodup ∧ ∀ member ∈ members, Distinct member.2 := by
  rw [Distinct, distinctMembers_iff]

/-! ## What is read of a value -/

theorem lookup_eq_some_iff {members : Members} (nodup : (members.map Prod.fst).Nodup)
    {key : PyStr} {v : Json} : lookup members key = some v ↔ (key, v) ∈ members :=
  Dict.find?_map_snd_eq_some nodup

theorem Distinct.lookup {members : Members} (h : Distinct (.obj members)) {key : PyStr} {v : Json}
    (hlookup : Json.lookup members key = some v) : Distinct v :=
  (distinct_obj.mp h).2 _ (mem_of_lookup hlookup)

theorem Distinct.atPath {v : Json} (h : Distinct v) {path : List PyStr} {w : Json}
    (hw : v.atPath path = some w) : Distinct w := by
  induction path generalizing v with
  | nil =>
      obtain rfl : v = w := by
        cases v <;> exact Option.some.inj hw
      exact h
  | cons key rest ih =>
      cases v with
      | obj members =>
          rw [atPath_obj] at hw
          obtain ⟨child, hchild, hrest⟩ := Option.bind_eq_some_iff.mp hw
          exact ih (h.lookup hchild) hrest
      | _ => cases hw

/-- What a loop goes through. -/
theorem Distinct.iterate {v : Json} (h : Distinct v) {items : List Json}
    (hitems : v.iterate = some items) : ∀ item ∈ items, Distinct item := by
  cases v with
  | arr entries =>
      obtain rfl := Option.some.inj hitems
      exact distinct_arr.mp h
  | str s =>
      obtain rfl := Option.some.inj hitems
      intro item hitem
      obtain ⟨c, -, rfl⟩ := List.mem_map.mp hitem
      trivial
  | obj members =>
      obtain rfl := Option.some.inj hitems
      intro item hitem
      obtain ⟨member, -, rfl⟩ := List.mem_map.mp hitem
      trivial
  | _ => cases hitems

/-! ## What is set in a dictionary -/

theorem mem_setItems {κ ν : Type*} [DecidableEq κ] {entries : List (κ × ν)} {key : κ} {v : ν}
    {entry : κ × ν} (h : entry ∈ Dict.setItems entries key v) :
    entry = (key, v) ∨ entry ∈ entries := by
  unfold Dict.setItems at h
  split at h
  · obtain ⟨old, hold, rfl⟩ := List.mem_map.mp h
    split
    · exact .inl rfl
    · exact .inr hold
  · rcases List.mem_append.mp h with hold | hnew
    · exact .inr hold
    · exact .inl (List.mem_singleton.mp hnew)

theorem nodup_setItems {κ ν : Type*} [DecidableEq κ] {entries : List (κ × ν)}
    (h : (entries.map Prod.fst).Nodup) (key : κ) (v : ν) :
    ((Dict.setItems entries key v).map Prod.fst).Nodup := by
  rw [Dict.setItems_keys]
  split
  · exact h
  · rename_i hnew
    exact List.nodup_append.mpr ⟨h, List.nodup_singleton key, fun other hother last hlast heq =>
      hnew (List.mem_singleton.mp hlast ▸ heq ▸ hother)⟩

theorem distinct_setItems {members : Members} (h : Distinct (.obj members)) (key : PyStr)
    {v : Json} (hv : Distinct v) : Distinct (.obj (Dict.setItems members key v)) := by
  rw [distinct_obj] at h ⊢
  refine ⟨nodup_setItems h.1 key v, fun member hmember => ?_⟩
  rcases mem_setItems hmember with rfl | hold
  · exact hv
  · exact h.2 member hold

/-- A part that is there, or an empty one. -/
theorem Distinct.partAt {target part : Members} (h : Distinct (.obj target)) {key : PyStr}
    (hpart : Json.partAt target key = some part) : Distinct (.obj part) := by
  rcases of_partAt hpart with hlookup | ⟨rfl, -⟩
  · exact h.lookup hlookup
  · exact distinct_obj.mpr ⟨List.nodup_nil, fun _ hmem => absurd hmem List.not_mem_nil⟩

theorem distinct_setAt {value : Json} (hvalue : Distinct value) (path : List PyStr)
    {target : Members} (h : Distinct (.obj target)) :
    Distinct (.obj (setAt value path target)) := by
  induction path generalizing target with
  | nil => exact h
  | cons first rest ih =>
      cases rest with
      | nil => exact distinct_setItems h first hvalue
      | cons second rest =>
          unfold setAt
          cases hpart : Json.partAt target first with
          | none => exact h
          | some part => exact distinct_setItems h first (ih (h.partAt hpart))

/-- The entries that come of pairs. -/
theorem distinct_ofPairs {pairs : List Json} (h : ∀ pair ∈ pairs, Distinct pair)
    {entries : List (Key × Json)} (hentries : ofPairs pairs = .ok entries) :
    ∀ entry ∈ entries, Distinct entry.2 := by
  unfold ofPairs at hentries
  refine rel_of_foldlM_eq_ok
    (R := fun seen next : List (Key × Json) =>
      (∀ entry ∈ seen, Distinct entry.2) → ∀ entry ∈ next, Distinct entry.2)
    (fun _ => id) (fun hfirst hlast hseen => hlast (hfirst hseen))
    (fun pair hpair seen next hnext hseen => ?_) hentries
    fun _ hmem => absurd hmem List.not_mem_nil
  split at hnext
  · cases hnext
  · rename_i key value hitems
    obtain ⟨name, -, rfl⟩ := exists_of_map_eq_ok hnext
    intro entry hentry
    rcases mem_setItems hentry with rfl | hold
    · exact (h pair hpair).iterate hitems value (by simp)
    · exact hseen entry hold
  · cases hnext

/-! ## Dictionaries that are merged -/

/-- A merge makes no key twice. -/
def KeepsDistinct (overlay : Members → Members → Members) : Prop :=
  ∀ basis other, Distinct (.obj basis) → Distinct (.obj other) →
    Distinct (.obj (overlay basis other))

theorem map_fst_overlayMembers (basis other : Members) :
    (overlayMembers basis other).map Prod.fst = basis.map Prod.fst := by
  induction basis with
  | nil => rw [overlayMembers]
  | cons member rest ih => rw [overlayMembers, List.map_cons, List.map_cons, ih]

/-- The keys of a merge are those of the first dictionary and the new ones of the second. -/
theorem nodup_overlay {basis other : Members} (hbasis : (basis.map Prod.fst).Nodup)
    (hother : (other.map Prod.fst).Nodup) :
    ((overlayMembers basis other ++ other.filter fun entry =>
      !(basis.map Prod.fst).contains entry.1).map Prod.fst).Nodup := by
  rw [List.map_append, map_fst_overlayMembers]
  refine List.nodup_append.mpr ⟨hbasis, ?_, ?_⟩
  · exact hother.sublist (List.filter_sublist.map Prod.fst)
  · rintro key hkey last hlast rfl
    obtain ⟨entry, hentry, rfl⟩ := List.mem_map.mp hlast
    have hnew := (List.mem_filter.mp hentry).2
    rw [Bool.not_eq_true', List.contains_eq_mem, decide_eq_false_iff_not] at hnew
    exact hnew hkey

mutual

theorem distinct_overlayValue : ∀ v w, Distinct v → Distinct w → Distinct (overlayValue v w)
  | .obj basis, .obj other, hv, hw => by
      rw [distinct_obj] at hv hw
      rw [overlayValue, distinct_obj, List.forall_mem_append]
      exact ⟨nodup_overlay hv.1 hw.1, distinct_overlayMembers basis other hv.2 hw.2,
        fun entry hentry => hw.2 entry (List.mem_filter.mp hentry).1⟩
  | .obj _, .null, _, hw | .obj _, .bool _, _, hw | .obj _, .int _, _, hw
  | .obj _, .float _, _, hw | .obj _, .str _, _, hw | .obj _, .arr _, _, hw => hw
  | .null, w, _, hw | .bool _, w, _, hw | .int _, w, _, hw | .float _, w, _, hw
  | .str _, w, _, hw | .arr _, w, _, hw => by
      cases w <;> exact hw

theorem distinct_overlayMembers : ∀ basis other : Members,
    (∀ member ∈ basis, Distinct member.2) → (∀ member ∈ other, Distinct member.2) →
      ∀ member ∈ overlayMembers basis other, Distinct member.2
  | [], other, _, _ => by
      rw [overlayMembers]
      exact fun _ hmem => absurd hmem List.not_mem_nil
  | (key, v) :: rest, other, hbasis, hother => by
      rw [List.forall_mem_cons] at hbasis
      rw [overlayMembers, List.forall_mem_cons]
      refine ⟨?_, distinct_overlayMembers rest other hbasis.2 hother⟩
      cases hlookup : lookup other key with
      | none => exact hbasis.1
      | some w => exact distinct_overlayValue v w hbasis.1 (hother _ (mem_of_lookup hlookup))

end

theorem distinct_deepOverlay : KeepsDistinct deepOverlay := by
  intro basis other hbasis hother
  rw [distinct_obj] at hbasis hother ⊢
  refine ⟨nodup_overlay hbasis.1 hother.1, ?_⟩
  show ∀ member ∈ _ ++ _, _
  rw [List.forall_mem_append]
  exact ⟨distinct_overlayMembers basis other hbasis.2 hother.2,
    fun entry hentry => hother.2 entry (List.mem_filter.mp hentry).1⟩

end Json

end Base
