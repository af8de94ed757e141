import NoraFleet.Base.Flow
import NoraFleet.Base.Json

/-!
# Keys of dictionaries

What makes a value the key of a dictionary: numbers and booleans that are equal are
the same key, and lists and dictionaries are none.

* `fromKeys_eq` — `dict.fromkeys` keeps each value once;
* `onceEach_append_onceEach` — and a union is not made larger by making it again.
-/

namespace Base

/-- A key. Every not-a-number of a document is one and the same object. -/
inductive Key where
  | none
  | text (s : PyStr)
  | number (place : WithBot (WithTop ℚ))
  | nan
  deriving DecidableEq

namespace Key

/-- The key that a value is; one that cannot be hashed is a `TypeError`. -/
def ofJson : Json → Except PyError Key
  | .null => .ok .none
  | .bool b => .ok (.number ((b.toNat : ℚ) : WithTop ℚ))
  | .int n => .ok (.number ((n : ℚ) : WithTop ℚ))
  | .float x =>
      match x.place with
      | some place => .ok (.number place)
      | Option.none => .ok .nan
  | .str s => .ok (.text s)
  | .arr _ | .obj _ => .error .typeError

theorem ofJson_eq_text {v : Json} {s : PyStr} (h : ofJson v = .ok (.text s)) : v = .str s := by
  cases v with
  | str t =>
      cases h
      rfl
  | float x =>
      unfold ofJson at h
      cases hplace : x.place <;> simp [hplace] at h
  | null => cases h
  | bool b => cases h
  | int n => cases h
  | arr items => cases h
  | obj members => cases h

/-- A value that can be hashed. -/
def IsHashable (v : Json) : Prop := ∃ key, ofJson v = .ok key

/-- The key of a value that can be hashed. -/
def of (v : Json) : Key := (ofJson v).toOption.getD .none

theorem IsHashable.ofJson_eq {v : Json} (h : IsHashable v) : ofJson v = .ok (of v) := by
  obtain ⟨key, hkey⟩ := h
  unfold of
  rw [hkey]
  rfl

end Key

/-! ## Each key once -/

section Once

variable {α κ : Type*} [DecidableEq κ] (key : α → κ)

/-- Values are added if their keys are new. -/
def addNew (seen values : List α) : List α :=
  values.foldl (fun seen value => if key value ∈ seen.map key then seen else seen ++ [value]) seen

/-- Each key once, where it first occurs. -/
def onceEach (values : List α) : List α := addNew key [] values

variable {key} {seen values : List α}

theorem addNew_append (seen first last : List α) :
    addNew key seen (first ++ last) = addNew key (addNew key seen first) last :=
  List.foldl_append

theorem addNew_cons (value : α) :
    addNew key seen (value :: values) =
      addNew key (if key value ∈ seen.map key then seen else seen ++ [value]) values := rfl

theorem addNew_of_mem (h : ∀ value ∈ values, key value ∈ seen.map key) :
    addNew key seen values = seen := by
  induction values with
  | nil => rfl
  | cons value rest ih =>
      rw [List.forall_mem_cons] at h
      rw [addNew_cons, if_pos h.1]
      exact ih h.2

theorem addNew_of_nodup (h : ((seen ++ values).map key).Nodup) :
    addNew key seen values = seen ++ values := by
  induction values generalizing seen with
  | nil => exact (List.append_nil seen).symm
  | cons value rest ih =>
      have hassoc : seen ++ value :: rest = seen ++ [value] ++ rest := by simp
      have hnew : key value ∉ seen.map key := by
        rw [List.map_append, List.nodup_append] at h
        exact fun hmem => h.2.2 _ hmem _ List.mem_cons_self rfl
      rw [addNew_cons, if_neg hnew, hassoc]
      rw [hassoc] at h
      exact ih h

/-- What is added are some of the values, after what was there, and no key twice. -/
theorem exists_addNew (key : α → κ) (seen values : List α) (h : (seen.map key).Nodup) :
    ∃ added, addNew key seen values = seen ++ added ∧ added ⊆ values ∧
      ((seen ++ added).map key).Nodup := by
  induction values generalizing seen with
  | nil => exact ⟨[], (List.append_nil seen).symm, List.nil_subset _, by rwa [List.append_nil]⟩
  | cons value rest ih =>
      rw [addNew_cons]
      by_cases hthere : key value ∈ seen.map key
      · rw [if_pos hthere]
        obtain ⟨added, hadded, hsubset, hnodup⟩ := ih seen h
        exact ⟨added, hadded, List.subset_cons_of_subset _ hsubset, hnodup⟩
      · rw [if_neg hthere]
        have hseen : ((seen ++ [value]).map key).Nodup := by
          rw [List.map_append, List.nodup_append]
          refine ⟨h, List.nodup_singleton _, fun first hfirst last hlast heq => hthere ?_⟩
          rw [List.map_singleton, List.mem_singleton] at hlast
          rwa [← hlast, ← heq]
        obtain ⟨added, hadded, hsubset, hnodup⟩ := ih (seen ++ [value]) hseen
        refine ⟨value :: added, ?_, List.cons_subset_cons _ hsubset, ?_⟩
        · rw [hadded, List.append_assoc]
          rfl
        · rwa [List.append_assoc] at hnodup

theorem onceEach_subset (values : List α) : onceEach key values ⊆ values := by
  obtain ⟨added, hadded, hsubset, -⟩ := exists_addNew key [] values List.nodup_nil
  unfold onceEach
  rwa [hadded]

theorem onceEach_of_nodup (h : (values.map key).Nodup) : onceEach key values = values :=
  addNew_of_nodup h

/-- A union is not made larger by making it again. -/
theorem onceEach_append_onceEach (key : α → κ) (first last : List α) :
    onceEach key (first ++ onceEach key (first ++ last)) = onceEach key (first ++ last) := by
  unfold onceEach
  obtain ⟨kept, hkept, -, hnodup⟩ := exists_addNew key [] first List.nodup_nil
  rw [List.nil_append] at hkept hnodup
  obtain ⟨added, hadded, -, hall⟩ := exists_addNew key kept last hnodup
  have hunion : addNew key [] (first ++ last) = kept ++ added := by
    rw [addNew_append, hkept, hadded]
  have hsame : addNew key kept kept = kept := addNew_of_mem fun value => List.mem_map_of_mem
  rw [hunion, addNew_append, hkept, addNew_append, hsame, addNew_of_nodup hall]

end Once

/-! ## Lists and dictionaries of keys -/

/-- `list(dict.fromkeys(values))`: each value once, where it first occurs. -/
def fromKeys (values : List Json) : Except PyError (List Json) :=
  (values.foldlM (fun (seen : List (Key × Json)) value =>
    (Key.ofJson value).map fun key =>
      if key ∈ seen.map Prod.fst then seen else seen ++ [(key, value)]) []).map
    (List.map Prod.snd)

/-- Each value is kept once. -/
theorem fromKeys_eq {values : List Json} (h : ∀ v ∈ values, Key.IsHashable v) :
    fromKeys values = .ok (onceEach Key.of values) := by
  have hkeys : ∀ seen : List Json, (seen.map fun v => (Key.of v, v)).map Prod.fst =
      seen.map Key.of := fun seen => List.map_map
  have hstep : ∀ v ∈ values, ∀ seen : List Json,
      ((Key.ofJson v).map fun key =>
        if key ∈ (seen.map fun v => (Key.of v, v)).map Prod.fst then seen.map fun v => (Key.of v, v)
        else (seen.map fun v => (Key.of v, v)) ++ [(key, v)]) =
      .ok ((if Key.of v ∈ seen.map Key.of then seen else seen ++ [v]).map fun v =>
        (Key.of v, v)) := by
    intro v hv seen
    rw [(h v hv).ofJson_eq]
    dsimp only [Except.map]
    rw [hkeys]
    by_cases hthere : Key.of v ∈ seen.map Key.of
    · rw [if_pos hthere, if_pos hthere]
    · rw [if_neg hthere, if_neg hthere, List.map_append]
      rfl
  unfold fromKeys
  rw [show ([] : List (Key × Json)) = ([] : List Json).map fun v => (Key.of v, v) from rfl,
    foldlM_eq_ok values hstep []]
  show Except.ok _ = _
  rw [List.map_map]
  exact congrArg Except.ok (List.map_id _)

/-- Only what can be hashed becomes a key. -/
theorem exists_fromKeys_iff (values : List Json) :
    (∃ keys, fromKeys values = .ok keys) ↔ ∀ v ∈ values, Key.IsHashable v := by
  unfold fromKeys
  rw [exists_map_ok_iff]
  refine exists_foldlM_ok_iff (fun seen v => ?_) values []
  exact exists_map_ok_iff

/-- `dict(pairs)` of what a loop goes through: each is a pair of a key and a value. -/
def ofPairs (pairs : List Json) : Except PyError (List (Key × Json)) :=
  pairs.foldlM (fun (entries : List (Key × Json)) pair =>
    match pair.iterate with
    | none => .error .typeError
    | some [key, value] => (Key.ofJson key).map fun key => Dict.setItems entries key value
    | some _ => .error .valueError) []

/-- A pair of which the first can be a key. -/
def IsEntry (pair : Json) : Prop :=
  ∃ key value, pair.iterate = some [key, value] ∧ Key.IsHashable key

theorem exists_ofPairs_iff (pairs : List Json) :
    (∃ entries, ofPairs pairs = .ok entries) ↔ ∀ pair ∈ pairs, IsEntry pair := by
  refine exists_foldlM_ok_iff (fun entries pair => ?_) pairs []
  unfold IsEntry
  split
  · rename_i hpair
    simp [hpair]
  · rename_i key value hpair
    rw [exists_map_ok_iff, hpair]
    constructor
    · intro h
      exact ⟨key, value, rfl, h⟩
    · rintro ⟨k, v, heq, h⟩
      cases heq
      exact h
  · rename_i items hnot hpair
    constructor
    · rintro ⟨entries', h⟩
      cases h
    · rintro ⟨key, value, heq, -⟩
      rw [hpair] at heq
      exact (hnot key value (Option.some.inj heq)).elim

end Base
