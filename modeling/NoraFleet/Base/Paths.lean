import Mathlib
import NoraFleet.Base.Layers

/-!
# Values at paths

A value is set at a path of keys through the dictionaries above it, which are made where they are
missing. Nothing is set below a value that is no dictionary.

* `atPath_setAt` — what is set is there;
* `valueAt_setAt` — everything else stays, but for the dictionaries that are made;
* `sameValue_setAt` — nothing changes where what is set was there.
-/

namespace Base

namespace Json

/-- The dictionary under a key, or an empty one to be made there. -/
def partAt (target : Members) (key : PyStr) : Option Members :=
  match (lookup target key).getD .null with
  | .null => some []
  | .obj part => some part
  | _ => none

/-- A value is set at a path, if there are only dictionaries above it. -/
def setAt (value : Json) : List PyStr → Members → Members
  | [], target => target
  | [key], target => Dict.setItems target key value
  | first :: second :: rest, target =>
      match partAt target first with
      | none => target
      | some part => Dict.setItems target first (.obj (setAt value (second :: rest) part))

/-- Above a path there are only dictionaries, or nothing yet. -/
def IsFree : List PyStr → Members → Prop
  | [], _ | [_], _ => True
  | first :: second :: rest, target =>
      ∃ part, partAt target first = some part ∧ IsFree (second :: rest) part

theorem partAt_obj {target part : Members} {key : PyStr}
    (h : lookup target key = some (.obj part)) :
    partAt target key = some part := by
  rw [partAt, h]
  rfl

/-- What is under a key is a dictionary, or there is nothing yet. -/
theorem of_partAt {target part : Members} {key : PyStr} (h : partAt target key = some part) :
    lookup target key = some (.obj part) ∨
      part = [] ∧ (lookup target key = none ∨ lookup target key = some .null) := by
  unfold partAt at h
  cases hlookup : lookup target key with
  | none =>
      rw [hlookup] at h
      obtain rfl := Option.some.inj h
      exact .inr ⟨rfl, .inl rfl⟩
  | some value =>
      rw [hlookup] at h
      cases value with
      | null =>
          obtain rfl := Option.some.inj h
          exact .inr ⟨rfl, .inr rfl⟩
      | obj members =>
          obtain rfl := Option.some.inj h
          exact .inl rfl
      | _ => cases h

theorem setAt_of_part (value : Json) {target part : Members} {first : PyStr}
    (h : partAt target first = some part) (second : PyStr) (rest : List PyStr) :
    setAt value (first :: second :: rest) target =
      Dict.setItems target first (.obj (setAt value (second :: rest) part)) := by
  rw [setAt, h]

theorem setAt_of_not_isFree (value : Json) {path : List PyStr} (hlength : path.length ≤ 2)
    {target : Members} (h : ¬IsFree path target) : setAt value path target = target := by
  cases path with
  | nil => rfl
  | cons first rest =>
      cases rest with
      | nil => exact absurd trivial h
      | cons second rest =>
          obtain rfl : rest = [] := by
            rw [List.length_cons, List.length_cons] at hlength
            exact List.eq_nil_of_length_eq_zero (by omega)
          have hnone : partAt target first = none := by
            by_contra hsome
            obtain ⟨part, hpart⟩ := Option.ne_none_iff_exists'.mp hsome
            exact h ⟨part, hpart, trivial⟩
          rw [setAt, hnone]

/-- Other keys stay. -/
theorem lookup_setAt_of_ne (value : Json) {first key : PyStr} (hne : key ≠ first)
    (rest : List PyStr) (target : Members) :
    lookup (setAt value (first :: rest) target) key = lookup target key := by
  cases rest with
  | nil => exact (lookup_setItems _ _ _ _).trans (if_neg hne)
  | cons second rest =>
      unfold setAt
      cases partAt target first with
      | none => rfl
      | some part => exact (lookup_setItems _ _ _ _).trans (if_neg hne)

/-- What is set is there. -/
theorem atPath_setAt (value : Json) {path : List PyStr} (hpath : path ≠ []) {target : Members}
    (h : IsFree path target) : (Json.obj (setAt value path target)).atPath path = some value := by
  induction path generalizing target with
  | nil => exact absurd rfl hpath
  | cons first rest ih =>
      cases rest with
      | nil =>
          rw [setAt, atPath_obj, lookup_setItems, if_pos rfl]
          cases value <;> rfl
      | cons second rest =>
          obtain ⟨part, hpart, hfree⟩ := h
          rw [setAt_of_part value hpart, atPath_obj, lookup_setItems, if_pos rfl]
          exact ih (List.cons_ne_nil _ _) hfree

theorem isFree_of_atPath {path : List PyStr} {target : Members} {value : Json}
    (h : (Json.obj target).atPath path = some value) : IsFree path target := by
  induction path generalizing target with
  | nil => trivial
  | cons first rest ih =>
      cases rest with
      | nil => trivial
      | cons second rest =>
          rw [atPath_obj] at h
          obtain ⟨child, hchild, hrest⟩ := Option.bind_eq_some_iff.mp h
          cases child with
          | obj part => exact ⟨part, partAt_obj hchild, ih hrest⟩
          | _ => cases hrest

theorem atPath_of_not_isFree {path : List PyStr} {target : Members} (h : ¬IsFree path target) :
    (Json.obj target).atPath path = none := by
  by_contra hsome
  obtain ⟨value, hvalue⟩ := Option.ne_none_iff_exists'.mp hsome
  exact h (isFree_of_atPath hvalue)

/-- What is set below something that is set is a part of it. -/
theorem setAt_append (value : Json) (key : PyStr) (members : Members) {path : List PyStr}
    (hpath : path ≠ []) {target : Members} (h : IsFree path target) :
    setAt value (path ++ [key]) (setAt (.obj members) path target) =
      setAt (.obj (Dict.setItems members key value)) path target := by
  induction path generalizing target with
  | nil => exact absurd rfl hpath
  | cons first rest ih =>
      cases rest with
      | nil =>
          have hpart : partAt (Dict.setItems target first (.obj members)) first = some members :=
            partAt_obj ((lookup_setItems _ _ _ _).trans (if_pos rfl))
          exact (setAt_of_part value hpart key []).trans (setItems_setItems _ _ _ _)
      | cons second rest =>
          obtain ⟨part, hpart, hfree⟩ := h
          have hagain : partAt (Dict.setItems target first
              (.obj (setAt (.obj members) (second :: rest) part))) first =
                some (setAt (.obj members) (second :: rest) part) :=
            partAt_obj ((lookup_setItems _ _ _ _).trans (if_pos rfl))
          rw [setAt_of_part (.obj members) hpart, setAt_of_part _ hpart]
          refine (setAt_of_part value hagain second (rest ++ [key])).trans ?_
          rw [setItems_setItems, ← List.cons_append, ih (List.cons_ne_nil _ _) hfree]

/-- Everything else stays, but what is above it may be made. -/
theorem valueAt_setAt (value : Json) {path : List PyStr} (target : Members) {other : List PyStr}
    (hother : ¬ path <+: other) :
    (Json.obj (setAt value path target)).valueAt other = (Json.obj target).valueAt other ∨
      (other <+: path ∧ ((Json.obj target).valueAt other = none ∨
          (Json.obj target).valueAt other = some .null) ∧
        (Json.obj (setAt value path target)).valueAt other = some (.obj [])) := by
  -- both paths are followed until they part
  induction other generalizing path target with
  | nil => exact .inl rfl
  | cons key other ih =>
      cases path with
      | nil => exact absurd List.nil_prefix hother
      | cons first rest =>
          by_cases hkey : key = first
          · subst hkey
            cases rest with
            | nil => exact absurd (List.prefix_append [key] other) hother
            | cons second rest =>
                unfold setAt
                cases hpart : partAt target key with
                | none => exact .inl rfl
                | some part =>
                    dsimp only
                    rw [valueAt_obj, lookup_setItems, if_pos rfl, valueAt_obj]
                    have hbelow : ¬ second :: rest <+: other :=
                      fun hstarts => hother (List.cons_prefix_cons.mpr ⟨rfl, hstarts⟩)
                    rcases of_partAt hpart with hlookup | ⟨rfl, hnothing⟩
                    · -- there is a dictionary already
                      rw [hlookup]
                      rcases ih part hbelow with hsame | ⟨hstarts, hbefore, hafter⟩
                      · exact .inl hsame
                      · exact .inr ⟨List.cons_prefix_cons.mpr ⟨rfl, hstarts⟩, hbefore, hafter⟩
                    · -- there is nothing yet, or null
                      have hbefore : (lookup target key).bind (fun child => child.valueAt other) =
                          if other = [] then (lookup target key).map outline else none := by
                        rcases hnothing with hlookup | hlookup
                        · rw [hlookup]
                          split <;> rfl
                        · rw [hlookup]
                          cases other with
                          | nil => rfl
                          | cons next other => rfl
                      rw [hbefore]
                      cases other with
                      | nil =>
                          right
                          refine ⟨List.cons_prefix_cons.mpr ⟨rfl, List.nil_prefix⟩, ?_, rfl⟩
                          rcases hnothing with hlookup | hlookup
                          · exact .inl (by rw [hlookup]; rfl)
                          · exact .inr (by rw [hlookup]; rfl)
                      | cons next other =>
                          rw [if_neg (List.cons_ne_nil _ _)]
                          rcases ih [] hbelow with hsame | ⟨hstarts, -, hafter⟩
                          · exact .inl hsame
                          · exact .inr ⟨List.cons_prefix_cons.mpr ⟨rfl, hstarts⟩, .inl rfl, hafter⟩
          · left
            rw [valueAt_obj, lookup_setAt_of_ne value hkey, ← valueAt_obj]

/-- Nothing changes where what is set is what was there. -/
theorem sameValue_setAt {value old : Json} {path : List PyStr} {target : Members}
    (hpath : path ≠ [])
    (hold : (Json.obj target).atPath path = some old) (hsame : SameValue value old) :
    SameValue (.obj (setAt value path target)) (.obj target) := by
  intro other
  by_cases hbelow : path <+: other
  · obtain ⟨rest, rfl⟩ := hbelow
    rw [valueAt_append, valueAt_append, atPath_setAt value hpath (isFree_of_atPath hold), hold]
    exact hsame rest
  · rcases valueAt_setAt value target hbelow with heq | ⟨⟨rest, rfl⟩, hnothing, -⟩
    · exact heq
    · -- above a value there are dictionaries
      have hrest : rest ≠ [] := by
        rintro rfl
        exact hbelow (by rw [List.append_nil])
      have habove : (Json.obj target).valueAt other = some (.obj []) := by
        have hvalue : (Json.obj target).valueAt (other ++ rest) = some old.outline := by
          rw [valueAt, hold]
          rfl
        exact valueAt_above hvalue hrest
      rw [habove] at hnothing
      rcases hnothing with hnone | hnull
      · cases hnone
      · cases hnull

end Json

end Base
