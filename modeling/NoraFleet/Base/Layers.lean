import Mathlib
import NoraFleet.Base.Json

/-!
# Layers of dictionaries

Dictionaries are merged deeply: a key of the second one wins, unless both have
dictionaries under it, which are merged in turn. Of dictionaries laid over each other,
what is found at a path of keys is said by the topmost one that says anything about the
path: that has a value there, or a value above it that is no dictionary.

* `valueAt_overlay` — what is found in two layers;
* `Covers.sameValue` — a layer that has nothing new to say changes nothing;
* `Climbs.overlay` — what is found where the layers are nested the other way, each laid
  under what was merged so far.
-/

namespace Base

namespace Json

/-- The members of an object. -/
abbrev Members := List (PyStr × Json)

/-! ## What a value says about a path -/

/-- A value, or that it is a dictionary. -/
def outline : Json → Json
  | .obj _ => .obj []
  | v => v

/-- What is found at a path of keys. -/
def valueAt (v : Json) (path : List PyStr) : Option Json := (v.atPath path).map outline

/-- What a value says about a path: nothing, where a key is missing; that nothing can be
there, where a value above it is no dictionary; or what is there. -/
def speaks : Json → List PyStr → Option (Option Json)
  | v, [] => some (some v.outline)
  | .obj members, key :: rest =>
      match lookup members key with
      | some child => child.speaks rest
      | none => none
  | _, _ :: _ => some none

@[simp] theorem speaks_nil (v : Json) : v.speaks [] = some (some v.outline) := by
  cases v <;> rfl

theorem speaks_obj (members : Members) (key : PyStr) (rest : List PyStr) :
    (Json.obj members).speaks (key :: rest) =
      (lookup members key).bind fun child => child.speaks rest := by
  show (match lookup members key with
    | some child => child.speaks rest
    | none => none) = _
  cases lookup members key with
  | none => rfl
  | some child => rfl

theorem speaks_of_ne_obj {v : Json} (h : ∀ members, v ≠ .obj members) (key : PyStr)
    (rest : List PyStr) : v.speaks (key :: rest) = some none := by
  cases v with
  | obj members => exact absurd rfl (h members)
  | _ => rfl

theorem valueAt_eq (v : Json) (path : List PyStr) : v.valueAt path = (v.speaks path).getD none := by
  induction path generalizing v with
  | nil =>
      rw [speaks_nil]
      cases v <;> rfl
  | cons key rest ih =>
      cases v with
      | obj members =>
          rw [valueAt, atPath_obj, speaks_obj]
          cases lookup members key with
          | none => rfl
          | some child => exact ih child
      | _ => rfl

theorem valueAt_obj (members : Members) (key : PyStr) (rest : List PyStr) :
    (Json.obj members).valueAt (key :: rest) =
      (lookup members key).bind fun child => child.valueAt rest := by
  unfold valueAt
  rw [atPath_obj, Option.map_bind]
  rfl

theorem valueAt_append (v : Json) (first rest : List PyStr) :
    v.valueAt (first ++ rest) = (v.atPath first).bind fun w => w.valueAt rest := by
  unfold valueAt
  rw [atPath_append, Option.map_bind]
  rfl

theorem valueAt_eq_some_iff {v x : Json} {path : List PyStr} :
    v.valueAt path = some x ↔ v.speaks path = some (some x) := by
  rw [valueAt_eq]
  rcases v.speaks path with _ | _ | y <;> simp

/-- Above what is found there are dictionaries. -/
theorem valueAt_above {v x : Json} {above below : List PyStr}
    (h : v.valueAt (above ++ below) = some x) (hbelow : below ≠ []) :
    v.valueAt above = some (.obj []) := by
  obtain ⟨key, rest, rfl⟩ := List.exists_cons_of_ne_nil hbelow
  obtain ⟨found, hfound, -⟩ := Option.map_eq_some_iff.mp h
  rw [atPath_append] at hfound
  obtain ⟨w, hw, hrest⟩ := Option.bind_eq_some_iff.mp hfound
  unfold valueAt
  rw [hw]
  cases w with
  | obj members => rfl
  | _ => cases hrest

/-- A path is blocked by a value above it that is no dictionary. -/
theorem speaks_blocked_iff {v : Json} {path : List PyStr} :
    v.speaks path = some none ↔
      ∃ above below x, path = above ++ below ∧ below ≠ [] ∧ v.valueAt above = some x ∧
        x ≠ .obj [] := by
  induction path generalizing v with
  | nil =>
      rw [speaks_nil]
      refine iff_of_false (by simp) ?_
      rintro ⟨above, below, x, hpath, hbelow, -⟩
      exact hbelow (List.append_eq_nil_iff.mp hpath.symm).2
  | cons key rest ih =>
      by_cases hobj : ∃ members, v = .obj members
      · obtain ⟨members, rfl⟩ := hobj
        rw [speaks_obj]
        constructor
        · intro h
          obtain ⟨child, hchild, hspeaks⟩ := Option.bind_eq_some_iff.mp h
          obtain ⟨above, below, x, rfl, hbelow, hvalue, hx⟩ := ih.mp hspeaks
          refine ⟨key :: above, below, x, rfl, hbelow, ?_, hx⟩
          rw [valueAt_obj, hchild]
          exact hvalue
        · rintro ⟨above, below, x, hpath, hbelow, hvalue, hx⟩
          cases above with
          | nil =>
              obtain rfl := Option.some.inj hvalue
              exact absurd rfl hx
          | cons first above =>
              obtain ⟨rfl, rfl⟩ := List.cons.inj hpath
              rw [valueAt_obj] at hvalue
              obtain ⟨child, hchild, hvalue⟩ := Option.bind_eq_some_iff.mp hvalue
              rw [hchild]
              exact ih.mpr ⟨above, below, x, rfl, hbelow, hvalue, hx⟩
      · have hleaf : ∀ members, v ≠ .obj members := fun members h => hobj ⟨members, h⟩
        refine iff_of_true (speaks_of_ne_obj hleaf key rest) ⟨[], key :: rest, v.outline, rfl,
          by simp, ?_, ?_⟩
        · cases v <;> rfl
        · cases v with
          | obj members => exact absurd rfl (hleaf members)
          | _ => simp [outline]

theorem speaks_of_blocked {v x : Json} {path above below : List PyStr}
    (hpath : path = above ++ below) (hbelow : below ≠ []) (hvalue : v.valueAt above = some x)
    (hx : x ≠ .obj []) : v.speaks path = some none :=
  speaks_blocked_iff.mpr ⟨above, below, x, hpath, hbelow, hvalue, hx⟩

/-! ## Two layers -/

/-- What two dictionaries have together under a key. -/
def overlaid (overlay : Members → Members → Members) : Option Json → Option Json → Option Json
  | basis, none => basis
  | some (.obj basis), some (.obj other) => some (.obj (overlay basis other))
  | _, some v => some v

/-- A function merges dictionaries deeply, and the second one wins. -/
structure DeepMerge (overlay : Members → Members → Members) : Prop where
  lookup : ∀ basis other key, Json.lookup (overlay basis other) key =
    overlaid overlay (Json.lookup basis key) (Json.lookup other key)
  entries : ∀ basis other, ∀ entry ∈ overlay basis other,
    entry ∈ basis ∨ entry ∈ other ∨ ∃ members, entry.2 = .obj members

/-- In two layers one finds what the upper one says, and if it says nothing, what the
lower one does. -/
theorem valueAt_overlay {overlay : Members → Members → Members} (h : DeepMerge overlay)
    (basis other : Members) {path : List PyStr} (hpath : path ≠ []) :
    (Json.obj (overlay basis other)).valueAt path =
      (((Json.obj other).speaks path).or ((Json.obj basis).speaks path)).getD none := by
  rw [valueAt_eq]
  induction path generalizing basis other with
  | nil => exact absurd rfl hpath
  | cons key rest ih =>
      rw [speaks_obj, speaks_obj, speaks_obj, h.lookup]
      cases hother : Json.lookup other key with
      | none =>
          cases Json.lookup basis key <;> rfl
      | some upper =>
          cases hbasis : Json.lookup basis key with
          | none =>
              have hoverlaid : overlaid overlay none (some upper) = some upper := by
                cases upper <;> rfl
              rw [hoverlaid]
              show (upper.speaks rest).getD none = ((upper.speaks rest).or none).getD none
              rw [Option.or_none]
          | some lower =>
              -- only two dictionaries are merged; another value below is replaced
              by_cases hobjs : (∃ m, upper = .obj m) ∧ ∃ m, lower = .obj m
              · obtain ⟨⟨upperMembers, rfl⟩, lowerMembers, rfl⟩ := hobjs
                show ((Json.obj (overlay lowerMembers upperMembers)).speaks rest).getD none = _
                cases rest with
                | nil =>
                    rw [speaks_nil]
                    rfl
                | cons next rest => exact ih lowerMembers upperMembers (by simp)
              · have hoverlaid : overlaid overlay (some lower) (some upper) = some upper := by
                  cases upper <;> cases lower <;>
                    first | rfl | exact absurd ⟨⟨_, rfl⟩, _, rfl⟩ hobjs
                rw [hoverlaid]
                show (upper.speaks rest).getD none =
                    ((upper.speaks rest).or (lower.speaks rest)).getD none
                cases hspeaks : upper.speaks rest with
                | some said => rfl
                | none =>
                    -- the upper value is a dictionary, so the lower one is not
                    rw [Option.none_or]
                    cases rest with
                    | nil =>
                        rw [speaks_nil] at hspeaks
                        cases hspeaks
                    | cons next rest =>
                        have hupper : ∃ m, upper = .obj m := by
                          cases upper with
                          | obj m => exact ⟨m, rfl⟩
                          | _ => cases hspeaks
                        rw [speaks_of_ne_obj fun m hm => hobjs ⟨hupper, m, hm⟩]
                        rfl

/-! ## A layer that is covered -/

/-- What a layer below has to say is said by a dictionary already. -/
def Covers (upper lower : Members) : Prop :=
  ∀ path, path ≠ [] → (Json.obj upper).speaks path = none → (Json.obj lower).valueAt path = none

/-- Two values are the same, up to the order of members. -/
def SameValue (v w : Json) : Prop := ∀ path, v.valueAt path = w.valueAt path

theorem covers_self (members : Members) : Covers members members := by
  intro path _ hsilent
  rw [valueAt_eq, hsilent]
  rfl

/-- Where two layers say nothing, the upper one does not. -/
theorem speaks_of_overlay {overlay : Members → Members → Members} (h : DeepMerge overlay)
    {lower upper : Members} {path : List PyStr} (hpath : path ≠ [])
    (hsilent : (Json.obj (overlay lower upper)).speaks path = none) :
    (Json.obj upper).speaks path = none := by
  cases hupper : (Json.obj upper).speaks path with
  | none => rfl
  | some said =>
      exfalso
      cases said with
      | some x =>
          have hvalue := valueAt_overlay h lower upper hpath
          rw [hupper, Option.some_or, Option.getD_some, valueAt_eq_some_iff, hsilent] at hvalue
          cases hvalue
      | none =>
          -- a value above that is no dictionary is in the merged dictionary, too
          obtain ⟨above, below, x, hsplit, hbelow, hvalue, hx⟩ := speaks_blocked_iff.mp hupper
          have habove : above ≠ [] := by
            rintro rfl
            obtain rfl := Option.some.inj hvalue
            exact hx rfl
          have hmerged := valueAt_overlay h lower upper habove
          rw [valueAt_eq_some_iff.mp hvalue, Option.some_or, Option.getD_some] at hmerged
          rw [speaks_of_blocked hsplit hbelow hmerged hx] at hsilent
          cases hsilent

theorem covers_overlay {overlay : Members → Members → Members} (h : DeepMerge overlay)
    (lower upper : Members) : Covers (overlay lower upper) lower := by
  intro path hpath hsilent
  have hvalue := valueAt_overlay h lower upper hpath
  rw [speaks_of_overlay h hpath hsilent, Option.none_or, ← valueAt_eq] at hvalue
  rw [← hvalue, valueAt_eq, hsilent]
  rfl

/-- A layer that is covered stays so. -/
theorem Covers.overlay {overlay : Members → Members → Members} (hoverlay : DeepMerge overlay)
    {upper lower : Members} (h : Covers upper lower) (other : Members) :
    Covers (overlay other upper) lower :=
  fun path hpath hsilent => h path hpath (speaks_of_overlay hoverlay hpath hsilent)

theorem Covers.setItems {upper lower : Members} (h : Covers upper lower) (field : PyStr)
    (items : List Json) : Covers (Dict.setItems upper field (.arr items)) lower := by
  intro path hpath hsilent
  cases path with
  | nil => exact absurd rfl hpath
  | cons key rest =>
      rw [speaks_obj, lookup_setItems] at hsilent
      by_cases hkey : key = field
      · rw [if_pos hkey] at hsilent
        cases rest <;> cases hsilent
      · rw [if_neg hkey, ← speaks_obj] at hsilent
        exact h (key :: rest) hpath hsilent

/-- Merging a layer that is covered changes nothing. -/
theorem Covers.sameValue {overlay : Members → Members → Members} (hoverlay : DeepMerge overlay)
    {upper lower : Members} (h : Covers upper lower) :
    SameValue (.obj (overlay lower upper)) (.obj upper) := by
  intro path
  by_cases hpath : path = []
  · subst hpath
    rfl
  · rw [valueAt_overlay hoverlay lower upper hpath, valueAt_eq (.obj upper)]
    cases hupper : (Json.obj upper).speaks path with
    | some said => rfl
    | none =>
        have hlower := h path hpath hupper
        rw [valueAt_eq] at hlower
        rw [Option.none_or, hlower]
        rfl

/-! ## Many layers -/

/-- What the topmost layer that says something about a path says; the layers are listed
from the top. -/
def mostSpecific (layers : List Members) (path : List PyStr) : Option Json :=
  (layers.findSome? fun layer => (Json.obj layer).speaks path).getD none

theorem mostSpecific_cons (layer : Members) (layers : List Members) (path : List PyStr) :
    mostSpecific (layer :: layers) path =
      ((Json.obj layer).speaks path).getD (mostSpecific layers path) := by
  unfold mostSpecific
  rw [List.findSome?_cons]
  cases (Json.obj layer).speaks path <;> rfl

/-- The value that the lowest layer with a value at a path has there. -/
def nearestEnd : List Members → List PyStr → Option Json
  | [], _ => none
  | layer :: layers, path => (nearestEnd layers path).or ((Json.obj layer).valueAt path)

/-- Above a path, the lowest layers with a value have dictionaries. -/
def DictsAbove (layers : List Members) (path : List PyStr) : Prop :=
  ∀ above below, path = above ++ below → above ≠ [] → below ≠ [] →
    nearestEnd layers above = some (.obj [])

/-- What is found in a dictionary is what the lowest layers have: the dictionary is the
first layer laid under what the others make, and so on. -/
def Climbs (merged : Members) (layers : List Members) : Prop :=
  ∀ path, path ≠ [] → ∀ x, (Json.obj merged).valueAt path = some x ↔
    DictsAbove layers path ∧ nearestEnd layers path = some x

theorem exists_nearestEnd_above {layers : List Members} {above below : List PyStr} {x : Json}
    (h : nearestEnd layers (above ++ below) = some x) :
    ∃ y, nearestEnd layers above = some y := by
  by_cases hbelow : below = []
  · rw [hbelow, List.append_nil] at h
    exact ⟨x, h⟩
  · induction layers generalizing x with
    | nil => cases h
    | cons layer layers ih =>
        unfold nearestEnd at h ⊢
        rcases Option.or_eq_some_iff.mp h with hrest | ⟨-, hlayer⟩
        · obtain ⟨y, hy⟩ := ih hrest
          rw [hy]
          exact ⟨y, rfl⟩
        · rw [valueAt_above hlayer hbelow]
          cases nearestEnd layers above with
          | none => exact ⟨_, rfl⟩
          | some y => exact ⟨y, rfl⟩

theorem climbs_nil : Climbs [] [] := by
  intro path hpath x
  obtain ⟨key, rest, rfl⟩ := List.exists_cons_of_ne_nil hpath
  refine iff_of_false (fun h => ?_) fun h => ?_
  · cases h
  · cases h.2

theorem climbs_singleton (layer : Members) : Climbs layer [layer] := by
  intro path hpath x
  unfold nearestEnd nearestEnd
  constructor
  · intro h
    refine ⟨?_, h⟩
    rintro above below rfl - hbelow
    unfold nearestEnd nearestEnd
    exact valueAt_above h hbelow
  · intro h
    exact h.2

/-- Where what is merged so far says nothing about a path, none of the lowest layers has
anything but dictionaries above it. -/
theorem Climbs.nearestEnd_above {merged : Members} {layers : List Members}
    (h : Climbs merged layers) {path : List PyStr} (hsilent : (Json.obj merged).speaks path = none)
    {above below : List PyStr} (hpath : path = above ++ below) (habove : above ≠ [])
    (hbelow : below ≠ []) {y : Json} (hy : nearestEnd layers above = some y) : y = .obj [] := by
  induction hlength : above.length using Nat.strong_induction_on generalizing above below y with
  | _ n ih =>
      by_contra hne
      have hdicts : DictsAbove layers above := by
        intro first second hsplit hfirst hsecond
        obtain ⟨z, hz⟩ := exists_nearestEnd_above (hsplit ▸ hy)
        have hshorter : first.length < n := by
          have hsome := List.length_pos_of_ne_nil hsecond
          rw [← hlength, hsplit, List.length_append]
          omega
        have hpath' : path = first ++ (second ++ below) := by
          rw [hpath, hsplit, List.append_assoc]
        rw [hz, ih first.length hshorter hpath' hfirst (by simp [hbelow]) hz rfl]
      have hvalue := (h above habove y).mpr ⟨hdicts, hy⟩
      rw [speaks_of_blocked hpath hbelow hvalue hne] at hsilent
      cases hsilent

/-- A layer laid under what the others make. -/
theorem Climbs.overlay {overlay : Members → Members → Members} (hoverlay : DeepMerge overlay)
    {merged : Members} {layers : List Members} (h : Climbs merged layers) (layer : Members) :
    Climbs (overlay layer merged) (layer :: layers) := by
  intro path hpath x
  rw [valueAt_overlay hoverlay layer merged hpath]
  have hcons : ∀ at' : List PyStr, nearestEnd (layer :: layers) at' =
      (nearestEnd layers at').or ((Json.obj layer).valueAt at') := fun _ => rfl
  cases hspeaks : (Json.obj merged).speaks path with
  | some said =>
      rw [Option.some_or, Option.getD_some]
      cases said with
      | some z =>
          -- what was merged so far has a value
          obtain ⟨hdicts, hz⟩ := (h path hpath z).mp (valueAt_eq_some_iff.mpr hspeaks)
          have hdicts' : DictsAbove (layer :: layers) path := by
            intro above below hsplit habove hbelow
            rw [hcons, hdicts above below hsplit habove hbelow]
            rfl
          rw [hcons, hz, Option.some_or]
          exact ⟨fun hx => ⟨hdicts', hx⟩, fun hx => hx.2⟩
      | none =>
          -- it has a value above that is no dictionary
          refine iff_of_false (by simp) ?_
          rintro ⟨hdicts, -⟩
          obtain ⟨above, below, y, hsplit, hbelow, hvalue, hy⟩ := speaks_blocked_iff.mp hspeaks
          have habove : above ≠ [] := by
            rintro rfl
            obtain rfl := Option.some.inj hvalue
            exact hy rfl
          have hend := ((h above habove y).mp hvalue).2
          have hdict := hdicts above below hsplit habove hbelow
          rw [hcons, hend, Option.some_or] at hdict
          exact hy (Option.some.inj hdict)
  | none =>
      -- it says nothing, and the layer below is asked
      rw [Option.none_or, ← valueAt_eq]
      have hsilent : nearestEnd layers path = none := by
        by_contra hsome
        obtain ⟨z, hz⟩ := Option.ne_none_iff_exists'.mp hsome
        have hdicts : DictsAbove layers path := by
          intro above below hsplit habove hbelow
          obtain ⟨y, hy⟩ := exists_nearestEnd_above (hsplit ▸ hz)
          rw [hy, h.nearestEnd_above hspeaks hsplit habove hbelow hy]
        have hvalue := valueAt_eq_some_iff.mp ((h path hpath z).mpr ⟨hdicts, hz⟩)
        rw [hspeaks] at hvalue
        cases hvalue
      rw [hcons, hsilent, Option.none_or]
      refine ⟨fun hx => ⟨?_, hx⟩, fun hx => hx.2⟩
      intro above below hsplit habove hbelow
      rw [hcons, valueAt_above (hsplit ▸ hx) hbelow]
      cases hend : nearestEnd layers above with
      | none => rfl
      | some y =>
          rw [h.nearestEnd_above hspeaks hsplit habove hbelow hend]
          rfl

/-! ## A deep merge -/

mutual

/-- A value laid over another. -/
def overlayValue : Json → Json → Json
  | .obj basis, .obj other =>
      .obj (overlayMembers basis other ++
        other.filter fun entry => !(basis.map Prod.fst).contains entry.1)
  | _, v => v

/-- The members of the lower dictionary, with what the upper one has for them. -/
def overlayMembers : List (PyStr × Json) → List (PyStr × Json) → List (PyStr × Json)
  | [], _ => []
  | (key, v) :: rest, other =>
      (key, match lookup other key with
        | none => v
        | some w => overlayValue v w) :: overlayMembers rest other

end

/-- The lower keys stay in their places, and the new ones follow. -/
def deepOverlay (basis other : Members) : Members :=
  overlayMembers basis other ++
    other.filter fun entry => !(basis.map Prod.fst).contains entry.1

theorem overlaid_some (lower upper : Json) :
    overlaid deepOverlay (some lower) (some upper) = some (overlayValue lower upper) := by
  cases lower with
  | obj basis =>
      cases upper with
      | obj other =>
          rw [overlayValue]
          rfl
      | _ => rfl
  | _ => cases upper <;> rfl

theorem lookup_append (members more : Members) (key : PyStr) :
    lookup (members ++ more) key = (lookup members key).or (lookup more key) := by
  induction members with
  | nil => rfl
  | cons member rest ih =>
      rw [List.cons_append, lookup_cons, lookup_cons, ih]
      split <;> rfl

theorem mem_of_lookup {members : Members} {key : PyStr} {v : Json}
    (h : lookup members key = some v) : (key, v) ∈ members := by
  induction members with
  | nil => cases h
  | cons member rest ih =>
      rw [lookup_cons] at h
      split at h
      · rename_i hkey
        obtain rfl := Option.some.inj h
        rw [← hkey]
        exact List.mem_cons_self
      · exact List.mem_cons_of_mem _ (ih h)

theorem lookup_overlayMembers (basis other : Members) (key : PyStr) :
    lookup (overlayMembers basis other) key =
      (lookup basis key).bind fun v => overlaid deepOverlay (some v) (lookup other key) := by
  induction basis with
  | nil => rw [overlayMembers]; rfl
  | cons member rest ih =>
      obtain ⟨first, v⟩ := member
      rw [overlayMembers, lookup_cons, lookup_cons, ih]
      dsimp only
      by_cases hkey : first = key
      · rw [if_pos hkey, if_pos hkey, Option.bind_some, ← hkey]
        cases lookup other first with
        | none => rfl
        | some w => rw [overlaid_some]
      · rw [if_neg hkey, if_neg hkey]

/-- Keys that are filtered out are others. -/
theorem lookup_filter (members : Members) {keep : PyStr × Json → Bool} {key : PyStr}
    (hkeep : ∀ v, keep (key, v) = true) :
    lookup (members.filter keep) key = lookup members key := by
  induction members with
  | nil => rfl
  | cons member rest ih =>
      obtain ⟨first, v⟩ := member
      rw [List.filter_cons, lookup_cons]
      by_cases hkey : first = key
      · subst hkey
        rw [if_pos (hkeep v), lookup_cons, if_pos rfl, if_pos rfl]
      · rw [if_neg hkey]
        split
        · rw [lookup_cons, if_neg hkey, ih]
        · exact ih

theorem deepMerge_deepOverlay : DeepMerge deepOverlay where
  lookup basis other key := by
    have happend : Json.lookup (deepOverlay basis other) key = _ :=
      lookup_append (overlayMembers basis other) _ key
    rw [happend, lookup_overlayMembers]
    cases hbasis : Json.lookup basis key with
    | some lower =>
        rw [Option.bind_some]
        cases hother : Json.lookup other key with
        | none => rfl
        | some upper =>
            rw [overlaid_some]
            exact Option.some_or
    | none =>
        -- a key of the second dictionary alone is not left out
        have hkeep : ∀ v : Json, (!(basis.map Prod.fst).contains ((key, v) : PyStr × Json).1) =
            true := by
          intro v
          rw [Bool.not_eq_true', List.contains_eq_mem, decide_eq_false_iff_not]
          intro hmem
          obtain ⟨member, hmember, hkey⟩ := List.mem_map.mp hmem
          have hfind := List.find?_eq_none.mp (Option.map_eq_none_iff.mp hbasis) member hmember
          exact hfind (decide_eq_true hkey)
        rw [Option.bind_none, Option.none_or, lookup_filter other hkeep]
        cases Json.lookup other key with
        | none => rfl
        | some upper => cases upper <;> rfl
  entries basis other entry hmem := by
    unfold deepOverlay at hmem
    rcases List.mem_append.mp hmem with hmem | hmem
    · -- an entry of the merge: one of the first dictionary, or of the second, or merged
      induction basis with
      | nil =>
          rw [overlayMembers] at hmem
          cases hmem
      | cons member rest ih =>
          obtain ⟨key, v⟩ := member
          rw [overlayMembers] at hmem
          rcases List.mem_cons.mp hmem with rfl | hmem
          · cases hother : Json.lookup other key with
            | none => exact .inl List.mem_cons_self
            | some w =>
                dsimp only
                by_cases hobjs : (∃ m, v = .obj m) ∧ ∃ m, w = .obj m
                · obtain ⟨⟨m, rfl⟩, m', rfl⟩ := hobjs
                  exact .inr (.inr ⟨_, by rw [overlayValue]⟩)
                · have hvalue : overlayValue v w = w := by
                    cases v <;> cases w <;> first | rfl | exact absurd ⟨⟨_, rfl⟩, _, rfl⟩ hobjs
                  rw [hvalue]
                  exact .inr (.inl (mem_of_lookup hother))
          · rcases ih (List.mem_append_left _ hmem) hmem with hbasis | hrest
            · exact .inl (List.mem_cons_of_mem _ hbasis)
            · exact .inr hrest
    · exact .inr (.inl (List.mem_filter.mp hmem).1)

end Json

end Base
