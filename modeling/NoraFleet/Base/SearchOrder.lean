import Mathlib
import NoraFleet.Base.Traversal

/-!
# The order of a search

A listing grows by a neighbour of a node in it that is not in it yet. Breadth first, that is the
first one of the node listed first among those that have any; depth first, of the node listed last
among them. A traversal lists depth first.

* `complete_traverse` — a traversal lists depth first;
* `wide_traverse_iff` — when that is breadth first, too;
* `Ordered.sorted` — breadth first, the distance from the root never falls.
-/

namespace Base

namespace Traversal

variable {α β : Type}

/-- The neighbours of a node. -/
def neighbours (look : Look α β) (node : α) : List α :=
  match look node with
  | .ok (some (_, next)) => next
  | _ => []

/-- Whether there is something at a node. -/
def isFound (look : Look α β) (node : α) : Bool :=
  match look node with
  | .ok (some _) => true
  | _ => false

theorem isFound_iff {look : Look α β} {node : α} : isFound look node = true ↔ Found look node := by
  unfold isFound Found
  split
  · rename_i found hlook
    exact iff_of_true rfl ⟨found.1, found.2, hlook⟩
  · rename_i hnone
    refine iff_of_false Bool.false_ne_true ?_
    rintro ⟨report, next, hlook⟩
    exact hnone _ hlook

variable [DecidableEq α]

/-- The first neighbour that is not listed. -/
def firstFresh (look : Look α β) (listed : List α) (node : α) : Option α :=
  (neighbours look node).find? fun other => isFound look other && !listed.contains other

/-- The node that comes next breadth first. -/
def wideNext (look : Look α β) (listed : List α) : Option α :=
  listed.findSome? (firstFresh look listed)

/-- The node that comes next depth first. -/
def deepNext (look : Look α β) (listed : List α) : Option α :=
  listed.reverse.findSome? (firstFresh look listed)

/-- A listing that begins with a root and goes on by a rule. -/
structure Ordered (rule : List α → Option α) (root : α) (order : List α) : Prop where
  head : order.head? = some root
  steps : ∀ before node after, order = before ++ node :: after → before ≠ [] →
    rule before = some node

/-- A listing that a rule goes on with as long as it can. -/
structure Complete (rule : List α → Option α) (root : α) (order : List α) : Prop
    extends Ordered rule root order where
  complete : rule order = none

variable {look : Look α β}

theorem firstFresh_mono {listed listed' : List α} (hsub : listed ⊆ listed') {node : α}
    (h : firstFresh look listed node = none) : firstFresh look listed' node = none := by
  unfold firstFresh at h ⊢
  rw [List.find?_eq_none] at h ⊢
  intro other hother hfresh
  simp only [Bool.and_eq_true, Bool.not_eq_true'] at hfresh
  refine h other hother ?_
  simp only [Bool.and_eq_true, Bool.not_eq_true']
  refine ⟨hfresh.1, ?_⟩
  rw [← Bool.not_eq_true, List.contains_iff_mem] at hfresh ⊢
  exact fun hmem => hfresh.2 (hsub hmem)

/-! ## A traversal is depth first -/

/-- What is listed after `seen` goes on depth first. -/
def Deepens (look : Look α β) (seen more : List α) : Prop :=
  ∀ before node after, more = before ++ node :: after → before ≠ [] →
    before.reverse.findSome? (firstFresh look (seen ++ before)) = some node

/-- It does, until none of it has neighbours that are not listed. -/
structure Exhausts (look : Look α β) (seen more : List α) : Prop where
  deepens : Deepens look seen more
  done : ∀ node ∈ more, firstFresh look (seen ++ more) node = none

/-- What a visit of a node lists. -/
def Visits (look : Look α β) (seen : List α) (node : α) (seen' : List α) : Prop :=
  seen' = seen ∧ (node ∈ seen ∨ isFound look node = false) ∨
    node ∉ seen ∧ isFound look node = true ∧
      ∃ rest, seen' = seen ++ node :: rest ∧ Exhausts look seen (node :: rest)

/-- Where only the first of the nodes has neighbours that are not listed, the first of these comes
next, and what is listed from there. -/
theorem Deepens.append {seen more rest : List α} {first node : α}
    (h : Deepens look seen (first :: more))
    (hdone : ∀ other ∈ more, firstFresh look (seen ++ first :: more) other = none)
    (hnext : firstFresh look (seen ++ first :: more) first = some node)
    (hrest : Exhausts look (seen ++ first :: more) (node :: rest)) :
    Deepens look seen (first :: more ++ node :: rest) := by
  have hfirst : (first :: more).reverse.findSome? (firstFresh look (seen ++ first :: more)) =
      some node := by
    rw [List.reverse_cons, List.findSome?_append,
      List.findSome?_eq_none_iff.mpr fun other hother => hdone other (List.mem_reverse.mp hother)]
    show (Option.none.or _) = _
    rw [Option.none_or, List.findSome?_cons, hnext]
  intro before other after heq hne
  rcases List.append_eq_append_iff.mp heq with ⟨within, hbefore, hwithin⟩ | ⟨within, hmore, hafter⟩
  · cases within with
    | nil =>
        obtain ⟨rfl, rfl⟩ := List.cons.inj hwithin
        rw [hbefore, List.append_nil]
        exact hfirst
    | cons start within =>
        have hsome := hrest.deepens (start :: within) other after hwithin (List.cons_ne_nil _ _)
        rw [hbefore, List.reverse_append, List.findSome?_append, ← List.append_assoc, hsome]
        rfl
  · cases within with
    | nil =>
        obtain ⟨rfl, rfl⟩ := List.cons.inj hafter
        rw [List.append_nil] at hmore
        rw [← hmore]
        exact hfirst
    | cons start within =>
        obtain ⟨rfl, rfl⟩ := List.cons.inj hafter
        exact h before other within hmore hne

/-- Visits to the neighbours of a node, of which some are done. -/
theorem exhausts_foldlM {step : List (α × β) → α → Except PyError (List (α × β))}
    (hstep : ∀ seen seen' node, step seen node = .ok seen' →
      Visits look (seen.map Prod.fst) node (seen'.map Prod.fst))
    {seen : List α} {first : α} {before rest : List α}
    (hneighbours : neighbours look first = before ++ rest) {more : List α}
    {state state' : List (α × β)} (hstate : state.map Prod.fst = seen ++ first :: more)
    (hbefore : ∀ other ∈ before, isFound look other = false ∨ other ∈ seen ++ first :: more)
    (hdeepens : Deepens look seen (first :: more))
    (hdone : ∀ other ∈ more, firstFresh look (seen ++ first :: more) other = none)
    (h : rest.foldlM step state = .ok state') :
    ∃ more', state'.map Prod.fst = seen ++ first :: more' ∧
      Exhausts look seen (first :: more') := by
  induction rest generalizing before more state with
  | nil =>
      -- no neighbour is left, so that none is fresh
      obtain rfl : state = state' := Except.ok.inj h
      refine ⟨more, hstate, hdeepens, fun other hother => ?_⟩
      rcases List.mem_cons.mp hother with rfl | hother
      · rw [List.append_nil] at hneighbours
        unfold firstFresh
        rw [hneighbours, List.find?_eq_none]
        intro neighbour hmem hfresh
        simp only [Bool.and_eq_true, Bool.not_eq_true'] at hfresh
        rcases hbefore neighbour hmem with hnone | hlisted
        · exact Bool.false_ne_true (hnone.symm.trans hfresh.1)
        · exact Bool.false_ne_true (hfresh.2.symm.trans (List.contains_iff_mem.mpr hlisted))
      · exact hdone other hother
  | cons node rest ih =>
      rw [List.foldlM_cons] at h
      cases hvisit : step state node with
      | error e => simp [hvisit, bind, Except.bind] at h
      | ok between =>
          rw [hvisit] at h
          have hneighbours' : neighbours look first = (before ++ [node]) ++ rest := by
            rw [hneighbours, List.append_assoc, List.singleton_append]
          have hvisits := hstep state between node hvisit
          rw [hstate] at hvisits
          rcases hvisits with ⟨hsame, hwhy⟩ | ⟨hnew, hfound, more', hlisted, hexhausts⟩
          · -- the neighbour was listed already, or is not there
            refine ih hneighbours' hsame (fun other hother => ?_) hdeepens hdone h
            rcases List.mem_append.mp hother with hother | hother
            · exact hbefore other hother
            · rw [List.mem_singleton.mp hother]
              exact hwhy.symm
          · -- the neighbours before are listed or not there, so this one is next
            have hnext : firstFresh look (seen ++ first :: more) first = some node := by
              unfold firstFresh
              rw [hneighbours, List.find?_append, List.find?_eq_none.mpr, Option.none_or,
                List.find?_cons_of_pos]
              · rw [hfound, Bool.true_and, Bool.not_eq_true', ← Bool.not_eq_true,
                  List.contains_iff_mem]
                exact hnew
              · intro other hother hfresh
                simp only [Bool.and_eq_true, Bool.not_eq_true'] at hfresh
                rcases hbefore other hother with hnone | hmem
                · exact Bool.false_ne_true (hnone.symm.trans hfresh.1)
                · exact Bool.false_ne_true (hfresh.2.symm.trans (List.contains_iff_mem.mpr hmem))
            have hassoc : seen ++ first :: (more ++ node :: more') =
                (seen ++ first :: more) ++ node :: more' := by
              rw [List.append_assoc, List.cons_append]
            refine ih hneighbours' (hlisted.trans hassoc.symm) (fun other hother => ?_)
              (hdeepens.append hdone hnext hexhausts) (fun other hother => ?_) h
            · rw [hassoc]
              rcases List.mem_append.mp hother with hother | hother
              · exact (hbefore other hother).imp_right (List.mem_append_left _)
              · rw [List.mem_singleton.mp hother]
                exact .inr (List.mem_append_right _ List.mem_cons_self)
            · rw [hassoc]
              rcases List.mem_append.mp hother with hother | hother
              · exact firstFresh_mono (List.subset_append_left _ _) (hdone other hother)
              · exact hexhausts.done other hother

/-- **A visit lists depth first.** -/
theorem visits_visit (room : Nat) {seen seen' : List (α × β)} {node : α}
    (h : visit look room seen node = .ok seen') :
    Visits look (seen.map Prod.fst) node (seen'.map Prod.fst) := by
  induction room generalizing seen seen' node with
  | zero => cases h
  | succ room ih =>
      unfold visit at h
      split at h
      · rename_i hmem
        obtain rfl := Except.ok.inj h
        exact .inl ⟨rfl, .inl hmem⟩
      · rename_i hnew
        cases hlook : look node with
        | error e => simp [hlook] at h
        | ok there =>
            cases there with
            | none =>
                simp only [hlook] at h
                obtain rfl := Except.ok.inj h
                refine .inl ⟨rfl, .inr ?_⟩
                unfold isFound
                rw [hlook]
            | some found =>
                simp only [hlook] at h
                have hfound : isFound look node = true := isFound_iff.mpr ⟨found.1, found.2, hlook⟩
                have hneighbours : neighbours look node = [] ++ found.2 := by
                  unfold neighbours
                  rw [hlook]
                  rfl
                have hstate : (seen ++ [(node, found.1)]).map Prod.fst =
                    seen.map Prod.fst ++ node :: [] := List.map_append
                have halone : Deepens look (seen.map Prod.fst) [node] := by
                  intro before other after heq hne
                  rw [List.singleton_eq_append_iff] at heq
                  rcases heq with ⟨hnil, -⟩ | ⟨-, hcons⟩
                  · exact absurd hnil hne
                  · cases hcons
                obtain ⟨more, hmore, hexhausts⟩ := exhausts_foldlM (fun _ _ _ => ih) hneighbours
                  hstate (fun _ hother => by cases hother) halone
                    (fun _ hother => by cases hother) h
                exact .inr ⟨hnew, hfound, more, hmore, hexhausts⟩

/-- **A traversal lists depth first**, if there is something at its root. -/
theorem complete_traverse {room : Nat} {root : α} {seen : List (α × β)}
    (h : traverse look room root = .ok seen) (hroot : isFound look root = true) :
    Complete (deepNext look) root (seen.map Prod.fst) := by
  rcases visits_visit room h with ⟨-, hnone⟩ | ⟨-, -, rest, hlisted, hexhausts⟩
  · rcases hnone with hmem | hnone
    · cases hmem
    · exact absurd (hnone.symm.trans hroot) Bool.false_ne_true
  · rw [List.map_nil, List.nil_append] at hlisted
    rw [hlisted]
    refine ⟨⟨rfl, hexhausts.deepens⟩, List.findSome?_eq_none_iff.mpr fun node hnode => ?_⟩
    exact hexhausts.done node (List.mem_reverse.mp hnode)

/-! ## Two orders -/

section Rules

variable {rule : List α → Option α} {root node : α} {before after order : List α}

omit [DecidableEq α] in
theorem Ordered.ne_nil (h : Ordered rule root order) : order ≠ [] := by
  rintro rfl
  cases h.head

omit [DecidableEq α] in
theorem Ordered.singleton (rule : List α → Option α) (root : α) : Ordered rule root [root] where
  head := rfl
  steps before node after heq hne := by
    rcases List.singleton_eq_append_iff.mp heq with ⟨hnil, -⟩ | ⟨-, hcons⟩
    · exact absurd hnil hne
    · cases hcons

omit [DecidableEq α] in
/-- One more node by the rule. -/
theorem Ordered.concat (h : Ordered rule root before) (hnext : rule before = some node) :
    Ordered rule root (before ++ [node]) where
  head := by
    rw [List.head?_append, h.head]
    rfl
  steps first next after heq hne := by
    rcases List.append_eq_append_iff.mp heq
      with ⟨within, hfirst, hwithin⟩ | ⟨within, hbefore, hafter⟩
    · rcases List.singleton_eq_append_iff.mp hwithin with ⟨rfl, hcons⟩ | ⟨-, hcons⟩
      · rw [hfirst, List.append_nil, hnext, (List.cons.inj hcons).1]
      · cases hcons
    · cases within with
      | nil =>
          obtain ⟨rfl, -⟩ := List.cons.inj hafter
          rw [List.append_nil] at hbefore
          rw [← hbefore, hnext]
      | cons start within =>
          obtain ⟨rfl, -⟩ := List.cons.inj hafter
          exact h.steps first next within hbefore hne

omit [DecidableEq α] in
theorem Ordered.of_concat (h : Ordered rule root (before ++ [node])) (hne : before ≠ []) :
    Ordered rule root before ∧ rule before = some node := by
  refine ⟨⟨?_, fun first next after heq hfirst => ?_⟩, h.steps before node [] rfl hne⟩
  · have hhead := h.head
    rwa [List.head?_append_of_ne_nil _ hne] at hhead
  · refine h.steps first next (after ++ [node]) ?_ hfirst
    rw [heq, List.append_assoc, List.cons_append]

omit [DecidableEq α] in
theorem Ordered.isPrefix (h : Ordered rule root before) (hcomplete : Complete rule root order) :
    before <+: order := by
  induction before using List.reverseRecOn with
  | nil => exact absurd rfl h.ne_nil
  | append_singleton before node ih =>
      by_cases hne : before = []
      · subst hne
        have hroot : node = root := Option.some.inj h.head
        obtain ⟨rest, rfl⟩ := List.head?_eq_some_iff.mp hcomplete.head
        rw [hroot]
        exact ⟨rest, rfl⟩
      · obtain ⟨hbefore, hnext⟩ := h.of_concat hne
        obtain ⟨rest, hrest⟩ := ih hbefore
        cases rest with
        | nil =>
            rw [List.append_nil] at hrest
            rw [hrest, hcomplete.complete] at hnext
            cases hnext
        | cons other rest =>
            have hother := hcomplete.steps before other rest hrest.symm hne
            obtain rfl := Option.some.inj (hnext.symm.trans hother)
            exact ⟨rest, by rw [← hrest, List.append_assoc, List.singleton_append]⟩

omit [DecidableEq α] in
/-- A complete listing by one rule is one by another rule exactly if the two rules agree as long as
the other one is followed. -/
theorem Complete.iff_agree {other : List α → Option α} (h : Complete rule root order) :
    Complete other root order ↔
      ∀ before, Ordered other root before → rule before = other before := by
  constructor
  · intro hother before hbefore
    obtain ⟨rest, hrest⟩ := hbefore.isPrefix hother
    cases rest with
    | nil =>
        rw [List.append_nil] at hrest
        rw [hrest, h.complete, hother.complete]
    | cons next rest =>
        rw [h.steps before next rest hrest.symm hbefore.ne_nil,
          hother.steps before next rest hrest.symm hbefore.ne_nil]
  · intro hagree
    have hordered : ∀ before, before ≠ [] →
        Ordered rule root before → Ordered other root before := by
      intro before
      induction before using List.reverseRecOn with
      | nil => exact fun hne => absurd rfl hne
      | append_singleton before node ih =>
          intro _ hbefore
          by_cases hne : before = []
          · subst hne
            have hroot : node = root := Option.some.inj hbefore.head
            rw [hroot]
            exact Ordered.singleton other root
          · obtain ⟨hrule, hnext⟩ := hbefore.of_concat hne
            have hfollows := ih hne hrule
            rw [hagree before hfollows] at hnext
            exact hfollows.concat hnext
    have hfollows := hordered order h.ne_nil h.toOrdered
    exact ⟨hfollows, (hagree order hfollows).symm.trans h.complete⟩

end Rules

/-- **A traversal lists breadth first**, too, exactly if the node that is listed last among those
with neighbours that are not listed always has the same first such neighbour as the node that is
listed first among them. -/
theorem wide_traverse_iff {room : Nat} {root : α} {seen : List (α × β)}
    (h : traverse look room root = .ok seen) (hroot : isFound look root = true) :
    Complete (wideNext look) root (seen.map Prod.fst) ↔
      ∀ before, Ordered (wideNext look) root before → deepNext look before = wideNext look before :=
  (complete_traverse h hroot).iff_agree

/-! ## Distances -/

/-- A path of so many edges from the root. -/
inductive Path (look : Look α β) (root : α) : Nat → α → Prop
  | root : Path look root 0 root
  | edge {length : Nat} {node other : α} (hpath : Path look root length node)
      (hedge : Edge look node other) : Path look root (length + 1) other

/-- The distance of a node from the root: the length of a shortest path. -/
noncomputable def distance (look : Look α β) (root node : α) : Nat :=
  sInf {length | Path look root length node}

omit [DecidableEq α] in
theorem distance_le {root node : α} {length : Nat} (h : Path look root length node) :
    distance look root node ≤ length := Nat.sInf_le h

omit [DecidableEq α] in
theorem path_distance {root node : α} (h : ∃ length, Path look root length node) :
    Path look root (distance look root node) node := Nat.sInf_mem h

/-- A listing in layers: by distance, each node with one that it was found from, before which no
node has neighbours that are not listed. -/
structure Layered (look : Look α β) (root : α) (order : List α) : Prop where
  head : order.head? = some root
  reached : ∀ node ∈ order, ∃ length, Path look root length node
  sorted : order.Pairwise fun node other => distance look root node ≤ distance look root other
  parent : ∀ node ∈ order, node = root ∨ ∃ before parent after,
    order = before ++ parent :: after ∧ (∀ other ∈ before, firstFresh look order other = none) ∧
      distance look root node ≤ distance look root parent + 1

omit [DecidableEq α] in
theorem mem_neighbours_iff {node other : α} :
    other ∈ neighbours look node ↔ Edge look node other := by
  unfold neighbours
  split
  · rename_i report next hlook
    exact (edge_iff hlook other).symm
  · rename_i hnone
    refine iff_of_false List.not_mem_nil ?_
    rintro ⟨report, next, hlook, -⟩
    exact hnone report next hlook

/-- A neighbour of a node that has none that are not listed is listed, if there is something. -/
theorem mem_of_exhausted {listed : List α} {node other : α}
    (h : firstFresh look listed node = none) (hedge : Edge look node other)
    (hfound : isFound look other = true) : other ∈ listed := by
  by_contra hnot
  refine List.find?_eq_none.mp h other (mem_neighbours_iff.mpr hedge) ?_
  rw [hfound, Bool.true_and, Bool.not_eq_true', ← Bool.not_eq_true, List.contains_iff_mem]
  exact hnot

namespace Layered

variable {root first node : α} {before after : List α}

/-- All that is as near as the first node with neighbours that are not listed is listed. -/
theorem mem_of_near (h : Layered look root (before ++ first :: after))
    (hbefore : ∀ other ∈ before, firstFresh look (before ++ first :: after) other = none)
    {length : Nat} (hlength : length ≤ distance look root first)
    (hpath : Path look root length node)
    (hfound : isFound look node = true) : node ∈ before ++ first :: after := by
  induction hpath with
  | root => exact List.mem_of_head? h.head
  | @edge length between node hpath hedge ih =>
      obtain ⟨report, next, hlook, hnext⟩ := hedge
      have hbetween := ih (Nat.le_of_succ_le hlength) (isFound_iff.mpr ⟨report, next, hlook⟩)
      have hnear : distance look root between < distance look root first :=
        lt_of_le_of_lt (distance_le hpath) hlength
      -- what is nearer than `first` comes before it
      have hmem : between ∈ before := by
        rcases List.mem_append.mp hbetween with hmem | hmem
        · exact hmem
        · have hsorted := (List.pairwise_append.mp h.sorted).2.1
          rcases List.mem_cons.mp hmem with rfl | hafter
          · exact absurd hnear (lt_irrefl _)
          · exact absurd ((List.pairwise_cons.mp hsorted).1 between hafter) (Nat.not_le.mpr hnear)
      exact mem_of_exhausted (hbefore between hmem) ⟨report, next, hlook, hnext⟩ hfound

/-- No node that is listed is farther than one edge behind the first node with neighbours that are
not listed. -/
theorem distance_le_next (h : Layered look root (before ++ first :: after)) {next : α}
    (hfirst : firstFresh look (before ++ first :: after) first = some next)
    (hnode : node ∈ before ++ first :: after) :
    distance look root node ≤ distance look root first + 1 := by
  rcases h.parent node hnode with rfl | ⟨before', parent, after', heq, hexhausted, hle⟩
  · exact (distance_le .root).trans (Nat.zero_le _)
  · refine hle.trans (Nat.succ_le_succ ?_)
    -- the parent is not behind `first`, since nothing before it has neighbours left
    have hnot : first ∉ before' := fun hmem => by
      rw [hexhausted first hmem] at hfirst
      cases hfirst
    rcases List.append_eq_append_iff.mp heq
      with ⟨within, hbefore, hwithin⟩ | ⟨within, hbefore, hwithin⟩
    · cases within with
      | nil => rw [(List.cons.inj hwithin).1]
      | cons start within =>
          rw [hbefore, ← (List.cons.inj hwithin).1] at hnot
          exact absurd (List.mem_append_right _ List.mem_cons_self) hnot
    · cases within with
      | nil => rw [(List.cons.inj hwithin).1]
      | cons start within =>
          have hmem : parent ∈ before := by
            rw [hbefore, (List.cons.inj hwithin).1]
            exact List.mem_append_right _ List.mem_cons_self
          exact (List.pairwise_append.mp h.sorted).2.2 parent hmem first List.mem_cons_self

end Layered

theorem Layered.concat {root next : α} {order : List α} (h : Layered look root order)
    (hnext : wideNext look order = some next) : Layered look root (order ++ [next]) := by
  obtain ⟨before, first, after, rfl, hfirst, hbefore⟩ := List.findSome?_eq_some_iff.mp hnext
  have hmem : first ∈ before ++ first :: after := List.mem_append_right _ List.mem_cons_self
  have hfresh := List.find?_some hfirst
  rw [Bool.and_eq_true, Bool.not_eq_true', ← Bool.not_eq_true, List.contains_iff_mem] at hfresh
  have hedge : Edge look first next := mem_neighbours_iff.mp (List.mem_of_find?_eq_some hfirst)
  have hpath : Path look root (distance look root first + 1) next :=
    .edge (path_distance (h.reached first hmem)) hedge
  have hfar : distance look root next = distance look root first + 1 := by
    refine le_antisymm (distance_le hpath) ?_
    by_contra hnear
    exact hfresh.2 (h.mem_of_near hbefore (Nat.le_of_lt_succ (Nat.not_le.mp hnear))
      (path_distance ⟨_, hpath⟩) hfresh.1)
  refine ⟨?_, fun node hnode => ?_, ?_, fun node hnode => ?_⟩
  · rw [List.head?_append, h.head]
    rfl
  · rcases List.mem_append.mp hnode with hnode | hnode
    · exact h.reached node hnode
    · rw [List.mem_singleton.mp hnode]
      exact ⟨_, hpath⟩
  · refine List.pairwise_append.mpr ⟨h.sorted, List.pairwise_singleton _ _, ?_⟩
    intro node hnode other hother
    rw [List.mem_singleton.mp hother, hfar]
    exact h.distance_le_next hfirst hnode
  · rcases List.mem_append.mp hnode with hnode | hnode
    · refine (h.parent node hnode).imp_right ?_
      rintro ⟨before', parent, after', heq, hexhausted, hle⟩
      refine ⟨before', parent, after' ++ [next], ?_, fun other hother => ?_, hle⟩
      · rw [heq, List.append_assoc, List.cons_append]
      · exact firstFresh_mono (List.subset_append_left _ _) (hexhausted other hother)
    · rw [List.mem_singleton.mp hnode]
      refine .inr ⟨before, first, after ++ [next], ?_, fun other hother => ?_, hfar.le⟩
      · rw [List.append_assoc, List.cons_append]
      · exact firstFresh_mono (List.subset_append_left _ _) (hbefore other hother)

/-- **Breadth first, the distance from the root never falls.** -/
theorem Ordered.sorted {root : α} {order : List α} (h : Ordered (wideNext look) root order) :
    order.Pairwise fun node other => distance look root node ≤ distance look root other := by
  suffices hlayered : Layered look root order from hlayered.sorted
  induction order using List.reverseRecOn with
  | nil => exact absurd rfl h.ne_nil
  | append_singleton order node ih =>
      by_cases hne : order = []
      · subst hne
        obtain rfl : node = root := Option.some.inj h.head
        refine ⟨rfl, fun other hother => ?_, List.pairwise_singleton _ _, fun other hother => ?_⟩
        · rw [List.mem_singleton.mp hother]
          exact ⟨0, .root⟩
        · exact .inl (List.mem_singleton.mp hother)
      · obtain ⟨hordered, hnext⟩ := h.of_concat hne
        exact (ih hordered).concat hnext

end Traversal

end Base
