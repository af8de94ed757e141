import Mathlib

/-!
# Worklists

A worklist lists the nodes found so far, each with whether it is done. As long as
there is one that is not done, the first of these is marked and its neighbours are
listed behind. Neighbours may be listed in any order, and looking for them may fail.

* `Worked.step` — what a round keeps;
* `exists_work` — with room for every node that is reached, the work comes to an
  end, and exactly those are listed.
-/

namespace Base

namespace Worklist

variable {α ε : Type*}

/-- The first node that is not done. -/
def nextItem (items : List (α × Bool)) : Option α :=
  (items.find? fun item => !item.2).map Prod.fst

theorem mem_of_nextItem {items : List (α × Bool)} {node : α} (h : nextItem items = some node) :
    (node, false) ∈ items := by
  obtain ⟨⟨found, done⟩, hfind, rfl⟩ := Option.map_eq_some_iff.mp h
  have hdone : done = false := by simpa using List.find?_some hfind
  rw [← hdone]
  exact List.mem_of_find?_eq_some hfind

theorem done_of_nextItem {items : List (α × Bool)} (h : nextItem items = none) {node : α}
    (hnode : node ∈ items.map Prod.fst) : (node, true) ∈ items := by
  obtain ⟨⟨found, done⟩, hmem, rfl⟩ := List.mem_map.mp hnode
  have hdone := List.find?_eq_none.mp (Option.map_eq_none_iff.mp h) _ hmem
  have htrue : done = true := by simpa using hdone
  rw [← htrue]
  exact hmem

/-- What holds of a worklist: it lists nodes that are reached, each once, and with a node that is
done its neighbours. -/
structure Worked (Edge : α → α → Prop) (root : α) (items : List (α × Bool)) : Prop where
  nodup : (items.map Prod.fst).Nodup
  hasRoot : root ∈ items.map Prod.fst
  reached : ∀ node ∈ items.map Prod.fst, Relation.ReflTransGen Edge root node
  closed : ∀ node other, (node, true) ∈ items → Edge node other → other ∈ items.map Prod.fst

variable {Edge : α → α → Prop} {root : α} {items : List (α × Bool)}

theorem Worked.initial : Worked Edge root [(root, false)] where
  nodup := List.nodup_singleton root
  hasRoot := List.mem_singleton.mpr rfl
  reached node hnode := by
    obtain rfl : node = root := List.mem_singleton.mp hnode
    exact .refl
  closed node other hdone _ := by
    cases List.mem_singleton.mp hdone

theorem Worked.mem_iff (h : Worked Edge root items) (hnext : nextItem items = none) {node : α} :
    node ∈ items.map Prod.fst ↔ Relation.ReflTransGen Edge root node := by
  refine ⟨h.reached node, fun hreach => ?_⟩
  induction hreach with
  | refl => exact h.hasRoot
  | tail _ hedge ih => exact h.closed _ _ (done_of_nextItem hnext ih) hedge

/-! ## One round -/

variable [DecidableEq α]

/-- The nodes with `node` done. -/
def markDone (items : List (α × Bool)) (node : α) : List (α × Bool) :=
  items.map fun item => if item.1 = node then (node, true) else item

/-- The nodes with one more, unless it is there. -/
def addItem (items : List (α × Bool)) (node : α) : List (α × Bool) :=
  if node ∈ items.map Prod.fst then items else items ++ [(node, false)]

/-- The work, as long as there is room. -/
def work (neighbours : α → Except ε (List α)) :
    Nat → List (α × Bool) → Option (Except ε (List (α × Bool)))
  | 0, _ => none
  | room + 1, items =>
      match nextItem items with
      | none => some (.ok items)
      | some node =>
          match neighbours node with
          | .error e => some (.error e)
          | .ok found => work neighbours room (found.foldl addItem (markDone items node))

theorem keys_markDone (items : List (α × Bool)) (node : α) :
    (markDone items node).map Prod.fst = items.map Prod.fst := by
  unfold markDone
  rw [List.map_map]
  refine List.map_congr_left fun item _ => ?_
  show (if item.1 = node then (node, true) else item).1 = item.1
  split
  · rename_i heq
    exact heq.symm
  · rfl

/-- Done is what was done, and the node that is marked. -/
theorem done_markDone {items : List (α × Bool)} {node other : α}
    (hnode : node ∈ items.map Prod.fst) :
    (other, true) ∈ markDone items node ↔ other = node ∨ (other, true) ∈ items := by
  unfold markDone
  rw [List.mem_map]
  constructor
  · rintro ⟨⟨found, done⟩, hmem, heq⟩
    split at heq
    · exact .inl (congrArg Prod.fst heq).symm
    · exact .inr (heq ▸ hmem)
  · rintro (rfl | hmem)
    · obtain ⟨⟨found, done⟩, hmem, rfl⟩ := List.mem_map.mp hnode
      exact ⟨_, hmem, if_pos rfl⟩
    · refine ⟨_, hmem, ?_⟩
      dsimp only
      split
      · rename_i heq
        rw [heq]
      · rfl

theorem mem_keys_addItem {items : List (α × Bool)} {node other : α} :
    other ∈ (addItem items node).map Prod.fst ↔ other ∈ items.map Prod.fst ∨ other = node := by
  unfold addItem
  split
  · rename_i hmem
    refine ⟨.inl, ?_⟩
    rintro (hother | rfl)
    · exact hother
    · exact hmem
  · rw [List.map_append, List.mem_append, List.map_singleton, List.mem_singleton]

theorem mem_keys_foldl {found : List α} {items : List (α × Bool)} {other : α} :
    other ∈ (found.foldl addItem items).map Prod.fst ↔
      other ∈ items.map Prod.fst ∨ other ∈ found := by
  induction found generalizing items with
  | nil => simp only [List.foldl_nil, List.not_mem_nil, or_false]
  | cons node rest ih =>
      rw [List.foldl_cons, ih, mem_keys_addItem, List.mem_cons, or_assoc]

theorem nodup_foldl {found : List α} {items : List (α × Bool)}
    (h : (items.map Prod.fst).Nodup) : ((found.foldl addItem items).map Prod.fst).Nodup := by
  induction found generalizing items with
  | nil => exact h
  | cons node rest ih =>
      refine ih ?_
      unfold addItem
      split
      · exact h
      · rename_i hnew
        rw [List.map_append]
        refine h.append (List.nodup_singleton node) fun other hother hsingle => ?_
        obtain rfl : other = node := List.mem_singleton.mp hsingle
        exact hnew hother

theorem done_foldl {found : List α} {items : List (α × Bool)} {other : α} :
    (other, true) ∈ found.foldl addItem items ↔ (other, true) ∈ items := by
  induction found generalizing items with
  | nil => exact Iff.rfl
  | cons node rest ih =>
      rw [List.foldl_cons, ih]
      unfold addItem
      split
      · exact Iff.rfl
      · simp only [List.mem_append, List.mem_singleton, Prod.mk.injEq, Bool.true_eq_false,
          and_false, or_false]

/-! ## The whole work -/

/-- A round that lists the neighbours of a node and marks it as done. -/
theorem Worked.step (h : Worked Edge root items) {node : α} (hnode : node ∈ items.map Prod.fst)
    {found : List α} (hfound : ∀ other, other ∈ found ↔ Edge node other) :
    Worked Edge root (found.foldl addItem (markDone items node)) := by
  refine ⟨nodup_foldl ?_, ?_, fun other hother => ?_, fun done other hdone hedge => ?_⟩
  · rw [keys_markDone]
    exact h.nodup
  · rw [mem_keys_foldl, keys_markDone]
    exact .inl h.hasRoot
  · rw [mem_keys_foldl, keys_markDone] at hother
    rcases hother with hother | hother
    · exact h.reached other hother
    · exact (h.reached node hnode).tail ((hfound other).mp hother)
  · rw [mem_keys_foldl, keys_markDone]
    rw [done_foldl, done_markDone hnode] at hdone
    rcases hdone with rfl | hdone
    · exact .inr ((hfound other).mpr hedge)
    · exact .inl (h.closed done other hdone hedge)

/-- The nodes that are not done. -/
def undone (nodes : Finset α) (items : List (α × Bool)) : Finset α :=
  nodes.filter fun node => (node, true) ∉ items

/-- A round leaves fewer nodes to be done. -/
theorem undone_lt (h : Worked Edge root items) {nodes : Finset α} {node : α}
    (hnext : nextItem items = some node) (hnodes : node ∈ nodes) (found : List α) :
    (undone nodes (found.foldl addItem (markDone items node))).card <
      (undone nodes items).card := by
  have hfalse := mem_of_nextItem hnext
  have hnode : node ∈ items.map Prod.fst := List.mem_map_of_mem (f := Prod.fst) hfalse
  have hopen : (node, true) ∉ items := by
    intro htrue
    have heq := List.inj_on_of_nodup_map h.nodup hfalse htrue rfl
    cases heq
  refine Finset.card_lt_card ⟨fun other hother => ?_, fun hsub => ?_⟩
  · rw [undone, Finset.mem_filter, done_foldl, done_markDone hnode] at hother
    exact Finset.mem_filter.mpr ⟨hother.1, fun htrue => hother.2 (.inr htrue)⟩
  · have hmem := hsub (Finset.mem_filter.mpr ⟨hnodes, hopen⟩)
    rw [undone, Finset.mem_filter, done_foldl, done_markDone hnode] at hmem
    exact hmem.2 (.inl rfl)

/-- What the work does from any worklist on. -/
theorem exists_work_of_worked {neighbours : α → Except ε (List α)} {nodes : Finset α}
    (hnodes : ∀ node, Relation.ReflTransGen Edge root node → node ∈ nodes)
    (hneighbours : ∀ node, Relation.ReflTransGen Edge root node →
      ∃ found, neighbours node = .ok found ∧ ∀ other, other ∈ found ↔ Edge node other)
    {room : Nat} (h : Worked Edge root items) (hroom : (undone nodes items).card < room) :
    ∃ done, work neighbours room items = some (.ok done) ∧ (done.map Prod.fst).Nodup ∧
      ∀ node, node ∈ done.map Prod.fst ↔ Relation.ReflTransGen Edge root node := by
  induction room generalizing items with
  | zero => exact absurd hroom (Nat.not_lt_zero _)
  | succ room ih =>
      unfold work
      cases hnext : nextItem items with
      | none => exact ⟨items, rfl, h.nodup, fun node => h.mem_iff hnext⟩
      | some node =>
          have hnode : node ∈ items.map Prod.fst :=
            List.mem_map_of_mem (f := Prod.fst) (mem_of_nextItem hnext)
          have hreach := h.reached node hnode
          obtain ⟨found, hok, hfound⟩ := hneighbours node hreach
          have hlt := undone_lt h hnext (hnodes node hreach) found
          dsimp only
          rw [hok]
          exact ih (h.step hnode hfound) (lt_of_lt_of_le hlt (Nat.le_of_lt_succ hroom))

/-- **A worklist with room for every node that is reached comes to an end**, and lists exactly
these, each once. -/
theorem exists_work {neighbours : α → Except ε (List α)} {nodes : Finset α}
    (hnodes : ∀ node, Relation.ReflTransGen Edge root node → node ∈ nodes)
    (hneighbours : ∀ node, Relation.ReflTransGen Edge root node →
      ∃ found, neighbours node = .ok found ∧ ∀ other, other ∈ found ↔ Edge node other)
    {room : Nat} (hroom : nodes.card < room) :
    ∃ done, work neighbours room [(root, false)] = some (.ok done) ∧ (done.map Prod.fst).Nodup ∧
      ∀ node, node ∈ done.map Prod.fst ↔ Relation.ReflTransGen Edge root node :=
  exists_work_of_worked hnodes hneighbours Worked.initial
    (lt_of_le_of_lt (Finset.card_filter_le _ _) hroom)

end Worklist

end Base
