import Mathlib
import NoraFleet.Base.BackEdges

/-!
# Depth-first searches in every order

In which order a depth-first search comes to the nodes depends on how these and their children are
listed. A search misses a node on a cycle if it comes to it along a path, and all that leads back
from the node to the path was visited before, from other children of the nodes of the path. Whether
some order does that can be seen from the graph: there is a detour.

* `comes_of_depthFirst` — when a search comes to a node, with which path and after which others;
* `Comes.enclosed_iff` — what is collected then does not depend on what comes later;
* `exists_detour` — a node on a cycle that is not collected is passed by along a detour;
* `not_enclosed_of_detour` — along a detour, some order does not collect the node.
-/

namespace Base

namespace BackEdges

variable {α : Type}

section Detour

variable (leads : α → α → Prop)

/-- A node leads to another without certain nodes, along a relation. -/
def Without (before : List α) (node other : α) : Prop :=
  node ∉ before ∧ Relation.ReflTransGen (fun u v => leads u v ∧ v ∉ before) node other

/-- A node of a path has a child that leads to one node, and not to another one, without the path up
to there. -/
def Sideways (path : List α) (node start : α) : Prop :=
  ∃ before last after child, path = before ++ last :: after ∧ leads last child ∧
    Without leads (before ++ [last]) child start ∧ ¬Without leads (before ++ [last]) child node

/-- A path leads to a node that does not lead back to itself without the path; and whatever it leads
to without the path and leads to the path is led to sideways, too. -/
structure Detour (path : List α) (node : α) : Prop where
  chain : (path ++ [node]).IsChain leads
  nodup : (path ++ [node]).Nodup
  off : ∀ last, Without leads path node last → ¬leads last node
  sideways : ∀ start stop, Without leads path node start → leads start stop → stop ∈ path →
    Sideways leads path node start

end Detour

section Relations

variable {leads : α → α → Prop}

theorem Without.mono {before before' : List α} (hsub : before' ⊆ before) {node other : α}
    (h : Without leads before node other) : Without leads before' node other :=
  ⟨fun hmem => h.1 (hsub hmem),
    Relation.ReflTransGen.mono (fun _ _ hstep => ⟨hstep.1, fun hmem => hstep.2 (hsub hmem)⟩)
      _ _ h.2⟩

theorem Without.trans {before : List α} {node other next : α}
    (h : Without leads before node other) (h' : Without leads before other next) :
    Without leads before node next := ⟨h.1, h.2.trans h'.2⟩

theorem Detour.not_leads {path : List α} {node stop : α} (h : Detour leads path node)
    (hstop : stop ∈ path) : ¬leads node stop := by
  intro hleads
  have hnode : node ∉ path := fun hmem =>
    (List.nodup_append.mp h.nodup).2.2 node hmem node (List.mem_singleton_self node) rfl
  obtain ⟨_, _, _, _, -, -, hto, hnot⟩ := h.sideways node stop ⟨hnode, .refl⟩ hleads hstop
  exact hnot hto

theorem Detour.ne_nil {path : List α} {node : α} (h : Detour leads path node)
    (hcycle : Relation.TransGen leads node node) : path ≠ [] := by
  rintro rfl
  obtain ⟨last, hreach, hleads⟩ := Relation.TransGen.tail'_iff.mp hcycle
  exact h.off last ⟨List.not_mem_nil, Relation.ReflTransGen.mono
    (fun _ _ hstep => ⟨hstep, List.not_mem_nil⟩) _ _ hreach⟩ hleads

end Relations

/-! ## When a search comes to a node -/

variable {children : α → Except PyError (List α)}

variable (children) in
/-- A search comes to a node that was not visited yet, with a path to it and after others: to a
root, after all that earlier roots lead to, or to a child, after all that the children before it
lead to. -/
inductive Comes : List α → List α → α → Prop
  | root {seen node} : (∀ u ∈ seen, ∀ v, Leads children u v → v ∈ seen) → node ∉ seen →
      Comes [] seen node
  | child {path seen node first child later more} : Comes path seen node →
      children node = .ok (first ++ child :: later) →
      (∀ other, other ∈ more ↔
        ∃ head ∈ first, LeadsWithout children (seen ++ [node]) head other) →
      child ∉ seen ++ node :: more → Comes (path ++ [node]) (seen ++ node :: more) child

namespace Comes

variable {path seen : List α} {node : α}

theorem not_mem (h : Comes children path seen node) : node ∉ seen := by
  cases h with
  | root hclosed hnode => exact hnode
  | child hcomes hnext hmore hchild => exact hchild

theorem path_subset (h : Comes children path seen node) : path ⊆ seen := by
  induction h with
  | root hclosed hnode => exact List.nil_subset _
  | child hcomes hnext hmore hchild ih =>
      intro other hother
      rcases List.mem_append.mp hother with hother | hother
      · exact List.mem_append_left _ (ih hother)
      · rw [List.mem_singleton.mp hother]
        exact List.mem_append_right _ List.mem_cons_self

/-- The path leads to the node. -/
theorem chain (h : Comes children path seen node) :
    (path ++ [node]).IsChain (Leads children) := by
  induction h with
  | root hclosed hnode => exact List.IsChain.singleton _
  | child hcomes hnext hmore hchild ih =>
      rw [List.isChain_append]
      refine ⟨ih, List.IsChain.singleton _, ?_⟩
      intro last hlast head hhead
      rw [List.getLast?_concat, Option.mem_some] at hlast
      rw [List.head?_cons, Option.mem_some] at hhead
      subst hlast hhead
      exact ⟨_, hnext, List.mem_append_right _ List.mem_cons_self⟩

theorem nodup (h : Comes children path seen node) : (path ++ [node]).Nodup := by
  induction h with
  | root hclosed hnode => exact List.nodup_singleton _
  | @child path seen node first child later more hcomes hnext hmore hchild ih =>
      rw [List.nodup_append_comm]
      refine List.nodup_cons.mpr ⟨fun (hmem : child ∈ path ++ [node]) => ?_, ih⟩
      rcases List.mem_append.mp hmem with hmem | hmem
      · exact hchild (List.mem_append_left _ (hcomes.path_subset hmem))
      · rw [List.mem_singleton.mp hmem] at hchild
        exact hchild (List.mem_append_right _ List.mem_cons_self)

/-- What was visited and is not on the path leads nowhere else. -/
theorem closed (h : Comes children path seen node) {u v : α} (hu : u ∈ seen) (hpath : u ∉ path)
    (hleads : Leads children u v) : v ∈ seen := by
  induction h with
  | root hclosed hnode => exact hclosed u hu v hleads
  | @child path seen node first child later more hcomes hnext hmore hchild ih =>
      rw [List.mem_append, List.mem_singleton, not_or] at hpath
      rcases List.mem_append.mp hu with hu | hu
      · exact List.mem_append_left _ (ih hu hpath.1)
      · have hu := (List.mem_cons.mp hu).resolve_left hpath.2
        by_cases hv : v ∈ seen ++ [node]
        · rcases List.mem_append.mp hv with hv | hv
          · exact List.mem_append_left _ hv
          · rw [List.mem_singleton.mp hv]
            exact List.mem_append_right _ List.mem_cons_self
        · obtain ⟨head, hhead, hreach⟩ := (hmore u).mp hu
          exact List.mem_append_right _
            (List.mem_cons_of_mem _ ((hmore v).mpr ⟨head, hhead, hreach.tail hleads hv⟩))

theorem mem_of_without (h : Comes children path seen node) {u v : α} (hu : u ∈ seen)
    (hleads : Without (Leads children) path u v) : v ∈ seen := by
  induction hleads.2 with
  | refl => exact hu
  | @tail v w hreach hstep ih =>
      have hv : v ∉ path := by
        rcases hreach.cases_tail with rfl | ⟨_, _, hlast⟩
        · exact hleads.1
        · exact hlast.2
      exact h.closed (ih ⟨hleads.1, hreach⟩) hv hstep.1

theorem isBelow (h : Comes children path seen node) (hnodup : seen.Nodup) {u : α} (hu : u ∈ path) :
    Below children seen u node := by
  induction h with
  | root hclosed hnode => cases hu
  | @child path seen node first child later more hcomes hnext hmore hchild ih =>
      have hshort := (List.nodup_append.mp hnodup).1
      have hleads : Leads children node child :=
        ⟨_, hnext, List.mem_append_right _ List.mem_cons_self⟩
      rcases List.mem_append.mp hu with hu | hu
      · obtain ⟨before, after, hseen, hreach⟩ := ih hshort hu
        refine ⟨before, after ++ node :: more, by rw [hseen, List.append_assoc]; rfl, ?_⟩
        refine hreach.tail hleads fun hmem => hchild (List.mem_append_left _ ?_)
        rw [hseen]
        exact List.mem_append_left _ hmem
      · rw [List.mem_singleton.mp hu]
        exact ⟨seen, more, rfl, (LeadsWithout.refl hcomes.not_mem).tail hleads
          fun hmem => hchild (List.mem_append_left _ hmem)⟩

theorem mem_of_below (h : Comes children path seen node) (hnodup : seen.Nodup) {u v : α}
    (hu : u ∈ seen) (hpath : u ∉ path) (hbelow : Below children seen u v) : v ∈ seen := by
  induction h with
  | root hclosed hnode =>
      obtain ⟨before, after, -, hreach⟩ := hbelow
      induction hreach.2 with
      | refl => exact hu
      | tail hreach' hstep ih => exact hclosed _ (ih ⟨hreach.1, hreach'⟩) _ hstep.1
  | @child path seen node first child later more hcomes hnext hmore hchild ih =>
      rw [List.mem_append, List.mem_singleton, not_or] at hpath
      by_cases hseen : u ∈ seen
      · exact List.mem_append_left _ (ih (List.nodup_append.mp hnodup).1 hseen hpath.1
          ((below_append_iff hnodup hseen).mp hbelow))
      · have hu : u ∈ more :=
          (List.mem_cons.mp ((List.mem_append.mp hu).resolve_left hseen)).resolve_left hpath.2
        rw [List.append_cons] at hnodup hbelow
        obtain ⟨head, hhead, hreach⟩ := (hmore u).mp hu
        exact List.mem_append_right _ (List.mem_cons_of_mem _
          ((hmore v).mpr ⟨head, hhead, hreach.trans (hbelow.leadsWithout hnodup hu)⟩))

/-- What was visited and leads back to the path was led to sideways. -/
theorem sideways (h : Comes children path seen node) {start stop : α} (hstart : start ∈ seen)
    (hpath : start ∉ path) (hleads : Leads children start stop) (hstop : stop ∈ path) :
    ∃ before last after child, path = before ++ last :: after ∧ Leads children last child ∧
      Without (Leads children) (before ++ [last]) child start ∧
      ∀ other, Without (Leads children) (before ++ [last]) child other → other ∈ seen := by
  induction h with
  | root hclosed hnode => cases hstop
  | @child path seen node first child later more hcomes hnext hmore hchild ih =>
      rw [List.mem_append, List.mem_singleton, not_or] at hpath
      by_cases hseen : start ∈ seen
      · have hmem := hcomes.closed hseen hpath.1 hleads
        have hne : stop ≠ node := fun heq => hcomes.not_mem (heq ▸ hmem)
        have hstop : stop ∈ path :=
          (List.mem_append.mp hstop).resolve_right fun hmem => hne (List.mem_singleton.mp hmem)
        obtain ⟨before, last, after, side, hsplit, hside, hto, hall⟩ := ih hseen hpath.1 hstop
        exact ⟨before, last, after ++ [node], side, by rw [hsplit, List.append_assoc]; rfl, hside,
          hto, fun other hother => List.mem_append_left _ (hall other hother)⟩
      · have hmem : start ∈ more :=
          (List.mem_cons.mp ((List.mem_append.mp hstart).resolve_left hseen)).resolve_left hpath.2
        obtain ⟨head, hhead, hreach⟩ := (hmore start).mp hmem
        have hsub : path ++ [node] ⊆ seen ++ [node] :=
          List.append_subset.mpr ⟨fun _ hmem => List.mem_append_left _ (hcomes.path_subset hmem),
            List.subset_append_right _ _⟩
        have hhead' : head ∈ seen ++ node :: more := List.mem_append_right _
          (List.mem_cons_of_mem _ ((hmore head).mpr ⟨head, hhead, .refl hreach.1⟩))
        exact ⟨path, node, [], head, rfl, ⟨_, hnext, List.mem_append_left _ hhead⟩,
          Without.mono hsub hreach, fun other hother =>
            (Comes.child hcomes hnext hmore hchild).mem_of_without hhead' hother⟩

/-- **What is collected of a node** when a search comes to it: it leads back to itself or, over
nodes that were not visited before, to the path. -/
theorem enclosed_iff (h : Comes children path seen node) {after : List α}
    (hnodup : (seen ++ node :: after).Nodup) :
    Enclosed children (seen ++ node :: after) node ↔
      (∃ last, Without (Leads children) path node last ∧ Leads children last node) ∨
      ∃ start stop, start ∉ seen ∧ Without (Leads children) path node start ∧
        Leads children start stop ∧ stop ∈ path := by
  have hshort := (List.nodup_append.mp hnodup).1
  have hnode : node ∉ path := fun hmem => h.not_mem (h.path_subset hmem)
  -- what leads on to a node that was not visited was not visited itself
  have hfree : ∀ last, (∀ u, Without (Leads children) path u last → u ∉ seen) →
      ∀ u, Without (Leads children) path u last → LeadsWithout children seen u last := by
    intro last hall u hu
    obtain ⟨hu', hreach⟩ := hu
    induction hreach using Relation.ReflTransGen.head_induction_on with
    | refl => exact .refl (hall last ⟨hu', .refl⟩)
    | head hstep hreach ih =>
        exact .head (hall _ ⟨hu', .head hstep hreach⟩) hstep.1 (ih hstep.2)
  constructor
  · rintro ⟨start, stop, hup, hdown, hleads⟩
    rw [below_iff hnodup] at hdown
    by_cases hsame : stop = node
    · subst hsame
      exact .inl ⟨start, Without.mono h.path_subset hdown, hleads⟩
    · by_cases hseen : stop ∈ seen
      · refine .inr ⟨start, stop, hdown.not_mem, Without.mono h.path_subset hdown, hleads, ?_⟩
        by_contra hoff
        exact h.not_mem (h.mem_of_below hshort hseen hoff ((below_append_iff hnodup hseen).mp hup))
      · -- the node is not below one that comes later
        have hlater : stop ∈ after := (List.mem_cons.mp
          ((List.mem_append.mp hup.mem).resolve_left hseen)).resolve_left hsame
        rw [List.append_cons] at hnodup hup
        exact absurd (List.mem_append_right _ (List.mem_singleton_self node))
          (hup.leadsWithout hnodup hlater).not_mem
  · rintro (⟨last, hreach, hleads⟩ | ⟨start, stop, hstart, hreach, hleads, hstop⟩)
    · refine ⟨last, node, (below_iff hnodup).mpr (.refl h.not_mem), (below_iff hnodup).mpr ?_,
        hleads⟩
      refine hfree last (fun u hu hseen => h.not_mem ?_) node hreach
      exact h.mem_of_without hseen ⟨hu.1, hu.2.tail ⟨hleads, hnode⟩⟩
    · refine ⟨start, stop, ?_, (below_iff hnodup).mpr ?_, hleads⟩
      · exact (below_append_iff hnodup (h.path_subset hstop)).mpr (h.isBelow hshort hstop)
      · exact hfree start (fun u hu hseen => hstart (h.mem_of_without hseen hu)) node hreach

/-- **A node that is not collected is passed by** along the path. -/
theorem detour (h : Comes children path seen node) {after : List α}
    (hnodup : (seen ++ node :: after).Nodup)
    (hmissed : ¬Enclosed children (seen ++ node :: after) node) :
    Detour (Leads children) path node := by
  rw [h.enclosed_iff hnodup] at hmissed
  refine ⟨h.chain, h.nodup, fun last hlast hleads => hmissed (.inl ⟨last, hlast, hleads⟩), ?_⟩
  intro start stop hreach hleads hstop
  have hseen : start ∈ seen := by
    by_contra hnot
    exact hmissed (.inr ⟨start, stop, hnot, hreach, hleads, hstop⟩)
  have hpath : start ∉ path := by
    rcases hreach.2.cases_tail with rfl | ⟨_, _, hlast⟩
    · exact hreach.1
    · exact hlast.2
  obtain ⟨before, last, rest, child, hsplit, hchild, hto, hall⟩ :=
    h.sideways hseen hpath hleads hstop
  exact ⟨before, last, rest, child, hsplit, hchild, hto, fun hnode => h.not_mem (hall node hnode)⟩

end Comes

/-! ## The nodes of a traversal -/

variable [DecidableEq α]

omit [DecidableEq α] in
/-- What is added by a root after others. -/
theorem mem_append_iff_leads {base more rest first : List α} {root : α}
    (hmore : ∀ other, other ∈ more ↔ ∃ head ∈ first, LeadsWithout children base head other)
    (hrest : ∀ other, other ∈ rest ↔ LeadsWithout children (base ++ more) root other) (other : α) :
    other ∈ more ++ rest ↔ ∃ head ∈ first ++ [root], LeadsWithout children base head other := by
  constructor
  · intro hother
    rcases List.mem_append.mp hother with hother | hother
    · obtain ⟨head, hhead, hreach⟩ := (hmore other).mp hother
      exact ⟨head, List.mem_append_left _ hhead, hreach⟩
    · exact ⟨root, List.mem_append_right _ (List.mem_singleton_self root),
        ((hrest other).mp hother).mono (List.subset_append_left _ _)⟩
  · rintro ⟨head, hhead, hreach⟩
    rcases List.mem_append.mp hhead with hhead | hhead
    · exact List.mem_append_left _ ((hmore other).mpr ⟨head, hhead, hreach⟩)
    · obtain rfl := List.mem_singleton.mp hhead
      -- it is in `more`, or it was not visited before the root
      have hnew : ∀ v, v ∉ base → v ∉ more → v ∉ base ++ more := by
        intro v hbase hmem
        rw [List.mem_append]
        exact not_or.mpr ⟨hbase, hmem⟩
      refine hreach.mem_of_closed ?_ ?_
      · intro u hu v huv hv
        by_cases hin : v ∈ more
        · exact List.mem_append_left _ hin
        · rcases List.mem_append.mp hu with hu | hu
          · obtain ⟨start, hstart, hreach'⟩ := (hmore u).mp hu
            exact absurd ((hmore v).mpr ⟨start, hstart, hreach'.tail huv hv⟩) hin
          · exact List.mem_append_right _
              ((hrest v).mpr (((hrest u).mp hu).tail huv (hnew v hv hin)))
      · by_cases hin : head ∈ more
        · exact List.mem_append_left _ hin
        · exact List.mem_append_right _ ((hrest head).mpr (.refl (hnew head hreach.1 hin)))

/-- What a visit adds is what its node leads to without what was visited before. -/
theorem exists_visited {room : Nat} {seen : List α} {node : α} {pairs : List (α × Unit)}
    (hnodup : seen.Nodup)
    (hvisit : Traversal.visit (lookAt children) room (listed seen) node = .ok pairs) :
    ∃ more, pairs = listed (seen ++ more) ∧ (seen ++ more).Nodup ∧
      ∀ other, other ∈ more ↔ LeadsWithout children seen node other := by
  have hrepresents : Represents
      ⟨fun node => if node ∈ seen then .done else .unvisited, [], []⟩ seen :=
    ⟨hnodup, List.nodup_nil, by simp, fun node => by by_cases hnode : node ∈ seen <;> simp [hnode]⟩
  obtain ⟨more, s, hpairs, -, hexplored⟩ := explored_search room hrepresents hvisit
  refine ⟨more, hpairs, hexplored.represents.nodup, fun other => ?_⟩
  rw [hexplored.reached]
  simp

variable (children) in
/-- A search comes to each of the nodes that are added. -/
def ComesIn (seen more : List α) : Prop :=
  ∀ node ∈ more, ∃ before after path, more = before ++ node :: after ∧
    Comes children path (seen ++ before) node

omit [DecidableEq α] in
theorem ComesIn.append {seen more rest : List α} (hmore : ComesIn children seen more)
    (hrest : ComesIn children (seen ++ more) rest) : ComesIn children seen (more ++ rest) := by
  intro node hnode
  rcases List.mem_append.mp hnode with hnode | hnode
  · obtain ⟨before, after, path, rfl, hcomes⟩ := hmore node hnode
    exact ⟨before, after ++ rest, path, by rw [List.append_assoc, List.cons_append], hcomes⟩
  · obtain ⟨before, after, path, rfl, hcomes⟩ := hrest node hnode
    exact ⟨more ++ before, after, path, by rw [List.append_assoc],
      by rw [← List.append_assoc]; exact hcomes⟩

/-- Visits to some nodes after others come to all that they add, if each visit does. -/
theorem comes_of_foldlM {room : Nat} {path base nodes : List α}
    (hstep : ∀ {path seen : List α} {node : α} {pairs : List (α × Unit)}, seen.Nodup →
      (node ∉ seen → Comes children path seen node) →
      Traversal.visit (lookAt children) room (listed seen) node = .ok pairs →
      ∃ more, pairs = listed (seen ++ more) ∧ ComesIn children seen more)
    (hcomes : ∀ first node later more, nodes = first ++ node :: later →
      (∀ other, other ∈ more ↔ ∃ head ∈ first, LeadsWithout children base head other) →
      node ∉ base ++ more → Comes children path (base ++ more) node)
    {first rest more : List α} {pairs : List (α × Unit)} (hnodes : nodes = first ++ rest)
    (hnodup : (base ++ more).Nodup)
    (hmore : ∀ other, other ∈ more ↔ ∃ head ∈ first, LeadsWithout children base head other)
    (hvisit : rest.foldlM (Traversal.visit (lookAt children) room) (listed (base ++ more)) =
      .ok pairs) :
    ∃ added, pairs = listed (base ++ (more ++ added)) ∧ (base ++ (more ++ added)).Nodup ∧
      (∀ other, other ∈ more ++ added ↔ ∃ head ∈ nodes, LeadsWithout children base head other) ∧
      ComesIn children (base ++ more) added := by
  induction rest generalizing first more with
  | nil =>
      obtain rfl := Except.ok.inj hvisit
      rw [List.append_nil] at hnodes
      refine ⟨[], by rw [List.append_nil], by rwa [List.append_nil], ?_, ?_⟩
      · rwa [List.append_nil, hnodes]
      · intro node hnode
        cases hnode
  | cons node rest ih =>
      rw [List.foldlM_cons] at hvisit
      cases hnode : Traversal.visit (lookAt children) room (listed (base ++ more)) node with
      | error e => simp [hnode, bind, Except.bind] at hvisit
      | ok between =>
          rw [hnode] at hvisit
          obtain ⟨found, hbetween, hfound, hreached⟩ := exists_visited hnodup hnode
          obtain ⟨found', hbetween', hin⟩ :=
            hstep hnodup (hcomes first node rest more hnodes hmore) hnode
          have hsame : found = found' := by
            have hlisted := congrArg (List.map Prod.fst) (hbetween.symm.trans hbetween')
            rw [map_fst_listed, map_fst_listed] at hlisted
            exact List.append_cancel_left hlisted
          subst hbetween hsame
          rw [List.append_assoc] at hfound
          have hnodes' : nodes = (first ++ [node]) ++ rest := by
            rw [hnodes, List.append_assoc]
            rfl
          obtain ⟨added, rfl, hadded, hall, hlater⟩ := ih hnodes' hfound
            (mem_append_iff_leads hmore hreached) (by rw [← List.append_assoc]; exact hvisit)
          rw [List.append_assoc] at hadded hall
          refine ⟨found ++ added, by rw [List.append_assoc], hadded, hall, hin.append ?_⟩
          rw [List.append_assoc]
          exact hlater

/-- The same from the first of the nodes on. -/
theorem comes_of_foldlM_nil {room : Nat} (path : List α) {base : List α} (nodes : List α)
    (hstep : ∀ {path seen : List α} {node : α} {pairs : List (α × Unit)}, seen.Nodup →
      (node ∉ seen → Comes children path seen node) →
      Traversal.visit (lookAt children) room (listed seen) node = .ok pairs →
      ∃ more, pairs = listed (seen ++ more) ∧ ComesIn children seen more)
    (hcomes : ∀ first node later more, nodes = first ++ node :: later →
      (∀ other, other ∈ more ↔ ∃ head ∈ first, LeadsWithout children base head other) →
      node ∉ base ++ more → Comes children path (base ++ more) node)
    {pairs : List (α × Unit)} (hnodup : base.Nodup)
    (hvisit : nodes.foldlM (Traversal.visit (lookAt children) room) (listed base) = .ok pairs) :
    ∃ added, pairs = listed (base ++ added) ∧ (base ++ added).Nodup ∧
      (∀ other, other ∈ added ↔ ∃ head ∈ nodes, LeadsWithout children base head other) ∧
      ComesIn children base added := by
  have hfrom : ∀ other, other ∈ ([] : List α) ↔
      ∃ head ∈ ([] : List α), LeadsWithout children base head other := by
    simp
  have hbase : base ++ [] = base := List.append_nil base
  obtain ⟨added, hpairs, hadded, hall, hin⟩ :=
    comes_of_foldlM hstep hcomes (List.nil_append nodes).symm (hbase.symm ▸ hnodup) hfrom
      (hbase.symm ▸ hvisit)
  exact ⟨added, hpairs, hadded, hall, hbase ▸ hin⟩

/-- **A visit comes to all nodes that it adds.** -/
theorem comes_of_visit (room : Nat) {path seen : List α} {node : α} {pairs : List (α × Unit)}
    (hnodup : seen.Nodup) (hcomes : node ∉ seen → Comes children path seen node)
    (hvisit : Traversal.visit (lookAt children) room (listed seen) node = .ok pairs) :
    ∃ more, pairs = listed (seen ++ more) ∧ ComesIn children seen more := by
  induction room generalizing path seen node pairs with
  | zero => cases hvisit
  | succ room ih =>
      unfold Traversal.visit at hvisit
      rw [map_fst_listed] at hvisit
      by_cases hnode : node ∈ seen
      · rw [if_pos hnode] at hvisit
        obtain rfl := Except.ok.inj hvisit
        exact ⟨[], by rw [List.append_nil], fun other hother => by cases hother⟩
      · rw [if_neg hnode] at hvisit
        have hnode' := hcomes hnode
        cases hnext : children node with
        | error e =>
            have hlook : lookAt children node = .error e := by
              rw [lookAt, hnext]
              rfl
            simp [hlook] at hvisit
        | ok next =>
            have hlook : lookAt children node = .ok (some ((), next)) := by
              rw [lookAt, hnext]
              rfl
            simp only [hlook] at hvisit
            obtain ⟨added, rfl, -, -, hin⟩ := comes_of_foldlM_nil (path ++ [node]) next ih
              (fun first child later more hsplit hmore hchild => by
                rw [← List.append_cons] at hchild ⊢
                exact .child hnode' (hsplit ▸ hnext) hmore hchild)
              (by simpa using hnodup.concat hnode) (by rw [listed_append]; exact hvisit)
            refine ⟨node :: added, by rw [← List.append_cons], ?_⟩
            have hhere : ComesIn children seen [node] := fun other hother => by
              rw [List.mem_singleton.mp hother]
              exact ⟨[], [], path, rfl, by rwa [List.append_nil]⟩
            exact hhere.append hin

/-- **A depth-first traversal comes to all its nodes**, and to all that it is given. -/
theorem comes_of_depthFirst {room : Nat} {nodes order : List α}
    (h : depthFirst children room nodes = .ok order) :
    order.Nodup ∧ (∀ node ∈ nodes, node ∈ order) ∧
      ∀ node ∈ order, ∃ seen after path, order = seen ++ node :: after ∧
        Comes children path seen node := by
  unfold depthFirst at h
  obtain ⟨pairs, hpairs, rfl⟩ := exists_of_map_eq_ok h
  obtain ⟨added, rfl, hnodup, hall, hin⟩ := comes_of_foldlM_nil [] nodes (comes_of_visit room)
    (fun first node later more _ hmore hnode => .root (fun u hu v huv => by
      obtain ⟨head, hhead, hreach⟩ := (hmore u).mp hu
      exact (hmore v).mpr ⟨head, hhead, hreach.tail huv List.not_mem_nil⟩) hnode)
    List.nodup_nil hpairs
  rw [map_fst_listed]
  refine ⟨hnodup, fun node hnode => ?_, fun node hnode => ?_⟩
  · exact (hall node).mpr ⟨node, hnode, .refl List.not_mem_nil⟩
  · obtain ⟨before, after, path, hadded, hcomes⟩ := hin node hnode
    exact ⟨before, after, path, hadded, hcomes⟩

/-- **A node of a traversal that is not collected is passed by**, along some path. -/
theorem exists_detour {room : Nat} {nodes order : List α}
    (h : depthFirst children room nodes = .ok order) {node : α} (hnode : node ∈ nodes)
    (hmissed : ¬Enclosed children order node) : ∃ path, Detour (Leads children) path node := by
  obtain ⟨hnodup, hall, hcomes⟩ := comes_of_depthFirst h
  obtain ⟨seen, after, path, rfl, hpath⟩ := hcomes node (hall node hnode)
  exact ⟨path, hpath.detour hnodup hmissed⟩

/-! ## Along a detour -/

omit [DecidableEq α] in
variable (children) in
/-- The children of the nodes of a path are listed so that a search goes along it, after all that
does not lead to its end. -/
def Arranged (path : List α) (node : α) : Prop :=
  ∀ before last next after, path ++ [node] = before ++ last :: next :: after →
    ∃ first later, children last = .ok (first ++ next :: later) ∧
      ∀ child, child ∈ first ↔
        Leads children last child ∧ ¬Without (Leads children) (before ++ [last]) child node

variable (children) in
/-- Before a search comes to the end of a path, it has visited what is led to sideways, and nothing
else that leads to the node without the path. -/
structure Prepared (path seen : List α) (node : α) : Prop where
  apart : ∀ other ∈ seen, other ∉ path → ¬Without (Leads children) path other node
  sideways : ∀ other, Sideways (Leads children) path node other → other ∈ seen

omit [DecidableEq α] in
/-- What is led to sideways from a path that is one node longer. -/
theorem Sideways.of_concat {leads : α → α → Prop} {path : List α} {last node start : α}
    (h : Sideways leads (path ++ [last]) node start) :
    Sideways leads path node start ∨ ∃ child, leads last child ∧
      Without leads (path ++ [last]) child start ∧ ¬Without leads (path ++ [last]) child node := by
  obtain ⟨before, other, after, child, hsplit, hchild, hto, hnot⟩ := h
  rcases List.eq_nil_or_concat after with rfl | ⟨after, final, rfl⟩
  · obtain ⟨rfl, hlast⟩ := List.append_inj' hsplit rfl
    obtain rfl := List.singleton_inj.mp hlast
    exact .inr ⟨child, hchild, hto, hnot⟩
  · rw [List.concat_eq_append, ← List.cons_append, ← List.append_assoc] at hsplit
    obtain ⟨rfl, -⟩ := List.append_inj' hsplit rfl
    exact .inl ⟨before, other, after, child, rfl, hchild, hto, hnot⟩

omit [DecidableEq α] in
/-- A path leads on to its end, without what comes before. -/
theorem without_of_isChain {leads : α → α → Prop} {before rest : List α} {next node : α}
    (hchain : (next :: rest).IsChain leads) (hlast : (next :: rest).getLast? = some node)
    (hnot : ∀ other ∈ next :: rest, other ∉ before) : Without leads before next node := by
  induction rest generalizing next with
  | nil =>
      obtain rfl := Option.some.inj hlast
      exact ⟨hnot next List.mem_cons_self, .refl⟩
  | cons other rest ih =>
      rw [List.isChain_cons_cons] at hchain
      rw [List.getLast?_cons_cons] at hlast
      obtain ⟨hnext, hnot⟩ := List.forall_mem_cons.mp hnot
      obtain ⟨hother, hreach⟩ := ih hchain.2 hlast hnot
      exact ⟨hnext, .head ⟨hchain.1, hother⟩ hreach⟩

omit [DecidableEq α] in
/-- On a path without repetitions, each node leads to the end without what comes before it. -/
theorem Detour.without {leads : α → α → Prop} {path before after : List α} {node last next : α}
    (h : Detour leads path node) (hsplit : path ++ [node] = before ++ last :: next :: after) :
    Without leads (before ++ [last]) next node := by
  have hchain := h.chain
  have hnodup := h.nodup
  have hlast : (path ++ [node]).getLast? = some node := List.getLast?_concat
  rw [hsplit, List.append_cons] at hchain hnodup hlast
  rw [List.getLast?_append_cons] at hlast
  refine without_of_isChain (List.isChain_append.mp hchain).2.1 hlast ?_
  intro other hother hbefore
  exact (List.nodup_append.mp hnodup).2.2 other hbefore other hother rfl

/-- A search goes on along the path. -/
theorem Comes.next {path before seen after : List α} {node last next : α}
    (hdetour : Detour (Leads children) path node) (harranged : Arranged children path node)
    (hsplit : path ++ [node] = before ++ last :: next :: after)
    (h : Comes children before seen last) (hnodup : seen.Nodup)
    (hprepared : Prepared children before seen node) {room : Nat} {pairs : List (α × Unit)}
    (hvisit : Traversal.visit (lookAt children) room (listed seen) last = .ok pairs) :
    ∃ seen' room' between, Comes children (before ++ [last]) seen' next ∧ seen'.Nodup ∧
      Prepared children (before ++ [last]) seen' node ∧
      Traversal.visit (lookAt children) room' (listed seen') next = .ok between ∧
      between <+: pairs := by
  obtain ⟨first, later, hchildren, hfirst⟩ := harranged before last next after hsplit
  have hto := hdetour.without hsplit
  cases room with
  | zero => cases hvisit
  | succ room =>
      have hlook : lookAt children last = .ok (some ((), first ++ next :: later)) := by
        rw [lookAt, hchildren]
        rfl
      have hlisted : listed seen ++ [(last, ())] = listed (seen ++ [last]) := by
        rw [listed_append]
        rfl
      unfold Traversal.visit at hvisit
      rw [map_fst_listed, if_neg h.not_mem] at hvisit
      simp only [hlook] at hvisit
      rw [hlisted, List.foldlM_append] at hvisit
      obtain ⟨visited, hvisited, hvisit⟩ := exists_of_bind_ok hvisit
      rw [List.foldlM_cons] at hvisit
      obtain ⟨between, hbetween, hrest⟩ := exists_of_bind_ok hvisit
      obtain ⟨more, rfl, hmore, hreached, -⟩ := comes_of_foldlM_nil (before ++ [last]) first
        (comes_of_visit room)
        (fun done child rest more hchild hmore hnew => by
          rw [← List.append_cons] at hnew ⊢
          refine .child h (by rw [hchildren, hchild, List.append_assoc]; rfl) hmore hnew)
        (by simpa using hnodup.concat h.not_mem) hvisited
      have hsub : before ++ [last] ⊆ seen ++ [last] :=
        List.append_subset.mpr ⟨fun _ hmem => List.mem_append_left _ (h.path_subset hmem),
          List.subset_append_right _ _⟩
      -- none of the children before the next node leads to the end of the path
      have hapart : ∀ other ∈ seen ++ last :: more, other ∉ before ++ [last] →
          ¬Without (Leads children) (before ++ [last]) other node := by
        intro other hother hpath hleads
        rw [List.mem_append, List.mem_singleton, not_or] at hpath
        rcases List.mem_append.mp hother with hother | hother
        · exact hprepared.apart other hother hpath.1
            (hleads.mono (List.subset_append_left _ _))
        · obtain ⟨head, hhead, hreach⟩ :=
            (hreached other).mp ((List.mem_cons.mp hother).resolve_left hpath.2)
          exact ((hfirst head).mp hhead).2 (Without.trans (Without.mono hsub hreach) hleads)
      have hnext : next ∉ seen ++ last :: more := fun hmem => hapart next hmem hto.1 hto
      have hcomes : Comes children (before ++ [last]) (seen ++ last :: more) next :=
        .child h hchildren hreached hnext
      rw [← List.append_cons] at hbetween hmore
      refine ⟨seen ++ last :: more, room, between, hcomes, hmore, ⟨hapart, ?_⟩, hbetween,
        Traversal.isPrefix_foldlM (fun _ _ _ => Traversal.isPrefix_visit room) hrest⟩
      intro other hother
      rcases hother.of_concat with hother | ⟨child, hchild, hreach, hnot⟩
      · exact List.mem_append_left _ (hprepared.sideways other hother)
      · refine hcomes.mem_of_without ?_ hreach
        by_cases hseen : child ∈ seen
        · exact List.mem_append_left _ hseen
        · refine List.mem_append_right _ (List.mem_cons_of_mem _ ((hreached child).mpr
            ⟨child, (hfirst child).mpr ⟨hchild, hnot⟩, .refl ?_⟩))
          intro hmem
          rcases List.mem_append.mp hmem with hmem | hmem
          · exact hseen hmem
          · exact hreach.1 (List.mem_append_right _ hmem)

/-- A search comes to the end of the path. -/
theorem Comes.along {path before seen rest : List α} {node last : α}
    (hdetour : Detour (Leads children) path node) (harranged : Arranged children path node)
    (hsplit : path ++ [node] = before ++ last :: rest) (h : Comes children before seen last)
    (hnodup : seen.Nodup) (hprepared : Prepared children before seen node) {room : Nat}
    {pairs : List (α × Unit)}
    (hvisit : Traversal.visit (lookAt children) room (listed seen) last = .ok pairs) :
    ∃ seen', Comes children path seen' node ∧ Prepared children path seen' node ∧
      listed (seen' ++ [node]) <+: pairs := by
  induction rest generalizing before seen last room pairs with
  | nil =>
      obtain ⟨rfl, hlast⟩ := List.append_inj' hsplit rfl
      obtain rfl := List.singleton_inj.mp hlast
      refine ⟨seen, h, hprepared, ?_⟩
      obtain ⟨more, rfl, -, hreached⟩ := exists_visited hnodup hvisit
      cases room with
      | zero => cases hvisit
      | succ room =>
          unfold Traversal.visit at hvisit
          rw [map_fst_listed, if_neg h.not_mem] at hvisit
          cases hnext : children node with
          | error e =>
              have hlook : lookAt children node = .error e := by
                rw [lookAt, hnext]
                rfl
              simp [hlook] at hvisit
          | ok next =>
              have hlook : lookAt children node = .ok (some ((), next)) := by
                rw [lookAt, hnext]
                rfl
              simp only [hlook] at hvisit
              rw [listed_append]
              exact Traversal.isPrefix_foldlM (fun _ _ _ => Traversal.isPrefix_visit room) hvisit
  | cons next rest ih =>
      obtain ⟨seen', room', between, hcomes, hseen', hprepared', hvisit', hbetween⟩ :=
        h.next hdetour harranged hsplit hnodup hprepared hvisit
      obtain ⟨final, hfinal, hready, hprefix⟩ :=
        ih (by rw [hsplit, ← List.append_cons]) hcomes hseen' hprepared' hvisit'
      exact ⟨final, hfinal, hready, hprefix.trans hbetween⟩

/-- **Along a detour the node is not collected**, if the search starts with the path. -/
theorem not_enclosed_of_detour {path rest order : List α} {node root : α}
    (hdetour : Detour (Leads children) path node) (harranged : Arranged children path node)
    (hroot : (path ++ [node]).head? = some root) {room : Nat}
    (h : depthFirst children room (root :: rest) = .ok order) : ¬Enclosed children order node := by
  obtain ⟨horder, -, -⟩ := comes_of_depthFirst h
  unfold depthFirst at h
  obtain ⟨pairs, hpairs, rfl⟩ := exists_of_map_eq_ok h
  rw [List.foldlM_cons] at hpairs
  obtain ⟨between, hbetween, hrest⟩ := exists_of_bind_ok hpairs
  have hsplit : path ++ [node] = [] ++ root :: (path ++ [node]).tail :=
    (List.cons_head?_tail (Option.mem_def.mpr hroot)).symm
  have hcomes : Comes children [] [] root :=
    .root (fun u hu => absurd hu List.not_mem_nil) List.not_mem_nil
  have hprepared : Prepared children [] [] node := by
    refine ⟨fun other hother => absurd hother List.not_mem_nil, ?_⟩
    rintro other ⟨before, last, after, child, hnil, -⟩
    exact absurd hnil.symm (List.append_ne_nil_of_right_ne_nil _ (List.cons_ne_nil _ _))
  obtain ⟨seen, hseen, hready, hextends⟩ :=
    hcomes.along hdetour harranged hsplit List.nodup_nil hprepared hbetween
  obtain ⟨after, hafter⟩ := (hextends.trans
    (Traversal.isPrefix_foldlM (fun _ _ _ => Traversal.isPrefix_visit room) hrest)).map Prod.fst
  rw [map_fst_listed, ← List.append_cons] at hafter
  rw [← hafter] at horder ⊢
  rw [hseen.enclosed_iff horder]
  rintro (⟨last, hreach, hleads⟩ | ⟨start, stop, hstart, hreach, hleads, hstop⟩)
  · exact hdetour.off last hreach hleads
  · exact hstart (hready.sideways start (hdetour.sideways start stop hreach hleads hstop))

end BackEdges

end Base
