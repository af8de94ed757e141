import Mathlib
import NoraFleet.Base.Traversal

/-!
# Back edges of a depth-first search

A search goes through a graph depth first. A node is on the path from its root to where the search
is, or done, or not visited yet. An edge to a node on the path closes a cycle: the nodes of the
path from there on are collected. An edge to a node that is done is not looked at again, so not
every node on a cycle is collected.

A node leads to another below it in the order of the visits, if it does so without the nodes that
were visited before it.

* `explored_search` — a search goes with a visit of a depth-first traversal, and what it collects;
* `exists_searchAll` — where the traversal returns the search does, and a node is collected exactly
  if it is enclosed by an edge: it leads to the start of the edge below it, and is below the end of
  the edge itself;
* `exists_depthFirst` — with room for every node that it can reach and that has children, the
  traversal returns.
-/

namespace Base

namespace BackEdges

variable {α : Type}

/-- What a search knows of a node. -/
inductive Colour where
  | unvisited
  | onPath
  | done
  deriving DecidableEq

/-- A search: what it knows of the nodes, the path to where it is, and what it has collected. -/
structure Search (α : Type) where
  colour : α → Colour
  path : List α
  collected : List α

section Relations

variable (children : α → Except PyError (List α))

/-- A node and one of its children. -/
def Leads (node other : α) : Prop := ∃ next, children node = .ok next ∧ other ∈ next

/-- A node leads to another without certain nodes. -/
def LeadsWithout (before : List α) (node other : α) : Prop :=
  node ∉ before ∧ Relation.ReflTransGen (fun u v => Leads children u v ∧ v ∉ before) node other

/-- A node leads to another without those that come before it in an order. -/
def Below (order : List α) (node other : α) : Prop :=
  ∃ before after, order = before ++ node :: after ∧ LeadsWithout children before node other

/-- An edge encloses a node: it goes from a node below it to one that it is below of. -/
def Enclosed (order : List α) (node : α) : Prop :=
  ∃ start stop, Below children order stop node ∧ Below children order node start ∧
    Leads children start stop

variable {children}

theorem LeadsWithout.refl {before : List α} {node : α} (h : node ∉ before) :
    LeadsWithout children before node node := ⟨h, .refl⟩

theorem LeadsWithout.tail {before : List α} {node other next : α}
    (h : LeadsWithout children before node other) (hleads : Leads children other next)
    (hnext : next ∉ before) : LeadsWithout children before node next :=
  ⟨h.1, h.2.tail ⟨hleads, hnext⟩⟩

theorem LeadsWithout.head {before : List α} {node other next : α} (hnode : node ∉ before)
    (hleads : Leads children node other) (h : LeadsWithout children before other next) :
    LeadsWithout children before node next :=
  ⟨hnode, .head ⟨hleads, h.1⟩ h.2⟩

theorem LeadsWithout.trans {before : List α} {node other next : α}
    (h : LeadsWithout children before node other) (h' : LeadsWithout children before other next) :
    LeadsWithout children before node next := ⟨h.1, h.2.trans h'.2⟩

theorem LeadsWithout.mono {before before' : List α} (hsub : before' ⊆ before) {node other : α}
    (h : LeadsWithout children before node other) : LeadsWithout children before' node other :=
  ⟨fun hmem => h.1 (hsub hmem),
    Relation.ReflTransGen.mono (fun _ _ hstep => ⟨hstep.1, fun hmem => hstep.2 (hsub hmem)⟩)
      _ _ h.2⟩

theorem LeadsWithout.not_mem {before : List α} {node other : α}
    (h : LeadsWithout children before node other) : other ∉ before := by
  rcases h.2.cases_tail with rfl | ⟨_, _, hstep⟩
  · exact h.1
  · exact hstep.2

/-- What a node leads to stays among nodes whose children are there, or left out. -/
theorem LeadsWithout.mem_of_closed {before inside : List α} {node other : α}
    (hclosed : ∀ u ∈ inside, ∀ v, Leads children u v → v ∉ before → v ∈ inside)
    (hnode : node ∈ inside) (h : LeadsWithout children before node other) : other ∈ inside := by
  induction h.2 with
  | refl => exact hnode
  | tail hreach hstep ih => exact hclosed _ (ih ⟨h.1, hreach⟩) _ hstep.1 hstep.2

/-- A node is at one place of an order only. -/
theorem below_iff {before after : List α} {node other : α}
    (hnodup : (before ++ node :: after).Nodup) :
    Below children (before ++ node :: after) node other ↔
      LeadsWithout children before node other := by
  refine ⟨?_, fun hleads => ⟨before, after, rfl, hleads⟩⟩
  rintro ⟨before', after', heq, hleads⟩
  obtain ⟨-, hrest, hbefore⟩ := List.nodup_append.mp hnodup
  obtain ⟨rfl, -⟩ := (List.append_cons_inj_of_notMem
    (fun hmem => hbefore _ hmem _ List.mem_cons_self rfl) (List.nodup_cons.mp hrest).1).mp heq
  exact hleads

theorem Below.mem {order : List α} {node other : α} (h : Below children order node other) :
    node ∈ order := by
  obtain ⟨before, after, rfl, -⟩ := h
  exact List.mem_append_right _ List.mem_cons_self

/-- What comes later does not matter to what is below a node. -/
theorem below_append_iff {order more : List α} (hnodup : (order ++ more).Nodup) {node other : α}
    (hnode : node ∈ order) :
    Below children (order ++ more) node other ↔ Below children order node other := by
  obtain ⟨before, after, rfl⟩ := List.append_of_mem hnode
  have hshort := (List.nodup_append.mp hnodup).1
  rw [List.append_assoc, List.cons_append] at hnodup ⊢
  rw [below_iff hnodup, below_iff hshort]

/-- What is below a node can be reached without those that come before a part of the order that the
node is in. -/
theorem Below.leadsWithout {before after : List α} (hnodup : (before ++ after).Nodup)
    {node other : α} (hnode : node ∈ after) (h : Below children (before ++ after) node other) :
    LeadsWithout children before node other := by
  obtain ⟨first, rest, rfl⟩ := List.append_of_mem hnode
  rw [← List.append_assoc] at hnodup h
  exact ((below_iff hnodup).mp h).mono (List.subset_append_left _ _)

end Relations

/-! ## The search -/

variable [DecidableEq α]

/-- Search from a node, with room for a number of nested searches. -/
def search (children : α → Except PyError (List α)) :
    Nat → Search α → α → Except PyError (Search α)
  | 0, _, _ => .error .recursionError
  | room + 1, s, node =>
      match s.colour node with
      | .onPath =>
          .ok { s with collected := s.collected ++ (s.path.drop (s.path.idxOf node) ++ [node]) }
      | .done => .ok s
      | .unvisited =>
          match children node with
          | .error e => .error e
          | .ok next =>
              (next.foldlM (search children room)
                { s with colour := Function.update s.colour node .onPath,
                         path := s.path ++ [node] }).map fun s =>
                { s with colour := Function.update s.colour node .done, path := s.path.dropLast }

/-- Search from every node that was not visited yet. -/
def searchAll (children : α → Except PyError (List α)) (room : Nat) (nodes : List α) :
    Except PyError (Search α) :=
  nodes.foldlM (fun s node =>
      if s.colour node = .unvisited then search children room s node else .ok s)
    ⟨fun _ => .unvisited, [], []⟩

/-- What a depth-first traversal finds at a node: its children. -/
def lookAt (children : α → Except PyError (List α)) : Traversal.Look α Unit := fun node =>
  (children node).map fun next => some ((), next)

/-- The nodes in the order in which a depth-first traversal comes to them. -/
def depthFirst (children : α → Except PyError (List α)) (room : Nat) (nodes : List α) :
    Except PyError (List α) :=
  (nodes.foldlM (Traversal.visit (lookAt children) room) []).map (List.map Prod.fst)

/-- What a search knows is right: it has visited the nodes in `seen`, each once, and those on its
path are on its path. -/
structure Represents (s : Search α) (seen : List α) : Prop where
  nodup : seen.Nodup
  path : s.path.Nodup
  visited : ∀ node, s.colour node ≠ .unvisited ↔ node ∈ seen
  onPath : ∀ node, s.colour node = .onPath ↔ node ∈ s.path

/-- A node of a path and one that comes after it there, or is the same. -/
def FromOn (path : List α) (node other : α) : Prop :=
  ∃ before after, path = before ++ node :: after ∧ other ∈ node :: after

variable {children : α → Except PyError (List α)}

/-- What searches from some nodes do: they visit those that these lead to without the nodes that
were visited before, and they collect what is on the path from the end of an edge on, and what an
edge encloses. -/
structure Explored (children : α → Except PyError (List α)) (s : Search α)
    (seen heads more : List α)
    (s' : Search α) : Prop where
  represents : Represents s' (seen ++ more)
  path : s'.path = s.path
  reached : ∀ node, node ∈ more ↔ ∃ head ∈ heads, LeadsWithout children seen head node
  collected : ∀ node, node ∈ s'.collected ↔ node ∈ s.collected ∨
    (∃ stop, FromOn s.path stop node ∧ (stop ∈ heads ∨ ∃ start ∈ more, Leads children start stop)) ∨
    (node ∈ more ∧ ∃ start stop, Below children (seen ++ more) node start ∧
      Leads children start stop ∧
        (stop ∈ s.path ∨ stop ∈ more ∧ Below children (seen ++ more) stop node))

omit [DecidableEq α] in
theorem FromOn.mem {path : List α} {node other : α} (h : FromOn path node other) :
    node ∈ path ∧ other ∈ path := by
  obtain ⟨before, after, rfl, hother⟩ := h
  exact ⟨List.mem_append_right _ List.mem_cons_self, List.mem_append_right _ hother⟩

omit [DecidableEq α] in
/-- A path that is one node longer. -/
theorem fromOn_concat_iff {path : List α} {last node other : α} (hlast : last ∉ path) :
    FromOn (path ++ [last]) node other ↔
      FromOn path node other ∨ node ∈ path ++ [last] ∧ other = last := by
  constructor
  · rintro ⟨before, after, heq, hother⟩
    have hnode : node ∈ path ++ [last] := by
      rw [heq]
      exact List.mem_append_right _ List.mem_cons_self
    by_cases hsame : other = last
    · exact .inr ⟨hnode, hsame⟩
    · left
      rcases List.append_eq_append_iff.mp heq
        with ⟨within, hbefore, hwithin⟩ | ⟨within, hpath, hafter⟩
      · rcases List.singleton_eq_append_iff.mp hwithin with ⟨rfl, hcons⟩ | ⟨-, hcons⟩
        · obtain ⟨rfl, rfl⟩ := List.cons.inj hcons
          exact absurd (List.mem_singleton.mp hother) hsame
        · cases hcons
      · cases within with
        | nil =>
            obtain ⟨rfl, rfl⟩ := List.cons.inj hafter
            exact absurd (List.mem_singleton.mp hother) hsame
        | cons start within =>
            obtain ⟨rfl, rfl⟩ := List.cons.inj hafter
            refine ⟨before, within, hpath, ?_⟩
            rcases List.mem_append.mp (show other ∈ node :: within ++ [last] from hother) with
              hmem | hmem
            · exact hmem
            · exact absurd (List.mem_singleton.mp hmem) hsame
  · rintro (⟨before, after, rfl, hother⟩ | ⟨hnode, rfl⟩)
    · exact ⟨before, after ++ [last], by rw [List.append_assoc, List.cons_append],
        List.mem_append_left [last] hother⟩
    · rcases List.mem_append.mp hnode with hnode | hnode
      · obtain ⟨before, after, rfl⟩ := List.append_of_mem hnode
        exact ⟨before, after ++ [other], by rw [List.append_assoc, List.cons_append],
          List.mem_append_right (node :: after) List.mem_cons_self⟩
      · rw [List.mem_singleton.mp hnode]
        exact ⟨path, [], rfl, List.mem_cons_self⟩

/-- What is collected at a node on the path. -/
theorem mem_drop_idxOf_iff {path : List α} (hnodup : path.Nodup) {node other : α}
    (hnode : node ∈ path) :
    other ∈ path.drop (path.idxOf node) ++ [node] ↔ FromOn path node other := by
  obtain ⟨before, after, rfl⟩ := List.append_of_mem hnode
  have hnot : node ∉ before := fun hmem =>
    (List.nodup_append.mp hnodup).2.2 _ hmem _ List.mem_cons_self rfl
  have hdrop : (before ++ node :: after).drop ((before ++ node :: after).idxOf node) =
      node :: after := by
    rw [List.idxOf_append_of_notMem hnot, List.idxOf_cons_self, Nat.add_zero, List.drop_left]
  rw [hdrop]
  constructor
  · intro hother
    refine ⟨before, after, rfl, ?_⟩
    rcases List.mem_append.mp hother with hmem | hmem
    · exact hmem
    · rw [List.mem_singleton.mp hmem]
      exact List.mem_cons_self
  · rintro ⟨before', after', heq, hother⟩
    obtain ⟨-, hrest, hbefore⟩ := List.nodup_append.mp hnodup
    obtain ⟨-, -, rfl⟩ := (List.append_cons_inj_of_notMem
      (fun hmem => hbefore _ hmem _ List.mem_cons_self rfl) (List.nodup_cons.mp hrest).1).mp heq
    exact List.mem_append_left _ hother

/-- The nodes as the traversal lists them. -/
def listed (seen : List α) : List (α × Unit) := seen.map fun node => (node, ())

omit [DecidableEq α] in
@[simp] theorem map_fst_listed (seen : List α) : (listed seen).map Prod.fst = seen := by
  rw [listed, List.map_map]
  exact List.map_id _

omit [DecidableEq α] in
theorem listed_append (seen more : List α) : listed (seen ++ more) = listed seen ++ listed more :=
  List.map_append

/-! ## What a visit collects -/

omit [DecidableEq α] in
/-- What was visited leads to nothing else that was not there before. -/
theorem Explored.mem_of_leadsWithout {s s' : Search α} {seen heads more : List α}
    (h : Explored children s seen heads more s') {node other : α} (hnode : node ∈ more)
    (hleads : LeadsWithout children seen node other) : other ∈ more := by
  obtain ⟨head, hhead, hreach⟩ := (h.reached node).mp hnode
  exact (h.reached other).mpr ⟨head, hhead, hreach.trans hleads⟩

omit [DecidableEq α] in
/-- Without roots nothing is collected. -/
theorem Explored.nil {s : Search α} {seen : List α} (h : Represents s seen) :
    Explored children s seen [] [] s where
  represents := by rwa [List.append_nil]
  path := rfl
  reached := by simp
  collected := by simp

omit [DecidableEq α] in
theorem not_leadsWithout {s : Search α} {seen : List α} (h : Represents s seen) {node : α}
    (hnode : s.colour node ≠ .unvisited) (other : α) : ¬ LeadsWithout children seen node other :=
  fun hleads => hleads.1 ((h.visited node).mp hnode)

omit [DecidableEq α] in
theorem Represents.off_path {s : Search α} {seen : List α} (h : Represents s seen) {node : α}
    (hnode : node ∉ seen) : node ∉ s.path := by
  intro hmem
  have honPath := (h.onPath node).mpr hmem
  exact hnode ((h.visited node).mp (by rw [honPath]; decide))

/-- A node on the path closes a cycle. -/
theorem explored_onPath {s : Search α} {seen : List α} (h : Represents s seen) {node : α}
    (hnode : s.colour node = .onPath) :
    Explored children s seen [node] []
      { s with collected := s.collected ++ (s.path.drop (s.path.idxOf node) ++ [node]) } where
  represents := by
    rw [List.append_nil]
    exact ⟨h.nodup, h.path, h.visited, h.onPath⟩
  path := rfl
  reached := by
    intro other
    have hnot : ¬ LeadsWithout children seen node other :=
      not_leadsWithout h (by rw [hnode]; decide) other
    simp [hnot]
  collected := by
    intro other
    rw [List.mem_append, mem_drop_idxOf_iff h.path ((h.onPath node).mp hnode)]
    simp

omit [DecidableEq α] in
/-- A node that is done is left alone. -/
theorem explored_done {s : Search α} {seen : List α} (h : Represents s seen) {node : α}
    (hnode : s.colour node = .done) : Explored children s seen [node] [] s where
  represents := by rwa [List.append_nil]
  path := rfl
  reached := by
    intro other
    have hnot : ¬ LeadsWithout children seen node other :=
      not_leadsWithout h (by rw [hnode]; decide) other
    simp [hnot]
  collected := by
    intro other
    have hnot : ¬ FromOn s.path node other := by
      intro hfrom
      have honPath := (h.onPath node).mpr hfrom.mem.1
      rw [hnode] at honPath
      cases honPath
    simp [hnot]

/-- What a node and its children lead to. -/
theorem reached_cons {seen next more : List α} {node : α} (hnode : node ∉ seen)
    (hnext : children node = .ok next)
    (hreached : ∀ other, other ∈ more ↔
      ∃ head ∈ next, LeadsWithout children (seen ++ [node]) head other) (other : α) :
    other ∈ node :: more ↔ LeadsWithout children seen node other := by
  have hleads : ∀ head, Leads children node head ↔ head ∈ next := by
    intro head
    refine ⟨?_, fun hhead => ⟨next, hnext, hhead⟩⟩
    rintro ⟨next', hnext', hhead⟩
    cases hnext.symm.trans hnext'
    exact hhead
  constructor
  · intro hother
    rcases List.mem_cons.mp hother with rfl | hother
    · exact .refl hnode
    · obtain ⟨head, hhead, hreach⟩ := (hreached other).mp hother
      exact .head hnode ((hleads head).mpr hhead) (hreach.mono (List.subset_append_left _ _))
  · refine LeadsWithout.mem_of_closed ?_ List.mem_cons_self
    -- a child is the node itself again, or it was not there before the node
    intro u hu v huv hv
    by_cases hsame : v = node
    · exact hsame ▸ List.mem_cons_self
    · have hv' : v ∉ seen ++ [node] := by
        simp [hv, hsame]
      refine List.mem_cons_of_mem _ ((hreached v).mpr ?_)
      rcases List.mem_cons.mp hu with rfl | hu
      · exact ⟨v, (hleads v).mp huv, .refl hv'⟩
      · obtain ⟨head, hhead, hreach⟩ := (hreached u).mp hu
        exact ⟨head, hhead, hreach.tail huv hv'⟩

omit [DecidableEq α] in
/-- The end of an edge of a node or of what its children lead to. -/
theorem edge_cons_iff {next more : List α} {node : α} (hnext : children node = .ok next)
    (stop : α) :
    (stop ∈ next ∨ ∃ start ∈ more, Leads children start stop) ↔
      ∃ start ∈ node :: more, Leads children start stop := by
  constructor
  · rintro (hstop | ⟨start, hstart, hleads⟩)
    · exact ⟨node, List.mem_cons_self, next, hnext, hstop⟩
    · exact ⟨start, List.mem_cons_of_mem _ hstart, hleads⟩
  · rintro ⟨start, hstart, hleads⟩
    rcases List.mem_cons.mp hstart with rfl | hstart
    · obtain ⟨next', hnext', hstop⟩ := hleads
      cases hnext.symm.trans hnext'
      exact .inl hstop
    · exact .inr ⟨start, hstart, hleads⟩

/-- A node that is visited is on the path. -/
theorem Represents.enter {s : Search α} {seen : List α} (h : Represents s seen) {node : α}
    (hnode : node ∉ seen) : Represents
      { s with colour := Function.update s.colour node .onPath, path := s.path ++ [node] }
      (seen ++ [node]) where
  nodup := by
    rw [List.nodup_append_comm]
    exact List.nodup_cons.mpr ⟨hnode, h.nodup⟩
  path := by
    rw [List.nodup_append_comm]
    exact List.nodup_cons.mpr ⟨h.off_path hnode, h.path⟩
  visited := by
    intro other
    by_cases hsame : other = node
    · simp [hsame]
    · simpa [hsame] using h.visited other
  onPath := by
    intro other
    by_cases hsame : other = node
    · simp [hsame]
    · simpa [hsame] using h.onPath other

/-- **A node that was not visited yet, and then its children.** -/
theorem explored_unvisited {s s' : Search α} {seen next more : List α} (h : Represents s seen)
    {node : α} (hnode : node ∉ seen) (hnext : children node = .ok next)
    (hmore : Explored children
      { s with colour := Function.update s.colour node .onPath, path := s.path ++ [node] }
      (seen ++ [node]) next more s') :
    Explored children s seen [node] (node :: more)
      { s' with colour := Function.update s'.colour node .done, path := s'.path.dropLast } := by
  have hreached := reached_cons hnode hnext hmore.reached
  have horder : seen ++ [node] ++ more = seen ++ node :: more := by
    rw [List.append_assoc, List.singleton_append]
  have hnodup : (seen ++ node :: more).Nodup := horder ▸ hmore.represents.nodup
  have hpath : s'.path.dropLast = s.path := by
    rw [hmore.path, List.dropLast_concat]
  have hoff := h.off_path hnode
  have hbelow : ∀ other, Below children (seen ++ node :: more) node other ↔ other ∈ node :: more :=
    fun other => (below_iff hnodup).trans (hreached other).symm
  -- nothing that is visited after the node leads to it without it
  have hafter : ∀ stop ∈ more, ¬ Below children (seen ++ node :: more) stop node := by
    intro stop hstop hleads
    rw [← horder] at hnodup hleads
    exact (hleads.leadsWithout hnodup hstop).not_mem (by simp)
  refine ⟨⟨hnodup, ?_, ?_, ?_⟩, hpath, ?_, ?_⟩
  · rw [hpath]
    exact h.path
  · intro other
    rw [← horder, ← hmore.represents.visited]
    by_cases hsame : other = node
    · subst hsame
      have hvisited := (hmore.represents.visited other).mpr (by simp)
      simp [hvisited]
    · simp [hsame]
  · intro other
    rw [hpath]
    by_cases hsame : other = node
    · subst hsame
      simp [hoff]
    · have honPath := hmore.represents.onPath other
      rw [hmore.path] at honPath
      simpa [hsame] using honPath
  · intro other
    rw [hreached other]
    simp
  · intro other
    have hcollected := hmore.collected other
    simp only [horder, edge_cons_iff hnext, fromOn_concat_iff hoff] at hcollected
    rw [hcollected]
    constructor
    · rintro (hold | ⟨stop, hfrom | ⟨hstop, rfl⟩, hedge⟩
        | ⟨hother, start, stop, hdown, hleads, hstop⟩)
      · exact .inl hold
      · exact .inr (.inl ⟨stop, hfrom, .inr hedge⟩)
      · -- an edge back to the node, or to the path before it
        obtain ⟨start, hstart, hleads⟩ := hedge
        refine .inr (.inr ⟨List.mem_cons_self, start, stop, (hbelow start).mpr hstart, hleads, ?_⟩)
        rcases List.mem_append.mp hstop with hstop | hstop
        · exact .inl hstop
        · rw [List.mem_singleton.mp hstop]
          exact .inr ⟨List.mem_cons_self, (hbelow other).mpr List.mem_cons_self⟩
      · have hother' := List.mem_cons_of_mem node hother
        refine .inr (.inr ⟨hother', start, stop, hdown, hleads, ?_⟩)
        rcases hstop with hstop | ⟨hstop, hstart⟩
        · rcases List.mem_append.mp hstop with hstop | hstop
          · exact .inl hstop
          · rw [List.mem_singleton.mp hstop]
            exact .inr ⟨List.mem_cons_self, (hbelow other).mpr hother'⟩
        · exact .inr ⟨List.mem_cons_of_mem _ hstop, hstart⟩
    · rintro (hold | ⟨stop, hfrom, hedge⟩ | ⟨hother, start, stop, hdown, hleads, hstop⟩)
      · exact .inl hold
      · refine .inr (.inl ⟨stop, .inl hfrom, ?_⟩)
        rcases hedge with hstop | hedge
        · rw [List.mem_singleton.mp hstop] at hfrom
          exact absurd hfrom.mem.1 hoff
        · exact hedge
      · have hstop' : stop ∈ s.path ++ [node] ∨
            stop ∈ more ∧ Below children (seen ++ node :: more) stop other := by
          rcases hstop with hstop | ⟨hstop, hup⟩
          · exact .inl (List.mem_append_left _ hstop)
          · rcases List.mem_cons.mp hstop with rfl | hstop
            · exact .inl (List.mem_append_right _ List.mem_cons_self)
            · exact .inr ⟨hstop, hup⟩
        rcases List.mem_cons.mp hother with rfl | hother
        · refine .inr (.inl ⟨stop, .inr ⟨?_, rfl⟩, start, (hbelow start).mp hdown, hleads⟩)
          rcases hstop' with hstop | ⟨hstop, hup⟩
          · exact hstop
          · exact absurd hup (hafter stop hstop)
        · exact .inr (.inr ⟨hother, start, stop, hdown, hleads, hstop'⟩)

omit [DecidableEq α] in
/-- **One root after the others.** -/
theorem Explored.cons {s s₁ s₂ : Search α} {seen first rest : List α} {node : α} {heads : List α}
    (hfirst : Explored children s seen [node] first s₁)
    (hrest : Explored children s₁ (seen ++ first) heads rest s₂) :
    Explored children s seen (node :: heads) (first ++ rest) s₂ := by
  have hrepresents := hrest.represents
  have hnodup := hrepresents.nodup
  have hshort := (List.nodup_append.mp hnodup).1
  rw [List.append_assoc] at hrepresents
  have hapart : ∀ other ∈ first, other ∉ rest := by
    intro other hother hother'
    exact (List.nodup_append.mp hnodup).2.2 other (List.mem_append_right _ hother) other hother' rfl
  have hbefore : ∀ other ∈ first, other ∉ seen := by
    intro other hother hother'
    exact (List.nodup_append.mp hshort).2.2 other hother' other hother rfl
  refine ⟨hrepresents, hrest.path.trans hfirst.path, ?_, ?_⟩
  · intro other
    constructor
    · intro hother
      rcases List.mem_append.mp hother with hother | hother
      · obtain ⟨head, hhead, hreach⟩ := (hfirst.reached other).mp hother
        rw [List.mem_singleton.mp hhead] at hreach
        exact ⟨node, List.mem_cons_self, hreach⟩
      · obtain ⟨head, hhead, hreach⟩ := (hrest.reached other).mp hother
        exact ⟨head, List.mem_cons_of_mem _ hhead, hreach.mono (List.subset_append_left _ _)⟩
    · rintro ⟨head, hhead, hreach⟩
      rcases List.mem_cons.mp hhead with rfl | hhead
      · exact List.mem_append_left _
          ((hfirst.reached other).mpr ⟨head, List.mem_cons_self, hreach⟩)
      · refine hreach.mem_of_closed ?_ ?_
        · intro u hu v huv hv
          by_cases hv' : v ∈ first
          · exact List.mem_append_left _ hv'
          · have hnew : v ∉ seen ++ first := by
              simp [hv, hv']
            rcases List.mem_append.mp hu with hu | hu
            · exact absurd (hfirst.mem_of_leadsWithout hu (.head (hbefore u hu) huv (.refl hv))) hv'
            · obtain ⟨start, hstart, hreach'⟩ := (hrest.reached u).mp hu
              exact List.mem_append_right _
                ((hrest.reached v).mpr ⟨start, hstart, hreach'.tail huv hnew⟩)
        · by_cases hhead' : head ∈ first
          · exact List.mem_append_left _ hhead'
          · have hnew : head ∉ seen ++ first := by
              simp [hreach.1, hhead']
            exact List.mem_append_right _ ((hrest.reached head).mpr ⟨head, hhead, .refl hnew⟩)
  · intro other
    rw [hrest.collected other, hfirst.collected other, hfirst.path, ← List.append_assoc]
    have hfirstBelow : ∀ u ∈ first, ∀ v,
        Below children (seen ++ first ++ rest) u v ↔ Below children (seen ++ first) u v :=
      fun u hu v => below_append_iff hnodup (List.mem_append_right _ hu)
    -- no node is below one that was visited later, or after another root
    have hnotFirst : ∀ u ∈ rest, ∀ v ∈ first, ¬ Below children (seen ++ first ++ rest) u v := by
      intro u hu v hv hbelow
      exact (hbelow.leadsWithout hnodup hu).not_mem (List.mem_append_right _ hv)
    have hnotRest : ∀ u ∈ first, ∀ v ∈ rest, ¬ Below children (seen ++ first ++ rest) u v := by
      intro u hu v hv hbelow
      rw [hfirstBelow u hu] at hbelow
      exact hapart v (hfirst.mem_of_leadsWithout hu (hbelow.leadsWithout hshort hu)) hv
    constructor
    · rintro ((hold | ⟨stop, hfrom, hedge⟩ | ⟨hother, start, stop, hdown, hleads, hstop⟩) |
        ⟨stop, hfrom, hedge⟩ | ⟨hother, start, stop, hdown, hleads, hstop⟩)
      · exact .inl hold
      · refine .inr (.inl ⟨stop, hfrom, ?_⟩)
        rcases hedge with hstop | ⟨start, hstart, hleads⟩
        · rw [List.mem_singleton.mp hstop]
          exact .inl List.mem_cons_self
        · exact .inr ⟨start, List.mem_append_left _ hstart, hleads⟩
      · refine .inr (.inr ⟨List.mem_append_left _ hother, start, stop,
          (hfirstBelow other hother start).mpr hdown, hleads, ?_⟩)
        rcases hstop with hstop | ⟨hstop, hup⟩
        · exact .inl hstop
        · exact .inr ⟨List.mem_append_left _ hstop, (hfirstBelow stop hstop other).mpr hup⟩
      · refine .inr (.inl ⟨stop, hfrom, ?_⟩)
        rcases hedge with hstop | ⟨start, hstart, hleads⟩
        · exact .inl (List.mem_cons_of_mem _ hstop)
        · exact .inr ⟨start, List.mem_append_right _ hstart, hleads⟩
      · refine .inr (.inr ⟨List.mem_append_right _ hother, start, stop, hdown, hleads, ?_⟩)
        rcases hstop with hstop | ⟨hstop, hup⟩
        · exact .inl hstop
        · exact .inr ⟨List.mem_append_right _ hstop, hup⟩
    · rintro (hold | ⟨stop, hfrom, hedge⟩ | ⟨hother, start, stop, hdown, hleads, hstop⟩)
      · exact .inl (.inl hold)
      · rcases hedge with hstop | ⟨start, hstart, hleads⟩
        · rcases List.mem_cons.mp hstop with rfl | hstop
          · exact .inl (.inr (.inl ⟨stop, hfrom, .inl List.mem_cons_self⟩))
          · exact .inr (.inl ⟨stop, hfrom, .inl hstop⟩)
        · rcases List.mem_append.mp hstart with hstart | hstart
          · exact .inl (.inr (.inl ⟨stop, hfrom, .inr ⟨start, hstart, hleads⟩⟩))
          · exact .inr (.inl ⟨stop, hfrom, .inr ⟨start, hstart, hleads⟩⟩)
      · rcases List.mem_append.mp hother with hother | hother
        · refine .inl (.inr (.inr ⟨hother, start, stop, (hfirstBelow other hother start).mp hdown,
            hleads, ?_⟩))
          rcases hstop with hstop | ⟨hstop, hup⟩
          · exact .inl hstop
          · rcases List.mem_append.mp hstop with hstop | hstop
            · exact .inr ⟨hstop, (hfirstBelow stop hstop other).mp hup⟩
            · exact absurd hup (hnotFirst stop hstop other hother)
        · refine .inr (.inr ⟨hother, start, stop, hdown, hleads, ?_⟩)
          rcases hstop with hstop | ⟨hstop, hup⟩
          · exact .inl hstop
          · rcases List.mem_append.mp hstop with hstop | hstop
            · exact absurd hup (hnotRest stop hstop other hother)
            · exact .inr ⟨hstop, hup⟩

/-- Searches from several roots go with visits to them, if each search does. -/
theorem explored_foldlM {step : Search α → α → Except PyError (Search α)} {path : List α}
    {room : Nat} (hstep : ∀ s seen node pairs, Represents s seen → s.path = path →
      Traversal.visit (lookAt children) room (listed seen) node = .ok pairs →
      ∃ more s', pairs = listed (seen ++ more) ∧ step s node = .ok s' ∧
        Explored children s seen [node] more s')
    {nodes : List α} {s : Search α} {seen : List α} {pairs : List (α × Unit)}
    (h : Represents s seen) (hpath : s.path = path)
    (hvisit : nodes.foldlM (Traversal.visit (lookAt children) room) (listed seen) = .ok pairs) :
    ∃ more s', pairs = listed (seen ++ more) ∧ nodes.foldlM step s = .ok s' ∧
      Explored children s seen nodes more s' := by
  induction nodes generalizing s seen with
  | nil =>
      obtain rfl := Except.ok.inj hvisit
      exact ⟨[], s, by rw [List.append_nil], rfl, Explored.nil h⟩
  | cons node rest ih =>
      rw [List.foldlM_cons] at hvisit
      cases hfirst : Traversal.visit (lookAt children) room (listed seen) node with
      | error e => simp [hfirst, bind, Except.bind] at hvisit
      | ok between =>
          rw [hfirst] at hvisit
          obtain ⟨first, s₁, rfl, hs₁, hexplored⟩ := hstep s seen node between h hpath hfirst
          obtain ⟨more, s', rfl, hs', hmore⟩ :=
            ih hexplored.represents (hexplored.path.trans hpath) hvisit
          refine ⟨first ++ more, s', by rw [List.append_assoc], ?_, hexplored.cons hmore⟩
          rw [List.foldlM_cons, hs₁]
          exact hs'

/-- **A search goes with a visit of a traversal**, to the same nodes. -/
theorem explored_search (room : Nat) {s : Search α} {seen : List α} {node : α}
    {pairs : List (α × Unit)} (h : Represents s seen)
    (hvisit : Traversal.visit (lookAt children) room (listed seen) node = .ok pairs) :
    ∃ more s', pairs = listed (seen ++ more) ∧ search children room s node = .ok s' ∧
      Explored children s seen [node] more s' := by
  induction room generalizing s seen node pairs with
  | zero => cases hvisit
  | succ room ih =>
      unfold Traversal.visit at hvisit
      rw [map_fst_listed] at hvisit
      unfold search
      cases hcolour : s.colour node with
      | onPath =>
          have hmem := (h.visited node).mp (by rw [hcolour]; decide)
          rw [if_pos hmem] at hvisit
          obtain rfl := Except.ok.inj hvisit
          exact ⟨[], _, by rw [List.append_nil], rfl, explored_onPath h hcolour⟩
      | done =>
          have hmem := (h.visited node).mp (by rw [hcolour]; decide)
          rw [if_pos hmem] at hvisit
          obtain rfl := Except.ok.inj hvisit
          exact ⟨[], s, by rw [List.append_nil], rfl, explored_done h hcolour⟩
      | unvisited =>
          have hnode : node ∉ seen := by
            intro hmem
            exact (h.visited node).mpr hmem hcolour
          rw [if_neg hnode] at hvisit
          cases hnext : children node with
          | error e =>
              have hlook : lookAt children node = .error e := by
                rw [lookAt, hnext]
                rfl
              simp [hlook] at hvisit
          | ok next =>
              have hlook : lookAt children node = .ok (some ((), next)) := by
                rw [lookAt, hnext]
                rfl
              simp only [hlook] at hvisit
              obtain ⟨more, s', rfl, hs', hmore⟩ :=
                explored_foldlM (fun s seen node pairs hs _ => ih hs) (h.enter hnode) rfl
                  (by rw [listed_append]; exact hvisit)
              refine ⟨node :: more, _, by simp, ?_, explored_unvisited h hnode hnext hmore⟩
              simp only [hs', Except.map]

/-! ## The whole search -/

omit [DecidableEq α] in
theorem represents_nil : Represents (α := α) ⟨fun _ => .unvisited, [], []⟩ [] where
  nodup := List.nodup_nil
  path := List.nodup_nil
  visited := by simp
  onPath := by simp

/-- A search that starts where no path is goes with a visit too. -/
theorem explored_restart {room : Nat} {s : Search α} {seen : List α} {node : α}
    {pairs : List (α × Unit)} (h : Represents s seen) (hpath : s.path = [])
    (hvisit : Traversal.visit (lookAt children) room (listed seen) node = .ok pairs) :
    ∃ more s', pairs = listed (seen ++ more) ∧
      (if s.colour node = .unvisited then search children room s node else .ok s) = .ok s' ∧
      Explored children s seen [node] more s' := by
  obtain ⟨more, s', hpairs, hs', hmore⟩ := explored_search room h hvisit
  by_cases hcolour : s.colour node = .unvisited
  · rw [if_pos hcolour]
    exact ⟨more, s', hpairs, hs', hmore⟩
  · rw [if_neg hcolour]
    have hdone : s.colour node = .done := by
      cases hcase : s.colour node with
      | unvisited => exact absurd hcase hcolour
      | onPath =>
          have hmem := (h.onPath node).mp hcase
          rw [hpath] at hmem
          cases hmem
      | done => rfl
    have hnone : more = [] := by
      refine List.eq_nil_iff_forall_not_mem.mpr fun other hother => ?_
      obtain ⟨head, hhead, hreach⟩ := (hmore.reached other).mp hother
      rw [List.mem_singleton.mp hhead] at hreach
      exact not_leadsWithout h hcolour other hreach
    subst hnone
    exact ⟨[], s, hpairs, rfl, explored_done h hdone⟩

/-- **A node is collected exactly if it is enclosed by an edge**, in the order in which a
depth-first traversal comes to the nodes. -/
theorem exists_searchAll {room : Nat} {nodes order : List α}
    (h : depthFirst children room nodes = .ok order) :
    ∃ s, searchAll children room nodes = .ok s ∧
      ∀ node, node ∈ s.collected ↔ Enclosed children order node := by
  unfold depthFirst at h
  cases hvisit : nodes.foldlM (Traversal.visit (lookAt children) room) [] with
  | error e => simp [hvisit, Except.map] at h
  | ok pairs =>
      rw [hvisit] at h
      obtain rfl := Except.ok.inj h
      obtain ⟨more, s, rfl, hs, hmore⟩ := explored_foldlM
        (fun s seen node pairs => explored_restart) represents_nil rfl hvisit
      refine ⟨s, hs, fun node => ?_⟩
      rw [map_fst_listed, List.nil_append, hmore.collected]
      constructor
      · rintro (hold | ⟨stop, hfrom, -⟩ | ⟨hnode, start, stop, hdown, hleads, hstop⟩)
        · cases hold
        · cases hfrom.mem.1
        · rcases hstop with hstop | ⟨-, hup⟩
          · cases hstop
          · exact ⟨start, stop, hup, hdown, hleads⟩
      · rintro ⟨start, stop, hup, hdown, hleads⟩
        exact .inr (.inr ⟨hdown.mem, start, stop, hdown, hleads, .inr ⟨hup.mem, hup⟩⟩)

omit [DecidableEq α] in
theorem Enclosed.onCycle {order : List α} {node : α} (h : Enclosed children order node) :
    Relation.TransGen (Leads children) node node := by
  obtain ⟨start, stop, ⟨_, _, -, hup⟩, ⟨_, _, -, hdown⟩, hleads⟩ := h
  have hdown' := Relation.ReflTransGen.mono (fun _ _ hstep => hstep.1) _ _ hdown.2
  have hup' := Relation.ReflTransGen.mono (fun _ _ hstep => hstep.1) _ _ hup.2
  exact (Relation.TransGen.tail' hdown' hleads).trans_left hup'

omit [DecidableEq α] in
theorem edge_iff_leads (node other : α) :
    Traversal.Edge (lookAt children) node other ↔ Leads children node other := by
  constructor
  · rintro ⟨report, next, hlook, hother⟩
    cases hnext : children node with
    | error e => simp [lookAt, hnext, Except.map] at hlook
    | ok next' =>
        obtain ⟨rfl, rfl⟩ : () = report ∧ next' = next := by
          simpa [lookAt, hnext, Except.map] using hlook
        exact ⟨next', hnext, hother⟩
  · rintro ⟨next, hnext, hother⟩
    exact ⟨(), next, by rw [lookAt, hnext]; rfl, hother⟩

/-- With room for every node that can be reached and has children, a depth-first traversal
returns. -/
theorem exists_depthFirst {inside : Finset α} {room : Nat} (hroom : inside.card < room)
    {nodes : List α} (hnodes : ∀ node ∈ nodes, ∀ other,
      Relation.ReflTransGen (Leads children) node other →
        (∃ next, children other = .ok next) ∧
          ((∃ next, Leads children other next) → other ∈ inside)) :
    ∃ order, depthFirst children room nodes = .ok order := by
  have hreached : ∀ node ∈ nodes, ∀ other, Traversal.Reach (lookAt children) node other →
      (∃ next, children other = .ok next) ∧
        ((∃ next, Leads children other next) → other ∈ inside) :=
    fun node hnode other hreach => hnodes node hnode other
      (Relation.ReflTransGen.mono (fun u v => (edge_iff_leads u v).mp) _ _ hreach)
  obtain ⟨pairs, hpairs⟩ := Traversal.exists_foldlM (fun _ _ _ => Traversal.isPrefix_visit room)
    (fun node hnode seen hseen => Traversal.exists_visit room
      (fun other next hreach hedge =>
        (hreached node hnode other hreach).2 ⟨next, (edge_iff_leads other next).mp hedge⟩)
      (fun other hreach => by
        obtain ⟨next, hnext⟩ := (hreached node hnode other hreach).1
        exact ⟨some ((), next), by rw [lookAt, hnext]; rfl⟩) hseen)
    (lt_of_le_of_lt (Finset.card_filter_le _ _) hroom)
  exact ⟨pairs.map Prod.fst, by rw [depthFirst, hpairs]; rfl⟩

end BackEdges

end Base
