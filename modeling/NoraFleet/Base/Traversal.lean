import NoraFleet.Base.Flow
import Mathlib

/-!
# Depth-first traversals

A graph is explored from a root: what there is at a node is looked up, which may
raise, and then its neighbours are visited, except those that were already. The
nodes are listed as they are found, each with what is reported of it.

* `Explores` — what a visit adds to the list, an invariant of its own;
* `mem_traverse_iff` — the list is the nodes that can be reached, each once;
* `exists_traverse_iff` — it is returned exactly if no node that can be reached raises.
-/

namespace Base

namespace Traversal

variable {α β : Type}

/-- What there is at a node: nothing, or what is reported of it, and its neighbours. -/
abbrev Look (α β : Type) := α → Except PyError (Option (β × List α))

section Relations

variable (look : Look α β)

/-- There is something at a node. -/
def Found (node : α) : Prop := ∃ report next, look node = .ok (some (report, next))

/-- Looking at a node does not raise. -/
def Looks (node : α) : Prop := ∃ there, look node = .ok there

/-- A node and one of its neighbours. -/
def Edge (node other : α) : Prop :=
  ∃ report next, look node = .ok (some (report, next)) ∧ other ∈ next

/-- A node can be reached from another. -/
def Reach : α → α → Prop := Relation.ReflTransGen (Edge look)

/-- What is listed was found. -/
def Sound (seen : List (α × β)) : Prop :=
  ∀ entry ∈ seen, ∃ next, look entry.1 = .ok (some (entry.2, next))

/-- A node that needs no visit any more: looking at it does not raise, and if there is
something it is listed. -/
def Settled (seen : List (α × β)) (node : α) : Prop :=
  Looks look node ∧ (Found look node → node ∈ seen.map Prod.fst)

variable {look}

/-- The neighbours are those that the look gives. -/
theorem edge_iff {node : α} {report : β} {next : List α}
    (h : look node = .ok (some (report, next))) (other : α) :
    Edge look node other ↔ other ∈ next := by
  constructor
  · rintro ⟨report', next', hlook, hmem⟩
    cases h.symm.trans hlook
    exact hmem
  · intro hmem
    exact ⟨report, next, h, hmem⟩

theorem Settled.mono {seen : List (α × β)} {node : α} (h : Settled look seen node)
    (more : List (α × β)) : Settled look (seen ++ more) node := by
  refine ⟨h.1, fun hfound => ?_⟩
  rw [List.map_append]
  exact List.mem_append_left _ (h.2 hfound)

theorem settled_of_mem {seen : List (α × β)} (hsound : Sound look seen) {node : α}
    (h : node ∈ seen.map Prod.fst) : Settled look seen node := by
  obtain ⟨entry, hentry, rfl⟩ := List.mem_map.mp h
  obtain ⟨next, hlook⟩ := hsound entry hentry
  exact ⟨⟨_, hlook⟩, fun _ => h⟩

/-- What visits to some roots add to what is listed: nodes that were found, that are new,
that can be reached from a root, and whose neighbours need no visit any more. Neither do
the roots. -/
structure Explores (look : Look α β) (roots : List α) (seen more : List (α × β)) : Prop where
  sound : Sound look more
  nodup : (seen.map Prod.fst).Nodup → ((seen ++ more).map Prod.fst).Nodup
  reached : ∀ entry ∈ more, ∃ root ∈ roots, Reach look root entry.1
  closed : ∀ entry ∈ more, ∀ other, Edge look entry.1 other → Settled look (seen ++ more) other
  settled : ∀ root ∈ roots, Settled look (seen ++ more) root

/-- Nothing is added where there are no roots. -/
theorem Explores.nil (seen : List (α × β)) : Explores look [] seen [] where
  sound := by intro entry hentry; cases hentry
  nodup := by rw [List.append_nil]; exact id
  reached := by intro entry hentry; cases hentry
  closed := by intro entry hentry; cases hentry
  settled := by intro root hroot; cases hroot

/-- Nothing is added where a root needs no visit. -/
theorem Explores.of_settled {seen : List (α × β)} {node : α} (h : Settled look seen node) :
    Explores look [node] seen [] where
  sound := by intro entry hentry; cases hentry
  nodup := by rw [List.append_nil]; exact id
  reached := by intro entry hentry; cases hentry
  closed := by intro entry hentry; cases hentry
  settled := by
    intro root hroot
    rw [List.mem_singleton.mp hroot, List.append_nil]
    exact h

/-- One root after the others. -/
theorem Explores.cons {seen first rest : List (α × β)} {node : α} {roots : List α}
    (hfirst : Explores look [node] seen first)
    (hrest : Explores look roots (seen ++ first) rest) :
    Explores look (node :: roots) seen (first ++ rest) where
  sound := by
    intro entry hentry
    rcases List.mem_append.mp hentry with h | h
    · exact hfirst.sound entry h
    · exact hrest.sound entry h
  nodup := by
    intro h
    rw [← List.append_assoc]
    exact hrest.nodup (hfirst.nodup h)
  reached := by
    intro entry hentry
    rcases List.mem_append.mp hentry with h | h
    · obtain ⟨root, hroot, hreach⟩ := hfirst.reached entry h
      rw [List.mem_singleton.mp hroot] at hreach
      exact ⟨node, List.mem_cons_self, hreach⟩
    · obtain ⟨root, hroot, hreach⟩ := hrest.reached entry h
      exact ⟨root, List.mem_cons_of_mem _ hroot, hreach⟩
  closed := by
    intro entry hentry other hedge
    rw [← List.append_assoc]
    rcases List.mem_append.mp hentry with h | h
    · exact (hfirst.closed entry h other hedge).mono rest
    · exact hrest.closed entry h other hedge
  settled := by
    intro root hroot
    rw [← List.append_assoc]
    rcases List.mem_cons.mp hroot with rfl | h
    · exact (hfirst.settled root List.mem_cons_self).mono rest
    · exact hrest.settled root h

/-- A node that is found, and then its neighbours. -/
theorem Explores.found {seen more : List (α × β)} {node : α} {report : β} {next : List α}
    (hnew : node ∉ seen.map Prod.fst) (hlook : look node = .ok (some (report, next)))
    (h : Explores look next (seen ++ [(node, report)]) more) :
    Explores look [node] seen ((node, report) :: more) where
  sound := by
    intro entry hentry
    rcases List.mem_cons.mp hentry with rfl | hentry
    · exact ⟨next, hlook⟩
    · exact h.sound entry hentry
  nodup := by
    intro hnodup
    have hseen : ((seen ++ [(node, report)]).map Prod.fst).Nodup := by
      rw [List.map_append]
      refine List.nodup_append.mpr ⟨hnodup, List.nodup_singleton _, ?_⟩
      intro a ha b hb
      rw [List.mem_singleton.mp hb]
      rintro rfl
      exact hnew ha
    have hall := h.nodup hseen
    rwa [List.append_assoc] at hall
  reached := by
    intro entry hentry
    refine ⟨node, List.mem_cons_self, ?_⟩
    rcases List.mem_cons.mp hentry with rfl | hentry
    · exact Relation.ReflTransGen.refl
    · obtain ⟨root, hroot, hreach⟩ := h.reached entry hentry
      exact Relation.ReflTransGen.head ((edge_iff hlook root).mpr hroot) hreach
  closed := by
    intro entry hentry other hedge
    rw [List.append_cons]
    rcases List.mem_cons.mp hentry with rfl | hentry
    · exact h.settled other ((edge_iff hlook other).mp hedge)
    · exact h.closed entry hentry other hedge
  settled := by
    intro root hroot
    rw [List.mem_singleton.mp hroot]
    refine ⟨⟨_, hlook⟩, fun _ => ?_⟩
    rw [List.map_append, List.map_cons]
    exact List.mem_append_right _ List.mem_cons_self

/-- What was added to what was found is found. -/
theorem Sound.append {seen more : List (α × β)} (hseen : Sound look seen)
    (hmore : Sound look more) : Sound look (seen ++ more) := by
  intro entry hentry
  rcases List.mem_append.mp hentry with h | h
  · exact hseen entry h
  · exact hmore entry h

/-- Visits to several roots explore, if each visit does. -/
theorem explores_foldlM {step : List (α × β) → α → Except PyError (List (α × β))}
    (hstep : ∀ seen seen' node, Sound look seen → step seen node = .ok seen' →
      ∃ more, seen' = seen ++ more ∧ Explores look [node] seen more)
    {roots : List α} {seen seen' : List (α × β)} (hsound : Sound look seen)
    (h : roots.foldlM step seen = .ok seen') :
    ∃ more, seen' = seen ++ more ∧ Explores look roots seen more := by
  induction roots generalizing seen with
  | nil =>
      obtain rfl : seen = seen' := Except.ok.inj h
      exact ⟨[], (List.append_nil _).symm, Explores.nil seen⟩
  | cons node rest ih =>
      rw [List.foldlM_cons] at h
      cases hfirst : step seen node with
      | error e => simp [hfirst, bind, Except.bind] at h
      | ok between =>
          rw [hfirst] at h
          obtain ⟨first, rfl, hexplores⟩ := hstep seen between node hsound hfirst
          obtain ⟨more, rfl, hmore⟩ := ih (hsound.append hexplores.sound) h
          exact ⟨first ++ more, List.append_assoc _ _ _, hexplores.cons hmore⟩

/-- Every node that can be reached from one that needs no visit needs none, where that
holds of the neighbours of all that is listed. -/
theorem settled_of_reach {seen : List (α × β)} {root node : α} (hroot : Settled look seen root)
    (hclosed : ∀ entry ∈ seen, ∀ other, Edge look entry.1 other → Settled look seen other)
    (h : Reach look root node) : Settled look seen node := by
  induction h with
  | refl => exact hroot
  | tail _ hedge ih =>
      obtain ⟨report, next, hlook, hmem⟩ := hedge
      obtain ⟨entry, hentry, rfl⟩ := List.mem_map.mp (ih.2 ⟨report, next, hlook⟩)
      exact hclosed entry hentry _ ⟨report, next, hlook, hmem⟩

end Relations

section Visiting

variable [DecidableEq α]

/-- Visit a node, with room for a number of nested visits. -/
def visit (look : Look α β) : Nat → List (α × β) → α → Except PyError (List (α × β))
  | 0, _, _ => .error .recursionError
  | room + 1, seen, node =>
      if node ∈ seen.map Prod.fst then .ok seen
      else
        match look node with
        | .error e => .error e
        | .ok none => .ok seen
        | .ok (some (report, next)) => next.foldlM (visit look room) (seen ++ [(node, report)])

/-- A traversal from a root. -/
def traverse (look : Look α β) (room : Nat) (root : α) : Except PyError (List (α × β)) :=
  visit look room [] root

variable {look : Look α β}

/-- **A visit explores from its node.** -/
theorem explores_visit (room : Nat) {seen seen' : List (α × β)} {node : α}
    (hsound : Sound look seen) (h : visit look room seen node = .ok seen') :
    ∃ more, seen' = seen ++ more ∧ Explores look [node] seen more := by
  induction room generalizing seen seen' node with
  | zero => cases h
  | succ room ih =>
      unfold visit at h
      split at h
      · rename_i hmem
        obtain rfl := Except.ok.inj h
        exact ⟨[], (List.append_nil _).symm, Explores.of_settled (settled_of_mem hsound hmem)⟩
      · rename_i hnew
        cases hlook : look node with
        | error e => simp [hlook] at h
        | ok there =>
            cases there with
            | none =>
                simp only [hlook] at h
                obtain rfl := Except.ok.inj h
                refine ⟨[], (List.append_nil _).symm, Explores.of_settled ⟨⟨_, hlook⟩, ?_⟩⟩
                rintro ⟨report, next, hfound⟩
                cases hlook.symm.trans hfound
            | some found =>
                simp only [hlook] at h
                have hone : Sound look [(node, found.1)] := by
                  intro entry hentry
                  rw [List.mem_singleton.mp hentry]
                  exact ⟨found.2, hlook⟩
                obtain ⟨more, rfl, hmore⟩ :=
                  explores_foldlM (fun seen seen' node => ih) (hsound.append hone) h
                refine ⟨(node, found.1) :: more, (List.append_cons _ _ _).symm, ?_⟩
                exact Explores.found hnew hlook hmore

theorem explores_traverse {room : Nat} {root : α} {seen : List (α × β)}
    (h : traverse look room root = .ok seen) : Explores look [root] [] seen := by
  obtain ⟨more, rfl, hmore⟩ := explores_visit room (by intro entry hentry; cases hentry) h
  exact hmore

/-- A traversal looks at every node that can be reached, and none of that raises. -/
theorem settled_of_traverse {room : Nat} {root node : α} {seen : List (α × β)}
    (h : traverse look room root = .ok seen) (hreach : Reach look root node) :
    Settled look seen node := by
  have hexplores := explores_traverse h
  exact settled_of_reach (hexplores.settled root List.mem_cons_self) hexplores.closed hreach

/-- **A traversal lists the nodes that can be reached and where there is something.** -/
theorem mem_traverse_iff {room : Nat} {root : α} {seen : List (α × β)}
    (h : traverse look room root = .ok seen) (node : α) :
    node ∈ seen.map Prod.fst ↔ Reach look root node ∧ Found look node := by
  have hexplores := explores_traverse h
  constructor
  · intro hmem
    obtain ⟨entry, hentry, rfl⟩ := List.mem_map.mp hmem
    obtain ⟨start, hstart, hreach⟩ := hexplores.reached entry hentry
    obtain ⟨next, hlook⟩ := hexplores.sound entry hentry
    rw [List.mem_singleton.mp hstart] at hreach
    exact ⟨hreach, entry.2, next, hlook⟩
  · rintro ⟨hreach, hfound⟩
    exact (settled_of_traverse h hreach).2 hfound

theorem nodup_traverse {room : Nat} {root : α} {seen : List (α × β)}
    (h : traverse look room root = .ok seen) : (seen.map Prod.fst).Nodup :=
  (explores_traverse h).nodup List.nodup_nil

/-! ## Room -/

omit [DecidableEq α] in
/-- A loop only adds to a list, if each of its steps does. -/
theorem isPrefix_foldlM {step : List (α × β) → α → Except PyError (List (α × β))}
    (hstep : ∀ seen seen' node, step seen node = .ok seen' → seen <+: seen')
    {roots : List α} {seen seen' : List (α × β)} (h : roots.foldlM step seen = .ok seen') :
    seen <+: seen' := by
  induction roots generalizing seen with
  | nil =>
      obtain rfl := Except.ok.inj h
      exact List.prefix_rfl
  | cons node rest ih =>
      rw [List.foldlM_cons] at h
      cases hfirst : step seen node with
      | error e => simp [hfirst, bind, Except.bind] at h
      | ok between =>
          rw [hfirst] at h
          exact List.IsPrefix.trans (hstep seen between node hfirst) (ih h)

theorem isPrefix_visit (room : Nat) {seen seen' : List (α × β)} {node : α}
    (h : visit look room seen node = .ok seen') : seen <+: seen' := by
  induction room generalizing seen seen' node with
  | zero => cases h
  | succ room ih =>
      unfold visit at h
      split at h
      · obtain rfl := Except.ok.inj h
        exact List.prefix_rfl
      · cases hlook : look node with
        | error e => simp [hlook] at h
        | ok there =>
            cases there with
            | none =>
                simp only [hlook] at h
                obtain rfl := Except.ok.inj h
                exact List.prefix_rfl
            | some found =>
                simp only [hlook] at h
                have hrest := isPrefix_foldlM (fun _ _ _ => ih) h
                exact List.IsPrefix.trans (List.prefix_append _ _) hrest

/-- The nodes of a set that are not listed. -/
def unlisted (nodes : Finset α) (seen : List (α × β)) : Finset α :=
  nodes.filter fun node => node ∉ seen.map Prod.fst

theorem unlisted_mono (nodes : Finset α) {seen seen' : List (α × β)} (h : seen ⊆ seen') :
    (unlisted nodes seen').card ≤ (unlisted nodes seen).card := by
  refine Finset.card_le_card fun node hnode => ?_
  rw [unlisted, Finset.mem_filter] at hnode ⊢
  exact ⟨hnode.1, fun hmem => hnode.2 (List.map_subset Prod.fst h hmem)⟩

/-- A node that is listed is one fewer. -/
theorem unlisted_lt {nodes : Finset α} {seen : List (α × β)} {node : α} (hnode : node ∈ nodes)
    (hnew : node ∉ seen.map Prod.fst) (report : β) :
    (unlisted nodes (seen ++ [(node, report)])).card < (unlisted nodes seen).card := by
  refine Finset.card_lt_card ⟨fun other hother => ?_, fun hsub => ?_⟩
  · rw [unlisted, Finset.mem_filter] at hother ⊢
    refine ⟨hother.1, fun hmem => hother.2 ?_⟩
    rw [List.map_append]
    exact List.mem_append_left _ hmem
  · have hmem := hsub (Finset.mem_filter.mpr ⟨hnode, hnew⟩)
    rw [unlisted, Finset.mem_filter] at hmem
    refine hmem.2 ?_
    rw [List.map_append]
    exact List.mem_append_right _ List.mem_cons_self

/-- A set holds every node that has neighbours. -/
def Holds (look : Look α β) (nodes : Finset α) : Prop :=
  ∀ node other, Edge look node other → node ∈ nodes

/-- Visits to several roots return, if each visit does while there is room. -/
theorem exists_foldlM {nodes : Finset α} {step : List (α × β) → α → Except PyError (List (α × β))}
    (hgrows : ∀ seen seen' node, step seen node = .ok seen' → seen <+: seen') {room : Nat}
    {roots : List α} (hstep : ∀ root ∈ roots, ∀ seen : List (α × β),
      (unlisted nodes seen).card < room → ∃ seen', step seen root = .ok seen')
    {seen : List (α × β)} (hroom : (unlisted nodes seen).card < room) :
    ∃ seen', roots.foldlM step seen = .ok seen' := by
  induction roots generalizing seen with
  | nil => exact ⟨seen, rfl⟩
  | cons root rest ih =>
      rw [List.forall_mem_cons] at hstep
      obtain ⟨between, hbetween⟩ := hstep.1 seen hroom
      have hmono := unlisted_mono nodes (hgrows seen between root hbetween).subset
      obtain ⟨seen', hseen'⟩ := ih hstep.2 (lt_of_le_of_lt hmono hroom)
      refine ⟨seen', ?_⟩
      rw [List.foldlM_cons, hbetween]
      exact hseen'

/-- A visit returns where no look raises, if there is room for every node that it can reach, has
neighbours and is not listed. -/
theorem exists_visit {nodes : Finset α} (room : Nat) {seen : List (α × β)} {node : α}
    (hnodes : ∀ other next, Reach look node other → Edge look other next → other ∈ nodes)
    (hlooks : ∀ other, Reach look node other → Looks look other)
    (hroom : (unlisted nodes seen).card < room) :
    ∃ seen', visit look room seen node = .ok seen' := by
  induction room generalizing seen node with
  | zero => omega
  | succ room ih =>
      unfold visit
      by_cases hmem : node ∈ seen.map Prod.fst
      · rw [if_pos hmem]
        exact ⟨seen, rfl⟩
      · rw [if_neg hmem]
        obtain ⟨there, hlook⟩ := hlooks node Relation.ReflTransGen.refl
        cases there with
        | none => exact ⟨seen, by simp only [hlook]⟩
        | some found =>
            obtain ⟨report, next⟩ := found
            simp only [hlook]
            cases next with
            | nil => exact ⟨_, rfl⟩
            | cons root others =>
                -- the node is listed now, which leaves room for its neighbours
                have hedge := fun other => (edge_iff hlook other).mpr
                have hin := hnodes node root Relation.ReflTransGen.refl
                  (hedge root List.mem_cons_self)
                have hlt := unlisted_lt hin hmem report
                refine exists_foldlM (fun _ _ _ => isPrefix_visit room) ?_
                  (lt_of_lt_of_le hlt (Nat.le_of_lt_succ hroom))
                intro other hother start hstart
                have hreached : ∀ last, Reach look other last → Reach look node last :=
                  fun last hreach => Relation.ReflTransGen.head (hedge other hother) hreach
                exact ih (fun last after hreach => hnodes last after (hreached last hreach))
                  (fun last hreach => hlooks last (hreached last hreach)) hstart

/-- **A traversal with room for every node that has neighbours returns exactly if** no
look at a node that can be reached raises. -/
theorem exists_traverse_iff {nodes : Finset α} (hnodes : Holds look nodes) {room : Nat}
    (hroom : nodes.card < room) (root : α) :
    (∃ seen, traverse look room root = .ok seen) ↔
      ∀ node, Reach look root node → Looks look node := by
  constructor
  · rintro ⟨seen, h⟩ node hreach
    exact (settled_of_traverse h hreach).1
  · intro hlooks
    refine exists_visit room (fun other next _ => hnodes other next) hlooks ?_
    exact lt_of_le_of_lt (Finset.card_filter_le _ _) hroom

/-- What there is at the root comes first. -/
theorem head?_traverse {room : Nat} {root : α} {seen : List (α × β)} {report : β} {next : List α}
    (h : traverse look room root = .ok seen) (hlook : look root = .ok (some (report, next))) :
    seen.head? = some (root, report) := by
  cases room with
  | zero => cases h
  | succ room =>
      unfold traverse visit at h
      have hnew : root ∉ ([] : List (α × β)).map Prod.fst := List.not_mem_nil
      rw [if_neg hnew] at h
      simp only [hlook, List.nil_append] at h
      obtain ⟨rest, rfl⟩ := isPrefix_foldlM (fun _ _ _ => isPrefix_visit room) h
      rfl

end Visiting

end Traversal

end Base
