import Mathlib
import NoraFleet.Base.Locks

/-!
# Processes that fork

Calls over a shared state run in processes, each of which has a shared state of its own. A call can
fork: the child process has a copy of the shared state, and of all the calls only the one that
forked. A lock that another call held would stay locked in the child for ever, so a call forks only
while it holds the lock itself.

* `ForkOutline.sound` — the rule for an invariant of every process of a family, with an assertion
  at every control point, under a lock;
* `Measured.total_lt` — where every step makes its own call lighter, every family comes to an end;
* `Exclusive.exists_next` — it does not come to an end before all its calls have.
-/

namespace Base.Program

variable {Shared Op Local Choice Env : Type*}

/-- What a fork makes of the call that forks: how it goes on in the parent, and in the child. -/
abbrev Fork (Local : Type*) := Local → Option (Local × Local)

/-- One step of a call of one of the processes, or a fork, which adds a process. -/
inductive FamilyStep (P : Program Shared Op Local Choice Env) (fork : Fork Local)
    (cs : List (Config Shared Local)) : List (Config Shared Local) → Prop
  | run {k c i l ch s' l'} : cs[k]? = some c → c.calls[i]? = some l →
      P.step ch c.shared l = some (s', l') → FamilyStep P fork cs (cs.set k ⟨s', c.calls.set i l'⟩)
  | fork {k c i l l' m} : cs[k]? = some c → c.calls[i]? = some l → fork l = some (l', m) →
      FamilyStep P fork cs (cs.set k ⟨c.shared, c.calls.set i l'⟩ ++ [⟨c.shared, [m]⟩])

/-- The families of processes that come from one process without calls. -/
inductive Family (P : Program Shared Op Local Choice Env) (fork : Fork Local) (init : Shared) :
    List (Config Shared Local) → Prop
  | init : Family P fork init [⟨init, []⟩]
  | call {cs k c} (op : Op) : Family P fork init cs → cs[k]? = some c →
      Family P fork init (cs.set k ⟨c.shared, c.calls ++ [P.start op]⟩)
  | step {cs cs'} : Family P fork init cs → FamilyStep P fork cs cs' → Family P fork init cs'

variable {P : Program Shared Op Local Choice Env} {fork : Fork Local} {init : Shared}
  {locked : Shared → Bool} {holds : Local → Bool} {I : Shared → Prop} {T : Shared → Local → Prop}

theorem Family.of_reach (henv : ∀ e s, P.env e s = none) {c : Config Shared Local}
    (hr : Reach P anyStep init c) : Family P fork init [c] := by
  induction hr with
  | init => exact .init
  | @call s ls op _ ih =>
      have hc : [(⟨s, ls⟩ : Config Shared Local)][0]? = some ⟨s, ls⟩ := rfl
      exact .call op ih hc
  | @run s ls i l ch s' l' _ hl _ hs ih =>
      have hc : [(⟨s, ls⟩ : Config Shared Local)][0]? = some ⟨s, ls⟩ := rfl
      exact .step ih (.run hc hl hs)
  | env _ he _ =>
      rw [henv] at he
      cases he

/-- An outline of processes that fork under a lock. -/
structure ForkOutline (P : Program Shared Op Local Choice Env) (fork : Fork Local) (init : Shared)
    (locked : Shared → Bool) (holds : Local → Bool) (I : Shared → Prop)
    (T : Shared → Local → Prop) : Prop extends LockOutline P anyStep init locked holds I T where
  forkHeld : ∀ {l l' m}, fork l = some (l', m) →
    holds l = true ∧ holds l' = true ∧ holds m = true
  fork : ∀ {s l l' m}, I s → T s l → fork l = some (l', m) → T s l' ∧ T s m

/-- Both processes of a fork. -/
theorem ForkOutline.forked (h : ForkOutline P fork init locked holds I T)
    {c : Config Shared Local} (hc : Sound locked holds I T c) {i : Nat} {l l' m : Local}
    (hl : c.calls[i]? = some l) (hfork : fork l = some (l', m)) :
    Sound locked holds I T ⟨c.shared, c.calls.set i l'⟩ ∧
      Sound locked holds I T ⟨c.shared, [m]⟩ := by
  obtain ⟨hI, hT, hexclusive⟩ := hc
  have hmem := List.mem_of_getElem? hl
  obtain ⟨hholds, hholds', hchild⟩ := h.forkHeld hfork
  obtain ⟨hparent, hTm⟩ := h.fork hI (hT l hmem) hfork
  have hlocked := hexclusive.isLocked l hmem hholds
  refine ⟨⟨hI, fun k hk => ?_, hexclusive.run hl (.keep rfl (hholds'.trans hholds.symm))⟩,
    hI, fun k hk => ?_, ?_⟩
  · rcases mem_set_cases hk with rfl | hk
    · exact hparent
    · exact hT k hk
  · rwa [List.mem_singleton.mp hk]
  · -- the child has the lock, and one call, which holds it
    refine ⟨fun k _ _ => hlocked, fun _ => ⟨m, List.mem_singleton_self m, hchild⟩,
      fun a b k j hk hj _ _ => ?_⟩
    have ha := (List.getElem?_eq_some_iff.mp hk).1
    have hb := (List.getElem?_eq_some_iff.mp hj).1
    simp only [List.length_singleton] at ha hb
    omega

/-- The rule of outlines for all processes of a family. -/
theorem ForkOutline.sound (h : ForkOutline P fork init locked holds I T)
    {cs : List (Config Shared Local)} (hr : Family P fork init cs) :
    ∀ c ∈ cs, Sound locked holds I T c := by
  induction hr with
  | init =>
      intro c hc
      rw [List.mem_singleton.mp hc]
      exact ⟨h.init, fun l hl => absurd hl List.not_mem_nil,
        Exclusive.of_free h.free fun l hl => absurd hl List.not_mem_nil⟩
  | call op _ hc ih =>
      intro d hd
      rcases mem_set_cases hd with rfl | hd
      · exact h.toLockOutline.call (ih _ (List.mem_of_getElem? hc)) op
      · exact ih d hd
  | step _ hstep ih =>
      intro d hd
      cases hstep with
      | run hc hl hs =>
          rcases mem_set_cases hd with rfl | hd
          · exact h.toLockOutline.run (ih _ (List.mem_of_getElem? hc)) hl trivial hs
          · exact ih d hd
      | fork hc hl hfork =>
          obtain ⟨hparent, hchild⟩ := h.forked (ih _ (List.mem_of_getElem? hc)) hl hfork
          rcases List.mem_append.mp hd with hd | hd
          · rcases mem_set_cases hd with rfl | hd
            · exact hparent
            · exact ih d hd
          · rwa [List.mem_singleton.mp hd]

/-! ## Families come to an end -/

/-- What is left to do in a process, and in a family. -/
def load (weight : Shared → Local → Nat) (c : Config Shared Local) : Nat :=
  (c.calls.map (weight c.shared)).sum

def total (weight : Shared → Local → Nat) (cs : List (Config Shared Local)) : Nat :=
  (cs.map (load weight)).sum

/-- One entry of a list gets lighter, by more than is added elsewhere, and the others no heavier. -/
theorem sum_set_lt {α : Type*} {w w' : α → Nat} {ls : List α} {i : Nat} {l l' : α} {added : Nat}
    (hl : ls[i]? = some l) (hothers : ∀ j k, j ≠ i → ls[j]? = some k → w' k ≤ w k)
    (hlt : w' l' + added < w l) : ((ls.set i l').map w').sum + added < (ls.map w).sum := by
  induction ls generalizing i with
  | nil => cases hl
  | cons a rest ih =>
      cases i with
      | zero =>
          obtain rfl := Option.some.inj hl
          have hrest : (rest.map w').sum ≤ (rest.map w).sum := by
            refine List.sum_le_sum fun k hk => ?_
            obtain ⟨j, hj⟩ := List.mem_iff_getElem?.mp hk
            exact hothers (j + 1) k (by omega) hj
          rw [List.set_cons_zero, List.map_cons, List.map_cons, List.sum_cons, List.sum_cons]
          omega
      | succ i =>
          have hfirst : w' a ≤ w a := hothers 0 a (by omega) rfl
          have hrest := ih hl fun j k hj hk => hothers (j + 1) k (by omega) hk
          rw [List.set_cons_succ, List.map_cons, List.map_cons, List.sum_cons, List.sum_cons]
          omega

/-- Every step makes the call that takes it lighter, and no other one heavier. -/
structure Measured (P : Program Shared Op Local Choice Env) (fork : Fork Local)
    (holds : Local → Bool) (I : Shared → Prop) (T : Shared → Local → Prop)
    (weight : Shared → Local → Nat) : Prop where
  step : ∀ {ch s l s' l'}, I s → T s l → P.step ch s l = some (s', l') → weight s' l' < weight s l
  others : ∀ {ch s l s' l' k}, I s → T s l → T s k → (holds l = true → holds k = false) →
    P.step ch s l = some (s', l') → weight s' k ≤ weight s k
  fork : ∀ {s l l' m}, I s → T s l → fork l = some (l', m) →
    weight s l' + weight s m < weight s l

variable {weight : Shared → Local → Nat}

/-- A step leaves less to do. -/
theorem Measured.total_lt (h : Measured P fork holds I T weight)
    {cs cs' : List (Config Shared Local)}
    (hsound : ∀ c ∈ cs, Sound locked holds I T c) (hstep : FamilyStep P fork cs cs') :
    total weight cs' < total weight cs := by
  unfold total
  cases hstep with
  | @run k c i l ch s' l' hc hl hs =>
      obtain ⟨hI, hT, hexclusive⟩ := hsound c (List.mem_of_getElem? hc)
      have hTl := hT l (List.mem_of_getElem? hl)
      have hload : load weight ⟨s', c.calls.set i l'⟩ + 0 < load weight c := by
        refine sum_set_lt hl (fun j m hj hm => ?_) (h.step hI hTl hs)
        exact h.others hI hTl (hT m (List.mem_of_getElem? hm)) (hexclusive.other hl hm hj) hs
      exact sum_set_lt hc (fun _ _ _ _ => Nat.le_refl _) hload
  | @fork k c i l l' m hc hl hfork =>
      obtain ⟨hI, hT, -⟩ := hsound c (List.mem_of_getElem? hc)
      have hless := h.fork hI (hT l (List.mem_of_getElem? hl)) hfork
      -- what the child has to do is taken from the call that forks
      have hload : load weight ⟨c.shared, c.calls.set i l'⟩ + weight c.shared m < load weight c :=
        sum_set_lt hl (fun _ _ _ _ => Nat.le_refl _) hless
      rw [List.map_append, List.sum_append]
      exact sum_set_lt hc (fun _ _ _ _ => Nat.le_refl _) hload

/-- A run of so many steps without a new call. -/
inductive FamilySteps (P : Program Shared Op Local Choice Env) (fork : Fork Local) :
    Nat → List (Config Shared Local) → List (Config Shared Local) → Prop
  | refl (cs) : FamilySteps P fork 0 cs cs
  | step {n cs cs' cs''} : FamilyStep P fork cs cs' → FamilySteps P fork n cs' cs'' →
      FamilySteps P fork (n + 1) cs cs''

/-- Without new calls, a family takes no more steps than there is to do. -/
theorem Measured.le_total (h : Measured P fork holds I T weight)
    (houtline : ForkOutline P fork init locked holds I T) {n : Nat}
    {cs cs' : List (Config Shared Local)} (hr : Family P fork init cs)
    (hsteps : FamilySteps P fork n cs cs') : n ≤ total weight cs := by
  induction hsteps with
  | refl => exact Nat.zero_le _
  | step hstep _ ih =>
      have hrest := ih (hr.step hstep)
      have hless := h.total_lt (houtline.sound hr) hstep
      omega

/-- While a call is not at its end, some call of its process can go on, if every call can but those
that wait for the lock. -/
theorem Exclusive.exists_next {ended : Local → Prop} {c : Config Shared Local}
    (h : Exclusive locked holds c) (hheld : ∀ l, holds l = true → ¬ended l)
    (hnext : ∀ l ∈ c.calls, ¬ended l → (∃ ch s' l', P.step ch c.shared l = some (s', l')) ∨
      (∃ l' m, fork l = some (l', m)) ∨ (locked c.shared = true ∧ holds l = false))
    {l : Local} (hl : l ∈ c.calls) (hended : ¬ended l) :
    ∃ m ∈ c.calls, (∃ ch s' l', P.step ch c.shared m = some (s', l')) ∨
      ∃ l' n, fork m = some (l', n) := by
  rcases hnext l hl hended with hstep | hfork | ⟨hlocked, -⟩
  · exact ⟨l, hl, .inl hstep⟩
  · exact ⟨l, hl, .inr hfork⟩
  · obtain ⟨m, hm, hholds⟩ := h.held hlocked
    rcases hnext m hm (hheld m hholds) with hstep | hfork | ⟨-, hnot⟩
    · exact ⟨m, hm, .inl hstep⟩
    · exact ⟨m, hm, .inr hfork⟩
    · rw [hholds] at hnot
      cases hnot

end Base.Program
