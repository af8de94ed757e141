import Mathlib.Data.List.Basic
import Mathlib.Data.List.Perm.Basic
import Mathlib.Tactic.Common

/-!
# Interleavings of calls over a shared state

Any number of concurrent calls work on one shared state. A call is a control
point that holds the locals still needed; `Program.step` is what one atomic
step of a call does, under a choice made outside of it (what a collaborator
answers), and `Program.env` is a step of the environment (the clock). A
configuration is the shared state with the control point of every call
started so far, and `Reach` is every configuration some interleaving leads
to. Steps can be held to a condition on the state they are taken in: with the
trivial condition `anyStep` the runs are all runs.

* `Outline.sound` — the rule for an invariant of the shared state with an
  assertion at every control point: each step keeps the invariant and its own
  assertion and does not interfere with the assertions of the other calls;
* `Reach.invariant` — the same for an invariant of the shared state alone;
* `reach_of_run` — a schedule that runs to the end is a run;
* `rankAt_add_ownSteps_le` — where every step of a call lowers its rank, the
  rank bounds how many steps of its own a call takes.
-/

namespace Base

/-- Calls over a shared state: where a call starts, and what one atomic step
does. -/
structure Program (Shared Op Local Choice Env : Type*) where
  start : Op → Local
  step : Choice → Shared → Local → Option (Shared × Local)
  env : Env → Shared → Option Shared

/-- The shared state and the control point of every call started so far. -/
structure Config (Shared Local : Type*) where
  shared : Shared
  calls : List Local
  deriving DecidableEq

/-- One entry of a schedule. -/
inductive Action (Op Choice Env : Type*) where
  | call (op : Op)
  | run (i : Nat) (choice : Choice)
  | env (e : Env)

/-- The entry is a step of call `i`. -/
def Action.isStepOf {Op Choice Env : Type*} (i : Nat) : Action Op Choice Env → Bool
  | .call _ => false
  | .run j _ => j == i
  | .env _ => false

namespace Program

variable {Shared Op Local Choice Env : Type*}

/-- The condition that holds of every step. -/
def anyStep : Choice → Shared → Local → Prop := fun _ _ _ => True

instance (ch : Choice) (s : Shared) (l : Local) : Decidable (anyStep ch s l) :=
  inferInstanceAs (Decidable True)

/-- The configurations that interleavings reach from `init`, when every step
of a call meets `ok`. -/
inductive Reach (P : Program Shared Op Local Choice Env)
    (ok : Choice → Shared → Local → Prop) (init : Shared) : Config Shared Local → Prop
  | init : Reach P ok init ⟨init, []⟩
  | call {s ls} (op : Op) : Reach P ok init ⟨s, ls⟩ →
      Reach P ok init ⟨s, ls ++ [P.start op]⟩
  | run {s ls i l ch s' l'} : Reach P ok init ⟨s, ls⟩ → ls[i]? = some l →
      ok ch s l → P.step ch s l = some (s', l') → Reach P ok init ⟨s', ls.set i l'⟩
  | env {s ls e s'} : Reach P ok init ⟨s, ls⟩ → P.env e s = some s' →
      Reach P ok init ⟨s', ls⟩

variable {P : Program Shared Op Local Choice Env}
  {ok : Choice → Shared → Local → Prop} {init : Shared}

/-- A stricter condition leaves fewer runs. -/
theorem Reach.mono {ok' : Choice → Shared → Local → Prop}
    (h : ∀ ch s l, ok ch s l → ok' ch s l) {c : Config Shared Local}
    (hr : Reach P ok init c) : Reach P ok' init c := by
  induction hr with
  | init => exact .init
  | call op _ ih => exact .call op ih
  | run _ hl hok hs ih => exact .run ih hl (h _ _ _ hok) hs
  | env _ he ih => exact .env ih he

/-- A call after a step of call `i` is the one that stepped or one that was
there before. -/
theorem mem_set_cases {ls : List Local} {i : Nat} {l' k : Local} (h : k ∈ ls.set i l') :
    k = l' ∨ k ∈ ls := by
  rcases List.mem_or_eq_of_mem_set h with h | h
  · exact .inr h
  · exact .inl h

/-- A call before a step of call `i` is the one that steps or is still there. -/
theorem mem_set_of_mem {ls : List Local} {i : Nat} {l k : Local} (l' : Local)
    (hl : ls[i]? = some l) (h : k ∈ ls) : k = l ∨ k ∈ ls.set i l' := by
  obtain ⟨j, hj⟩ := List.mem_iff_getElem?.mp h
  by_cases hij : i = j
  · subst hij
    rw [hl] at hj
    exact .inl (Option.some.inj hj).symm
  · refine .inr (List.mem_iff_getElem?.mpr ⟨j, ?_⟩)
    rw [List.getElem?_set_ne hij]
    exact hj

theorem self_mem_set {ls : List Local} {i : Nat} {l : Local} (l' : Local)
    (hl : ls[i]? = some l) : l' ∈ ls.set i l' := by
  obtain ⟨hlt, -⟩ := List.getElem?_eq_some_iff.mp hl
  exact List.mem_iff_getElem?.mpr ⟨i, by rw [List.getElem?_set_self hlt]⟩

/-! ### What calls own -/

theorem filterMap_set_of_eq {α β : Type*} {f : α → Option β} {l : List α} {i : Nat} {a b : α}
    (h : l[i]? = some a) (hf : f b = f a) : (l.set i b).filterMap f = l.filterMap f := by
  induction l generalizing i with
  | nil => rfl
  | cons x rest ih =>
      cases i with
      | zero =>
          obtain rfl : x = a := by simpa using h
          rw [List.set_cons_zero, List.filterMap_cons, List.filterMap_cons, hf]
      | succ j =>
          have htail : rest[j]? = some a := by simpa using h
          rw [List.set_cons_succ, List.filterMap_cons, List.filterMap_cons, ih htail]

/-- A step that gives the call something adds that. -/
theorem filterMap_set_of_none {α β : Type*} {f : α → Option β} {l : List α} {i : Nat} {a b : α}
    {x : β} (h : l[i]? = some a) (ha : f a = none) (hb : f b = some x) :
    ((l.set i b).filterMap f).Perm (x :: l.filterMap f) := by
  induction l generalizing i with
  | nil => cases h
  | cons y rest ih =>
      cases i with
      | zero =>
          obtain rfl : y = a := by simpa using h
          rw [List.set_cons_zero, List.filterMap_cons_some hb, List.filterMap_cons_none ha]
      | succ j =>
          have htail : rest[j]? = some a := by simpa using h
          rw [List.set_cons_succ]
          cases hy : f y with
          | none =>
              rw [List.filterMap_cons_none hy, List.filterMap_cons_none hy]
              exact ih htail
          | some z =>
              rw [List.filterMap_cons_some hy, List.filterMap_cons_some hy]
              exact ((ih htail).cons z).trans (.swap x z _)

/-- Where no two calls own the same, the others do not own what the one that steps owns. -/
theorem mem_set_of_nodup {α β : Type*} {f : α → Option β} {l : List α} {i : Nat} {a b k : α}
    {x : β} (h : l[i]? = some a) (ha : f a = some x) (nodup : (l.filterMap f).Nodup)
    (hk : k ∈ l.set i b) : k = b ∨ (k ∈ l ∧ f k ≠ some x) := by
  induction l generalizing i with
  | nil => cases h
  | cons y rest ih =>
      cases i with
      | zero =>
          obtain rfl : y = a := by simpa using h
          rw [List.filterMap_cons_some ha, List.nodup_cons] at nodup
          rcases List.mem_cons.mp hk with rfl | hrest
          · exact .inl rfl
          · refine .inr ⟨List.mem_cons_of_mem _ hrest, fun hx => ?_⟩
            exact nodup.1 (List.mem_filterMap.mpr ⟨k, hrest, hx⟩)
      | succ j =>
          have htail : rest[j]? = some a := by simpa using h
          have hmem : x ∈ rest.filterMap f :=
            List.mem_filterMap.mpr ⟨a, List.mem_of_getElem? htail, ha⟩
          have hrest : (rest.filterMap f).Nodup ∧ f y ≠ some x := by
            cases hy : f y with
            | none =>
                rw [List.filterMap_cons_none hy] at nodup
                exact ⟨nodup, by simp⟩
            | some z =>
                rw [List.filterMap_cons_some hy, List.nodup_cons] at nodup
                refine ⟨nodup.2, fun hz => ?_⟩
                rw [Option.some.inj hz] at nodup
                exact nodup.1 hmem
          rcases List.mem_cons.mp hk with rfl | hk
          · exact .inr ⟨List.mem_cons_self, hrest.2⟩
          · rcases ih htail hrest.1 hk with rfl | ⟨hold, hne⟩
            · exact .inl rfl
            · exact .inr ⟨List.mem_cons_of_mem _ hold, hne⟩

/-- A step that appends to what the call owns appends to what all calls own, up
to order. -/
theorem flatMap_set_append {α β : Type*} {f : α → List β} {l : List α} {i : Nat} {a b : α}
    {more : List β} (h : l[i]? = some a) (hf : f b = f a ++ more) :
    ((l.set i b).flatMap f).Perm (l.flatMap f ++ more) := by
  induction l generalizing i with
  | nil => cases h
  | cons x rest ih =>
      cases i with
      | zero =>
          obtain rfl : x = a := by simpa using h
          rw [List.set_cons_zero, List.flatMap_cons, List.flatMap_cons, hf, List.append_assoc,
            List.append_assoc]
          exact List.perm_append_comm.append_left _
      | succ j =>
          have htail : rest[j]? = some a := by simpa using h
          rw [List.set_cons_succ, List.flatMap_cons, List.flatMap_cons, List.append_assoc]
          exact (ih htail).append_left _

/-- An invariant `I` of the shared state with an assertion `T` at every
control point, and what has to be checked of single steps. -/
structure Outline (P : Program Shared Op Local Choice Env)
    (ok : Choice → Shared → Local → Prop) (init : Shared)
    (I : Shared → Prop) (T : Shared → Local → Prop) : Prop where
  init : I init
  start : ∀ s op, I s → T s (P.start op)
  step : ∀ {ch s l s' l'}, I s → T s l → ok ch s l → P.step ch s l = some (s', l') →
    I s' ∧ T s' l'
  interfere : ∀ {ch s l s' l' k}, I s → T s l → T s k → ok ch s l →
    P.step ch s l = some (s', l') → T s' k
  env : ∀ {e s s'}, I s → P.env e s = some s' → I s'
  envStable : ∀ {e s s' k}, I s → T s k → P.env e s = some s' → T s' k

/-- The rule of outlines: the invariant holds of every configuration reached,
and the assertion at the control point of each of its calls. -/
theorem Outline.sound {I : Shared → Prop} {T : Shared → Local → Prop}
    (h : Outline P ok init I T) {c : Config Shared Local} (hr : Reach P ok init c) :
    I c.shared ∧ ∀ l ∈ c.calls, T c.shared l := by
  induction hr with
  | init => exact ⟨h.init, fun l hl => absurd hl List.not_mem_nil⟩
  | @call s ls op _ ih =>
      refine ⟨ih.1, fun l hl => ?_⟩
      rcases List.mem_append.mp hl with hl | hl
      · exact ih.2 l hl
      · rw [List.mem_singleton.mp hl]
        exact h.start s op ih.1
  | @run s ls i l ch s' l' _ hl hok hs ih =>
      have hT : T s l := ih.2 l (List.mem_of_getElem? hl)
      obtain ⟨hI', hT'⟩ := h.step ih.1 hT hok hs
      refine ⟨hI', fun k hk => ?_⟩
      rcases mem_set_cases hk with rfl | hk
      · exact hT'
      · exact h.interfere ih.1 hT (ih.2 k hk) hok hs
  | @env s ls e s' _ he ih =>
      exact ⟨h.env ih.1 he, fun k hk => h.envStable ih.1 (ih.2 k hk) he⟩

/-- An invariant of the shared state alone: every step keeps it. -/
theorem Reach.invariant {I : Shared → Prop} (hinit : I init)
    (hstep : ∀ {ch s l s' l'}, I s → ok ch s l → P.step ch s l = some (s', l') → I s')
    (henv : ∀ {e s s'}, I s → P.env e s = some s' → I s') {c : Config Shared Local}
    (hr : Reach P ok init c) : I c.shared := by
  have outline : Outline P ok init I (fun _ _ => True) :=
    { init := hinit
      start := fun _ _ _ => trivial
      step := fun hI _ hok hs => ⟨hstep hI hok hs, trivial⟩
      interfere := fun _ _ _ _ _ => trivial
      env := henv
      envStable := fun _ _ _ => trivial }
  exact (outline.sound hr).1

/-! ## Running a schedule -/

section Schedules

variable [∀ ch s l, Decidable (ok ch s l)]

variable (P ok) in
/-- One entry of a schedule; `none` when the step is not there or does not
meet the condition. -/
def exec (c : Config Shared Local) : Action Op Choice Env → Option (Config Shared Local)
  | .call op => some ⟨c.shared, c.calls ++ [P.start op]⟩
  | .run i ch =>
      match c.calls[i]? with
      | none => none
      | some l =>
          if ok ch c.shared l then
            (P.step ch c.shared l).map fun next => ⟨next.1, c.calls.set i next.2⟩
          else none
  | .env e => (P.env e c.shared).map fun s => ⟨s, c.calls⟩

variable (P ok) in
/-- A whole schedule. -/
def runSchedule (c : Config Shared Local) :
    List (Action Op Choice Env) → Option (Config Shared Local)
  | [] => some c
  | a :: rest =>
      match exec P ok c a with
      | none => none
      | some c' => runSchedule c' rest

theorem reach_of_exec {c c' : Config Shared Local} {a : Action Op Choice Env}
    (hr : Reach P ok init c) (h : exec P ok c a = some c') : Reach P ok init c' := by
  obtain ⟨s, ls⟩ := c
  cases a with
  | call op =>
      cases h
      exact .call op hr
  | run i ch =>
      simp only [exec] at h
      split at h
      · cases h
      · rename_i l hl
        split at h
        · rename_i hok
          obtain ⟨⟨s', l'⟩, hs, rfl⟩ := Option.map_eq_some_iff.mp h
          exact .run hr hl hok hs
        · cases h
  | env e =>
      obtain ⟨s', he, rfl⟩ := Option.map_eq_some_iff.mp h
      exact .env hr he

/-- The configuration at the end of a schedule is reached. -/
theorem reach_of_run {acts : List (Action Op Choice Env)} {c c' : Config Shared Local}
    (hr : Reach P ok init c) (h : runSchedule P ok c acts = some c') :
    Reach P ok init c' := by
  induction acts generalizing c with
  | nil =>
      cases h
      exact hr
  | cons a rest ih =>
      simp only [runSchedule] at h
      split at h
      · cases h
      · rename_i c'' hc
        exact ih (reach_of_exec hr hc) h

/-- A schedule from the initial configuration that runs to the end. -/
theorem reach_get (P : Program Shared Op Local Choice Env) (ok : Choice → Shared → Local → Prop)
    [∀ ch s l, Decidable (ok ch s l)] (init : Shared) (acts : List (Action Op Choice Env))
    (h : (runSchedule P ok ⟨init, []⟩ acts).isSome) :
    Reach P ok init ((runSchedule P ok ⟨init, []⟩ acts).get h) :=
  reach_of_run .init (Option.some_get h).symm

/-! ### Steps of one call -/

/-- How many steps call `i` takes in a schedule. -/
def ownSteps (i : Nat) (acts : List (Action Op Choice Env)) : Nat :=
  acts.countP (Action.isStepOf i)

/-- The rank of call `i`, which is `bound` while it has not started. -/
def rankAt (rank : Local → Nat) (bound i : Nat) (c : Config Shared Local) : Nat :=
  (c.calls[i]?.map rank).getD bound

variable {rank : Local → Nat} {bound : Nat}

theorem rankAt_of_getElem? {s : Shared} {ls : List Local} {i : Nat} {l : Local}
    (h : ls[i]? = some l) : rankAt rank bound i ⟨s, ls⟩ = rank l := by
  show (ls[i]?.map rank).getD bound = rank l
  rw [h]
  rfl

theorem rankAt_of_none {s : Shared} {ls : List Local} {i : Nat} (h : ls[i]? = none) :
    rankAt rank bound i ⟨s, ls⟩ = bound := by
  show (ls[i]?.map rank).getD bound = bound
  rw [h]
  rfl

/-- No entry raises a rank, and a step of the call lowers it. -/
theorem rankAt_exec_le (hstart : ∀ op, rank (P.start op) ≤ bound)
    (hstep : ∀ {ch s l s' l'}, P.step ch s l = some (s', l') → rank l' < rank l)
    {c c' : Config Shared Local} {a : Action Op Choice Env} (h : exec P ok c a = some c')
    (i : Nat) : rankAt rank bound i c' + (if a.isStepOf i then 1 else 0) ≤
      rankAt rank bound i c := by
  obtain ⟨s, ls⟩ := c
  cases a with
  | call op =>
      cases h
      show rankAt rank bound i ⟨s, ls ++ [P.start op]⟩ ≤ rankAt rank bound i ⟨s, ls⟩
      rcases Nat.lt_trichotomy i ls.length with hlt | rfl | hgt
      · have hl : (ls ++ [P.start op])[i]? = ls[i]? := List.getElem?_append_left hlt
        exact Nat.le_of_eq (by rw [rankAt, rankAt, hl])
      · -- the call that starts
        rw [rankAt_of_getElem? List.getElem?_concat_length,
          rankAt_of_none (List.getElem?_eq_none (Nat.le_refl _))]
        exact hstart op
      · have hnone : (ls ++ [P.start op])[i]? = none := by
          rw [List.getElem?_eq_none_iff, List.length_append, List.length_singleton]
          exact hgt
        exact Nat.le_of_eq (by
          rw [rankAt_of_none hnone, rankAt_of_none (List.getElem?_eq_none (Nat.le_of_lt hgt))])
  | run j ch =>
      simp only [exec] at h
      split at h
      · cases h
      · rename_i l hl
        split at h
        · obtain ⟨⟨s', l'⟩, hs, rfl⟩ := Option.map_eq_some_iff.mp h
          obtain ⟨hlt, -⟩ := List.getElem?_eq_some_iff.mp hl
          by_cases hij : j = i
          · subst hij
            have hl' : (ls.set j l')[j]? = some l' := List.getElem?_set_self hlt
            rw [rankAt_of_getElem? hl', rankAt_of_getElem? hl]
            simpa [Action.isStepOf] using Nat.succ_le_of_lt (hstep hs)
          · have hother : (ls.set j l')[i]? = ls[i]? := List.getElem?_set_ne hij
            rw [rankAt, rankAt, hother]
            simp [Action.isStepOf, hij]
        · cases h
  | env e =>
      obtain ⟨s', he, rfl⟩ := Option.map_eq_some_iff.mp h
      exact Nat.le_refl _

/-- What is left of a call's rank after a schedule: each of its own steps has
lowered it. -/
theorem rankAt_add_ownSteps_le (hstart : ∀ op, rank (P.start op) ≤ bound)
    (hstep : ∀ {ch s l s' l'}, P.step ch s l = some (s', l') → rank l' < rank l)
    {acts : List (Action Op Choice Env)} {c c' : Config Shared Local}
    (h : runSchedule P ok c acts = some c') (i : Nat) :
    rankAt rank bound i c' + ownSteps i acts ≤ rankAt rank bound i c := by
  induction acts generalizing c with
  | nil =>
      cases h
      exact Nat.le_refl _
  | cons a rest ih =>
      simp only [runSchedule] at h
      split at h
      · cases h
      · rename_i c'' hc
        have hrest := ih h
        have hfirst : rankAt rank bound i c'' + (if a.isStepOf i then 1 else 0) ≤
            rankAt rank bound i c := rankAt_exec_le hstart hstep hc i
        have hcount : ownSteps i (a :: rest) =
            ownSteps i rest + (if a.isStepOf i then 1 else 0) := List.countP_cons
        omega

end Schedules

end Program

end Base
