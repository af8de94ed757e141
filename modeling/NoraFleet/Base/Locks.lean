import NoraFleet.Base.Interleaving

/-!
# Calls that share a lock

Of the calls over a shared state some hold a lock, from the step that takes it
to the step that gives it back. A `LockOutline` is an outline whose assertions
may count on the lock: of two calls that hold it, neither can get in the way of
the other, since there are no two.

* `Exclusive.run` — a step keeps the lock with one call at most;
* `LockOutline.sound` — the rule for an invariant of the shared state with an
  assertion at every control point, under a lock.
-/

namespace Base.Program

variable {Shared Op Local Choice Env : Type*}

/-- How a step uses the lock: not at all, or it takes the lock while nobody has
it, or it gives it back. -/
inductive LockStep (locked : Shared → Bool) (holds : Local → Bool) (s : Shared) (l : Local)
    (s' : Shared) (l' : Local) : Prop
  | keep (hlocked : locked s' = locked s) (hholds : holds l' = holds l)
  | take (hfree : locked s = false) (hlocked : locked s' = true) (hbefore : holds l = false)
      (hafter : holds l' = true)
  | giveBack (hfree : locked s' = false) (hbefore : holds l = true) (hafter : holds l' = false)

/-- The lock is held by one call if it is locked, and by none if not. -/
structure Exclusive (locked : Shared → Bool) (holds : Local → Bool)
    (c : Config Shared Local) : Prop where
  isLocked : ∀ l ∈ c.calls, holds l = true → locked c.shared = true
  held : locked c.shared = true → ∃ l ∈ c.calls, holds l = true
  alone : ∀ (i j : Nat) (l k : Local), c.calls[i]? = some l → c.calls[j]? = some k →
    holds l = true → holds k = true → i = j

variable {P : Program Shared Op Local Choice Env} {ok : Choice → Shared → Local → Prop}
  {init : Shared} {locked : Shared → Bool} {holds : Local → Bool}

/-- Nobody holds a lock that is not locked. -/
theorem Exclusive.of_free {c : Config Shared Local} (hfree : locked c.shared = false)
    (h : ∀ l ∈ c.calls, holds l = false) : Exclusive locked holds c where
  isLocked l hl hholds := by
    rw [h l hl] at hholds
    cases hholds
  held hlocked := by
    rw [hfree] at hlocked
    cases hlocked
  alone i j l k hl _ hholds _ := by
    rw [h l (List.mem_of_getElem? hl)] at hholds
    cases hholds

/-- A call that has just started does not hold the lock. -/
theorem Exclusive.call {s : Shared} {ls : List Local} {l : Local}
    (h : Exclusive locked holds ⟨s, ls⟩) (hstart : holds l = false) :
    Exclusive locked holds ⟨s, ls ++ [l]⟩ := by
  have hold : ∀ (i : Nat) (k : Local), (ls ++ [l])[i]? = some k → holds k = true →
      ls[i]? = some k := by
    intro i k hk hholds
    rw [List.getElem?_append] at hk
    split at hk
    · exact hk
    · obtain rfl := List.mem_singleton.mp (List.mem_of_getElem? hk)
      rw [hstart] at hholds
      cases hholds
  refine ⟨fun k hk hholds => ?_, fun hlocked => ?_, fun i j k m hk hm hholds hholds' => ?_⟩
  · obtain ⟨i, hi⟩ := List.mem_iff_getElem?.mp hk
    exact h.isLocked k (List.mem_of_getElem? (hold i k hi hholds)) hholds
  · obtain ⟨k, hk, hholds⟩ := h.held hlocked
    exact ⟨k, List.mem_append_left _ hk, hholds⟩
  · exact h.alone i j k m (hold i k hk hholds) (hold j m hm hholds') hholds hholds'

theorem getElem?_set_cases {ls : List Local} {i j : Nat} {l' k : Local}
    (h : (ls.set i l')[j]? = some k) : (j = i ∧ k = l') ∨ (j ≠ i ∧ ls[j]? = some k) := by
  rcases eq_or_ne j i with rfl | hne
  · have hlt : j < ls.length := by
      have hlt := (List.getElem?_eq_some_iff.mp h).1
      rwa [List.length_set] at hlt
    rw [List.getElem?_set_self hlt] at h
    exact .inl ⟨rfl, (Option.some.inj h).symm⟩
  · rw [List.getElem?_set_ne hne.symm] at h
    exact .inr ⟨hne, h⟩

/-- A step keeps the lock with one call at most. -/
theorem Exclusive.run {s s' : Shared} {ls : List Local} {i : Nat} {l l' : Local}
    (h : Exclusive locked holds ⟨s, ls⟩) (hl : ls[i]? = some l)
    (hstep : LockStep locked holds s l s' l') : Exclusive locked holds ⟨s', ls.set i l'⟩ := by
  have hmem : l ∈ ls := List.mem_of_getElem? hl
  have hself : l' ∈ ls.set i l' := self_mem_set l' hl
  cases hstep with
  | keep hlocked hholds =>
      -- who holds the lock does not change
      have hbefore : ∀ (j : Nat) (k : Local), (ls.set i l')[j]? = some k → holds k = true →
          ∃ k', ls[j]? = some k' ∧ holds k' = true := by
        intro j k hk hholds'
        rcases getElem?_set_cases hk with ⟨rfl, rfl⟩ | ⟨-, hold⟩
        · exact ⟨l, hl, hholds ▸ hholds'⟩
        · exact ⟨k, hold, hholds'⟩
      refine ⟨fun k hk hholds' => ?_, fun hlocked' => ?_, fun a b k m hk hm hholdsK hholdsM => ?_⟩
      · obtain ⟨j, hj⟩ := List.mem_iff_getElem?.mp hk
        obtain ⟨k', hk', hholdsK⟩ := hbefore j k hj hholds'
        exact hlocked.trans (h.isLocked k' (List.mem_of_getElem? hk') hholdsK)
      · obtain ⟨k, hk, hholdsK⟩ := h.held (hlocked.symm.trans hlocked')
        rcases mem_set_of_mem l' hl hk with rfl | hk'
        · exact ⟨l', hself, hholds.trans hholdsK⟩
        · exact ⟨k, hk', hholdsK⟩
      · obtain ⟨k', hk', hK⟩ := hbefore a k hk hholdsK
        obtain ⟨m', hm', hM⟩ := hbefore b m hm hholdsM
        exact h.alone a b k' m' hk' hm' hK hM
  | take hfree hlocked _ hafter =>
      -- nobody held it before
      have hnobody : ∀ k ∈ ls, holds k ≠ true := fun k hk hholds => by
        have hlocked' := h.isLocked k hk hholds
        dsimp only at hlocked'
        rw [hfree] at hlocked'
        cases hlocked'
      have honly : ∀ (j : Nat) (k : Local), (ls.set i l')[j]? = some k → holds k = true →
          j = i := by
        intro j k hk hholds
        rcases getElem?_set_cases hk with ⟨rfl, -⟩ | ⟨-, hold⟩
        · rfl
        · exact absurd hholds (hnobody k (List.mem_of_getElem? hold))
      exact ⟨fun _ _ _ => hlocked, fun _ => ⟨l', hself, hafter⟩,
        fun a b k m hk hm hK hM => (honly a k hk hK).trans (honly b m hm hM).symm⟩
  | giveBack hfree hbefore hafter =>
      refine Exclusive.of_free hfree fun k hk => ?_
      obtain ⟨j, hj⟩ := List.mem_iff_getElem?.mp hk
      rcases getElem?_set_cases hj with ⟨-, rfl⟩ | ⟨hne, hold⟩
      · exact hafter
      · rcases hholds : holds k with _ | _
        · rfl
        · exact absurd (h.alone j i k l hold hl hholds hbefore) hne

/-- An outline of calls that share a lock. -/
structure LockOutline (P : Program Shared Op Local Choice Env)
    (ok : Choice → Shared → Local → Prop) (init : Shared) (locked : Shared → Bool)
    (holds : Local → Bool) (I : Shared → Prop) (T : Shared → Local → Prop) : Prop where
  free : locked init = false
  startsWithout : ∀ op, holds (P.start op) = false
  lockStep : ∀ {ch s l s' l'}, P.step ch s l = some (s', l') → LockStep locked holds s l s' l'
  lockEnv : ∀ {e s s'}, P.env e s = some s' → locked s' = locked s
  init : I init
  start : ∀ s op, I s → T s (P.start op)
  step : ∀ {ch s l s' l'}, I s → T s l → ok ch s l → P.step ch s l = some (s', l') →
    I s' ∧ T s' l'
  interfere : ∀ {ch s l s' l' k}, I s → T s l → T s k → (holds l = true → holds k = false) →
    (holds k = true → locked s = true) → ok ch s l → P.step ch s l = some (s', l') → T s' k
  env : ∀ {e s s'}, I s → P.env e s = some s' → I s'
  envStable : ∀ {e s s' k}, I s → T s k → P.env e s = some s' → T s' k

/-- What the rule says of a configuration. -/
def Sound (locked : Shared → Bool) (holds : Local → Bool) (I : Shared → Prop)
    (T : Shared → Local → Prop) (c : Config Shared Local) : Prop :=
  I c.shared ∧ (∀ l ∈ c.calls, T c.shared l) ∧ Exclusive locked holds c

/-- Two calls of which one holds the lock. -/
theorem Exclusive.other {s : Shared} {ls : List Local} {i j : Nat} {l k : Local}
    (h : Exclusive locked holds ⟨s, ls⟩) (hl : ls[i]? = some l) (hk : ls[j]? = some k)
    (hne : j ≠ i) (hholds : holds l = true) : holds k = false := by
  rcases hholds' : holds k with _ | _
  · rfl
  · exact absurd (h.alone j i k l hk hl hholds' hholds) hne

section Outlines

variable {I : Shared → Prop} {T : Shared → Local → Prop}

/-- A call starts. -/
theorem LockOutline.call (h : LockOutline P ok init locked holds I T)
    {c : Config Shared Local} (hc : Sound locked holds I T c) (op : Op) :
    Sound locked holds I T ⟨c.shared, c.calls ++ [P.start op]⟩ := by
  obtain ⟨hI, hT, hexclusive⟩ := hc
  refine ⟨hI, fun l hl => ?_, hexclusive.call (h.startsWithout op)⟩
  rcases List.mem_append.mp hl with hl | hl
  · exact hT l hl
  · rw [List.mem_singleton.mp hl]
    exact h.start c.shared op hI

/-- A call takes a step. -/
theorem LockOutline.run (h : LockOutline P ok init locked holds I T)
    {c : Config Shared Local} (hc : Sound locked holds I T c) {i : Nat} {l l' : Local} {ch : Choice}
    {s' : Shared} (hl : c.calls[i]? = some l) (hok : ok ch c.shared l)
    (hs : P.step ch c.shared l = some (s', l')) :
    Sound locked holds I T ⟨s', c.calls.set i l'⟩ := by
  obtain ⟨hI, hT, hexclusive⟩ := hc
  have hTl := hT l (List.mem_of_getElem? hl)
  obtain ⟨hI', hT'⟩ := h.step hI hTl hok hs
  refine ⟨hI', fun k hk => ?_, hexclusive.run hl (h.lockStep hs)⟩
  obtain ⟨j, hj⟩ := List.mem_iff_getElem?.mp hk
  rcases getElem?_set_cases hj with ⟨-, rfl⟩ | ⟨hne, hold⟩
  · exact hT'
  · have hk' := List.mem_of_getElem? hold
    exact h.interfere hI hTl (hT k hk') (hexclusive.other hl hold hne)
      (hexclusive.isLocked k hk') hok hs

/-- The rule of outlines under a lock. -/
theorem LockOutline.sound (h : LockOutline P ok init locked holds I T) {c : Config Shared Local}
    (hr : Reach P ok init c) : Sound locked holds I T c := by
  induction hr with
  | init =>
      exact ⟨h.init, fun l hl => absurd hl List.not_mem_nil,
        Exclusive.of_free h.free fun l hl => absurd hl List.not_mem_nil⟩
  | call op _ ih => exact h.call ih op
  | run _ hl hok hs ih => exact h.run ih hl hok hs
  | env _ he ih =>
      obtain ⟨hI, hT, hexclusive⟩ := ih
      have hlocked := h.lockEnv he
      refine ⟨h.env hI he, fun k hk => h.envStable hI (hT k hk) he, ?_⟩
      exact ⟨fun k hk hholds => hlocked.trans (hexclusive.isLocked k hk hholds),
        fun hlocked' => hexclusive.held (hlocked.symm.trans hlocked'), hexclusive.alone⟩

end Outlines

end Base.Program
