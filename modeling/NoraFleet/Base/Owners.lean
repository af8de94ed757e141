import Mathlib.Data.List.Basic
import NoraFleet.Base.Interleaving

/-!
# Calls that own things

Of the calls over a shared state some own something each, from the step that takes it to the step
that lets it go. What a call takes, no other call has. The assertions of an `OwnerOutline` may count
on that: a step of one owner need not be checked against another call with the same possession.

* `OwnerOutline.sound` — the rule for an invariant of the shared state with an assertion at every
  control point, for calls that own things.
-/

namespace Base.Program

variable {Shared Op Local Choice Env Thing : Type*}

/-- How a step changes what its call owns: not at all, it lets go, or it takes what nobody has. -/
inductive OwnerStep (owns : Local → Option Thing) (T : Shared → Local → Prop) (s : Shared)
    (l l' : Local) : Prop
  | keep (h : owns l' = owns l)
  | letGo (h : owns l' = none)
  | take (thing : Thing) (hbefore : owns l = none) (hafter : owns l' = some thing)
      (hnew : ∀ k, T s k → owns k ≠ some thing)

/-- An outline of calls that own things. -/
structure OwnerOutline (P : Program Shared Op Local Choice Env)
    (ok : Choice → Shared → Local → Prop) (init : Shared) (owns : Local → Option Thing)
    (I : Shared → Prop) (T : Shared → Local → Prop) : Prop where
  init : I init
  start : ∀ s op, I s → T s (P.start op)
  startsWithout : ∀ op, owns (P.start op) = none
  ownerStep : ∀ {ch s l s' l'}, I s → T s l → ok ch s l → P.step ch s l = some (s', l') →
    OwnerStep owns T s l l'
  step : ∀ {ch s l s' l'}, I s → T s l → ok ch s l → P.step ch s l = some (s', l') →
    I s' ∧ T s' l'
  interfere : ∀ {ch s l s' l' k}, I s → T s l → T s k →
    (∀ thing, owns l = some thing → owns k ≠ some thing) → ok ch s l →
    P.step ch s l = some (s', l') → T s' k
  env : ∀ {e s s'}, I s → P.env e s = some s' → I s'
  envStable : ∀ {e s s' k}, I s → T s k → P.env e s = some s' → T s' k

variable {P : Program Shared Op Local Choice Env} {ok : Choice → Shared → Local → Prop}
  {init : Shared} {owns : Local → Option Thing} {I : Shared → Prop} {T : Shared → Local → Prop}

theorem filterMap_set_sublist {calls : List Local} {i : Nat} {l' : Local} (h : owns l' = none) :
    ((calls.set i l').filterMap owns).Sublist (calls.filterMap owns) := by
  induction calls generalizing i with
  | nil => exact .slnil
  | cons l rest ih =>
      cases i with
      | zero =>
          rw [List.set_cons_zero, List.filterMap_cons_none h]
          exact (List.sublist_cons_self l rest).filterMap owns
      | succ j =>
          rw [List.set_cons_succ]
          cases hl : owns l with
          | none =>
              rw [List.filterMap_cons_none hl, List.filterMap_cons_none hl]
              exact ih
          | some thing =>
              rw [List.filterMap_cons_some hl, List.filterMap_cons_some hl]
              exact ih.cons_cons thing

/-- The rule of outlines for calls that own things. -/
theorem OwnerOutline.sound (h : OwnerOutline P ok init owns I T) {c : Config Shared Local}
    (hr : Reach P ok init c) :
    I c.shared ∧ (∀ l ∈ c.calls, T c.shared l) ∧ (c.calls.filterMap owns).Nodup := by
  induction hr with
  | init => exact ⟨h.init, fun l hl => absurd hl List.not_mem_nil, List.nodup_nil⟩
  | @call s ls op _ ih =>
      obtain ⟨hI, hT, hnodup⟩ := ih
      refine ⟨hI, fun l hl => ?_, ?_⟩
      · rcases List.mem_append.mp hl with hl | hl
        · exact hT l hl
        · rw [List.mem_singleton.mp hl]
          exact h.start s op hI
      · rw [List.filterMap_append, List.filterMap_cons_none (h.startsWithout op)]
        simpa using hnodup
  | @run s ls i l ch s' l' _ hl hok hs ih =>
      obtain ⟨hI, hT, hnodup⟩ := ih
      have hTl := hT l (List.mem_of_getElem? hl)
      obtain ⟨hI', hT'⟩ := h.step hI hTl hok hs
      refine ⟨hI', fun k hk => ?_, ?_⟩
      · cases howns : owns l with
        | none =>
            rcases mem_set_cases hk with rfl | hk
            · exact hT'
            · refine h.interfere hI hTl (hT k hk) (fun thing hthing => ?_) hok hs
              rw [howns] at hthing
              cases hthing
        | some own =>
            rcases mem_set_of_nodup hl howns hnodup hk with rfl | ⟨hold, hne⟩
            · exact hT'
            · refine h.interfere hI hTl (hT k hold) (fun thing hthing => ?_) hok hs
              rw [howns] at hthing
              rwa [← Option.some.inj hthing]
      · cases h.ownerStep hI hTl hok hs with
        | keep heq =>
            rw [filterMap_set_of_eq hl heq]
            exact hnodup
        | letGo hnone => exact hnodup.sublist (filterMap_set_sublist hnone)
        | take thing hbefore hafter hnew =>
            refine (filterMap_set_of_none hl hbefore hafter).nodup_iff.mpr
              (List.nodup_cons.mpr ⟨fun hmem => ?_, hnodup⟩)
            obtain ⟨k, hk, hthing⟩ := List.mem_filterMap.mp hmem
            exact hnew k (hT k hk) hthing
  | @env s ls e s' _ he ih =>
      obtain ⟨hI, hT, hnodup⟩ := ih
      exact ⟨h.env hI he, fun k hk => h.envStable hI (hT k hk) he, hnodup⟩

end Base.Program
