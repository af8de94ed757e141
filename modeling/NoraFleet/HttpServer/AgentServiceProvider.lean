import Mathlib
import NoraFleet.Base.Locks

/-!
# The provider of an agent's service

`AsyncAgentServiceProvider` constructs the service of an agent when it is first
asked for it, and forgets it on a reset. Any number of threads call
`get_service` and `reset_service`. `get_service` tests without the lock, tests
again and constructs under the lock, and reads what it returns without the lock:
a reset between the last test and that read makes it return nothing.

Every read and every write of the instance is a step, as are the construction
and the taking and giving back of the lock. Every step takes a tick of a clock,
and beside the provider is recorded when the service was last stored and last
discarded, and when the last reset was completed.

* `call_invariant` — what holds at every point of every call, in every run;
* `serves_iff` — when every call of `get_service` returns a service that is not
  older than the last reset before it, in every run.
-/

namespace NoraFleet.HttpServer

open Base Base.Program

/-- A service, with when it was constructed. -/
structure ServiceInstance where
  constructedAt : Nat
  deriving DecidableEq

/-- The provider, the clock, and when what happened to it last. -/
structure AgentServiceProvider where
  serviceInstance : Option ServiceInstance
  locked : Bool
  clock : Nat
  storedAt : Nat
  discardedAt : Nat
  lastReset : Nat
  deriving DecidableEq

/-- The provider as constructed. -/
def AgentServiceProvider.initial : AgentServiceProvider := ⟨none, false, 0, 0, 0, 0⟩

/-- What a call of `get_service` ended with: when the last reset before it was completed, when it
last found or stored a service, when the service was last stored and discarded before it was read
for the return, and what was read. -/
structure Answer where
  since : Nat
  testedAt : Nat
  storedAt : Nat
  discardedAt : Nat
  service : Option ServiceInstance
  deriving DecidableEq

/-- The methods of the provider. -/
inductive ProviderOp where
  | getService
  | resetService

/-- Where a call stands. A call of `get_service` carries when the last reset before it was
completed. -/
inductive ProviderCall where
  -- get_service
  | getService
  | test (since : Nat)
  | enter (since : Nat)
  | testAgain (since : Nat)
  | construct (since : Nat)
  | store (since : Nat) (service : ServiceInstance)
  | leave (since testedAt : Nat)
  | leaveRaising
  | read (since testedAt : Nat)
  | returned (answer : Answer)
  | raised
  -- reset_service
  | resetService
  | discard
  | leaveReset
  | reset
  deriving DecidableEq

namespace ProviderCall

/-- Whether the call has the lock. -/
def holds : ProviderCall → Bool
  | .testAgain _ => true
  | .construct _ => true
  | .store _ _ => true
  | .leave _ _ => true
  | .leaveRaising => true
  | .discard => true
  | .leaveReset => true
  | _ => false

/-- Whether the call has ended. -/
def ended : ProviderCall → Bool
  | .returned _ => true
  | .raised => true
  | .reset => true
  | _ => false

/-- How many steps the call has before it at most. -/
def remaining : ProviderCall → Nat
  | .getService => 8
  | .test _ => 7
  | .enter _ => 6
  | .testAgain _ => 5
  | .construct _ => 4
  | .store _ _ => 3
  | .leave _ _ => 2
  | .leaveRaising => 1
  | .read _ _ => 1
  | .resetService => 3
  | .discard => 2
  | .leaveReset => 1
  | .returned _ => 0
  | .raised => 0
  | .reset => 0

end ProviderCall

namespace AgentServiceProvider

/-- One step of a call, at `now`. `constructs` is whether the constructor of the service
returns. -/
def stepAt (now : Nat) (constructs : Bool) (s : AgentServiceProvider) :
    ProviderCall → Option (AgentServiceProvider × ProviderCall)
  | .getService => some (s, .test s.lastReset)
  -- if self.service_instance is None:
  | .test since =>
      match s.serviceInstance with
      | none => some (s, .enter since)
      | some _ => some (s, .read since now)
  -- with self.lock:
  | .enter since =>
      if s.locked then none
      else some ({ s with locked := true }, .testAgain since)
  | .testAgain since =>
      match s.serviceInstance with
      | none => some (s, .construct since)
      | some _ => some (s, .leave since now)
  | .construct since =>
      if constructs then some (s, .store since ⟨now⟩) else some (s, .leaveRaising)
  | .store since service =>
      some ({ s with serviceInstance := some service, storedAt := now }, .leave since now)
  | .leave since testedAt => some ({ s with locked := false }, .read since testedAt)
  | .leaveRaising => some ({ s with locked := false }, .raised)
  -- return self.service_instance
  | .read since testedAt =>
      some (s, .returned ⟨since, testedAt, s.storedAt, s.discardedAt, s.serviceInstance⟩)
  | .resetService =>
      if s.locked then none
      else some ({ s with locked := true }, .discard)
  | .discard => some ({ s with serviceInstance := none, discardedAt := now }, .leaveReset)
  | .leaveReset => some ({ s with locked := false, lastReset := now }, .reset)
  | .returned _ => none
  | .raised => none
  | .reset => none

/-- One step of a call, which takes a tick. -/
def step (constructs : Bool) (s : AgentServiceProvider) (call : ProviderCall) :
    Option (AgentServiceProvider × ProviderCall) :=
  stepAt (s.clock + 1) constructs { s with clock := s.clock + 1 } call

/-- Calls of the provider's methods, in any number of threads. -/
def provider : Program AgentServiceProvider ProviderOp ProviderCall Bool Empty where
  start
    | .getService => .getService
    | .resetService => .resetService
  step := step
  env e := e.elim

/-! ## What the calls keep -/

/-- When things happened is in the past, there is a service if one was stored since the last was
discarded, and it is not older than the last reset. -/
structure Recorded (s : AgentServiceProvider) : Prop where
  lastReset : s.lastReset ≤ s.clock
  storedAt : s.storedAt ≤ s.clock
  discardedAt : s.discardedAt ≤ s.clock
  isSome : s.serviceInstance.isSome ↔ s.discardedAt < s.storedAt
  fresh : ∀ service, s.serviceInstance = some service → s.lastReset ≤ service.constructedAt

/-- There was a service at `testedAt`: if nothing was discarded since, there still is. -/
def FoundAt (s : AgentServiceProvider) (testedAt : Nat) : Prop :=
  testedAt ≤ s.clock ∧ (s.discardedAt ≤ testedAt → s.discardedAt < s.storedAt)

/-- What holds where a call stands. -/
def Standing (s : AgentServiceProvider) : ProviderCall → Prop
  | .test since => since ≤ s.lastReset
  | .enter since => since ≤ s.lastReset
  | .testAgain since => since ≤ s.lastReset
  | .construct since => since ≤ s.lastReset
  | .store since service => since ≤ s.lastReset ∧ s.lastReset ≤ service.constructedAt
  | .leave since testedAt => since ≤ s.lastReset ∧ s.FoundAt testedAt
  | .read since testedAt => since ≤ s.lastReset ∧ s.FoundAt testedAt
  | .returned answer =>
      (answer.service.isSome ↔ answer.discardedAt < answer.storedAt) ∧
        (answer.discardedAt ≤ answer.testedAt → answer.discardedAt < answer.storedAt) ∧
        ∀ service, answer.service = some service → answer.since ≤ service.constructedAt
  | .leaveReset => s.serviceInstance = none
  | _ => True

variable {s s' : AgentServiceProvider} {call call' other : ProviderCall} {constructs : Bool}

/-- What a step does to the provider: only who has the lock changes the instance, and what is
recorded anew is recorded with the tick of the step. -/
structure Effect (s s' : AgentServiceProvider) (call : ProviderCall) : Prop where
  clock : s'.clock = s.clock + 1
  lastReset : s'.lastReset = s.lastReset ∨ s'.lastReset = s.clock + 1
  storedAt : s'.storedAt = s.storedAt ∨ s'.storedAt = s.clock + 1
  discardedAt : s'.discardedAt = s.discardedAt ∨
    s'.discardedAt = s.clock + 1 ∧ s'.storedAt = s.storedAt
  unlocked : call.holds = false →
    s'.serviceInstance = s.serviceInstance ∧ s'.lastReset = s.lastReset

theorem lockStep_of_step (h : step constructs s call = some (s', call')) :
    LockStep AgentServiceProvider.locked ProviderCall.holds s call s' call' := by
  cases call with
  | getService => cases h; exact .keep rfl rfl
  | test since =>
      simp only [step, stepAt] at h
      split at h <;> (cases h; exact .keep rfl rfl)
  | enter since =>
      simp only [step, stepAt] at h
      split at h
      · cases h
      · rename_i hfree
        cases h
        exact .take (Bool.eq_false_iff.mpr hfree) rfl rfl rfl
  | testAgain since =>
      simp only [step, stepAt] at h
      split at h <;> (cases h; exact .keep rfl rfl)
  | construct since =>
      simp only [step, stepAt] at h
      split at h <;> (cases h; exact .keep rfl rfl)
  | store since service => cases h; exact .keep rfl rfl
  | leave since testedAt => cases h; exact .giveBack rfl rfl rfl
  | leaveRaising => cases h; exact .giveBack rfl rfl rfl
  | read since testedAt => cases h; exact .keep rfl rfl
  | returned answer => cases h
  | raised => cases h
  | resetService =>
      simp only [step, stepAt] at h
      split at h
      · cases h
      · rename_i hfree
        cases h
        exact .take (Bool.eq_false_iff.mpr hfree) rfl rfl rfl
  | discard => cases h; exact .keep rfl rfl
  | leaveReset => cases h; exact .giveBack rfl rfl rfl
  | reset => cases h

theorem effect_of_step (h : step constructs s call = some (s', call')) : Effect s s' call := by
  cases call with
  | store since service => cases h; exact ⟨rfl, .inl rfl, .inr rfl, .inl rfl, nofun⟩
  | discard => cases h; exact ⟨rfl, .inl rfl, .inl rfl, .inr ⟨rfl, rfl⟩, nofun⟩
  | leaveReset => cases h; exact ⟨rfl, .inr rfl, .inl rfl, .inl rfl, nofun⟩
  | _ =>
      -- the other steps record nothing
      simp only [step, stepAt] at h
      first
        | cases h; exact ⟨rfl, .inl rfl, .inl rfl, .inl rfl, fun _ => ⟨rfl, rfl⟩⟩
        | split at h <;> cases h <;> exact ⟨rfl, .inl rfl, .inl rfl, .inl rfl, fun _ => ⟨rfl, rfl⟩⟩
        | cases h

theorem standing_of_step (hrecorded : Recorded s) (hstanding : s.Standing call)
    (h : step constructs s call = some (s', call')) : Recorded s' ∧ s'.Standing call' := by
  obtain ⟨hlast, hstored, hdiscarded, hsome, hfresh⟩ := hrecorded
  have htick : ∀ locked, Recorded { s with locked := locked, clock := s.clock + 1 } := fun _ =>
    ⟨Nat.le_succ_of_le hlast, Nat.le_succ_of_le hstored, Nat.le_succ_of_le hdiscarded, hsome,
      hfresh⟩
  have hfound : ∀ service, s.serviceInstance = some service →
      FoundAt { s with clock := s.clock + 1 } (s.clock + 1) := by
    intro service hservice
    exact ⟨le_rfl, fun _ => hsome.mp (Option.isSome_iff_exists.mpr ⟨service, hservice⟩)⟩
  cases call with
  | getService => cases h; exact ⟨htick _, le_rfl⟩
  | test since =>
      simp only [step, stepAt] at h
      split at h
      · cases h; exact ⟨htick _, hstanding⟩
      · rename_i service hservice
        cases h; exact ⟨htick _, hstanding, hfound service hservice⟩
  | enter since =>
      simp only [step, stepAt] at h
      split at h
      · cases h
      · cases h; exact ⟨htick _, hstanding⟩
  | testAgain since =>
      simp only [step, stepAt] at h
      split at h
      · cases h; exact ⟨htick _, hstanding⟩
      · rename_i service hservice
        cases h; exact ⟨htick _, hstanding, hfound service hservice⟩
  | construct since =>
      simp only [step, stepAt] at h
      split at h
      · cases h; exact ⟨htick _, hstanding, Nat.le_succ_of_le hlast⟩
      · cases h; exact ⟨htick _, trivial⟩
  | store since service =>
      cases h
      have hlater : s.discardedAt < s.clock + 1 := Nat.lt_succ_of_le hdiscarded
      refine ⟨⟨Nat.le_succ_of_le hlast, le_rfl, Nat.le_succ_of_le hdiscarded, ?_, ?_⟩,
        hstanding.1, le_rfl, fun _ => hlater⟩
      · exact ⟨fun _ => hlater, fun _ => rfl⟩
      · rintro _ ⟨⟩
        exact hstanding.2
  | leave since testedAt =>
      cases h
      exact ⟨htick _, hstanding.1, Nat.le_succ_of_le hstanding.2.1, hstanding.2.2⟩
  | leaveRaising => cases h; exact ⟨htick _, trivial⟩
  | read since testedAt =>
      cases h
      exact ⟨htick _, hsome, hstanding.2.2, fun service hservice =>
        hstanding.1.trans (hfresh service hservice)⟩
  | returned answer => cases h
  | raised => cases h
  | resetService =>
      simp only [step, stepAt] at h
      split at h
      · cases h
      · cases h; exact ⟨htick _, trivial⟩
  | discard =>
      cases h
      refine ⟨⟨Nat.le_succ_of_le hlast, Nat.le_succ_of_le hstored, le_rfl, ?_, nofun⟩, rfl⟩
      exact ⟨nofun, fun hlt => absurd hlt (Nat.not_lt.mpr (Nat.le_succ_of_le hstored))⟩
  | leaveReset =>
      -- the holder of the lock has discarded the service
      cases h
      have hnone : s.serviceInstance = none := hstanding
      refine ⟨⟨le_rfl, Nat.le_succ_of_le hstored, Nat.le_succ_of_le hdiscarded, hsome, ?_⟩, trivial⟩
      intro service hservice
      exact absurd (hservice.symm.trans hnone) nofun
  | reset => cases h

theorem FoundAt.of_effect {testedAt : Nat} (h : s.FoundAt testedAt) (heffect : Effect s s' call)
    (hdiscarded : s.discardedAt ≤ s.clock) : s'.FoundAt testedAt := by
  have hclock := heffect.clock
  obtain ⟨htested, hfound⟩ := h
  refine ⟨by omega, fun hle => ?_⟩
  rcases heffect.discardedAt with hsame | ⟨hnow, -⟩
  · have hlt := hfound (hsame ▸ hle)
    rcases heffect.storedAt with hstored | hstored <;> omega
  · omega

/-- A step of one call leaves what holds where the others stand, since no two have the lock. -/
theorem standing_of_other (hrecorded : Recorded s) (hother : s.Standing other)
    (halone : call.holds = true → other.holds = false)
    (h : step constructs s call = some (s', call')) : s'.Standing other := by
  have heffect := effect_of_step h
  have hlast : s.lastReset ≤ s'.lastReset := by
    have hle := hrecorded.lastReset
    rcases heffect.lastReset with hsame | hnow <;> omega
  have hkeeps : other.holds = true →
      s'.serviceInstance = s.serviceInstance ∧ s'.lastReset = s.lastReset := by
    intro hholds
    refine heffect.unlocked (Bool.eq_false_iff.mpr fun hcall => ?_)
    rw [halone hcall] at hholds
    cases hholds
  cases other with
  | test since => exact le_trans (show since ≤ s.lastReset from hother) hlast
  | enter since => exact le_trans (show since ≤ s.lastReset from hother) hlast
  | testAgain since => exact le_trans (show since ≤ s.lastReset from hother) hlast
  | construct since => exact le_trans (show since ≤ s.lastReset from hother) hlast
  | store since service =>
      refine ⟨hother.1.trans hlast, ?_⟩
      rw [(hkeeps rfl).2]
      exact hother.2
  | leave since testedAt =>
      exact ⟨hother.1.trans hlast, hother.2.of_effect heffect hrecorded.discardedAt⟩
  | read since testedAt =>
      exact ⟨hother.1.trans hlast, hother.2.of_effect heffect hrecorded.discardedAt⟩
  | leaveReset => exact (hkeeps rfl).1.trans hother
  | returned answer => exact hother
  | getService => trivial
  | leaveRaising => trivial
  | raised => trivial
  | resetService => trivial
  | discard => trivial
  | reset => trivial

/-- What holds where calls stand is an outline. -/
theorem outline : LockOutline provider anyStep initial AgentServiceProvider.locked
    ProviderCall.holds Recorded Standing where
  free := rfl
  startsWithout op := by cases op <;> rfl
  lockStep h := lockStep_of_step h
  lockEnv {e} _ _ _ := e.elim
  init := ⟨le_rfl, le_rfl, le_rfl, by decide, nofun⟩
  start s op _ := by cases op <;> trivial
  step hrecorded hstanding _ h := standing_of_step hrecorded hstanding h
  interfere hrecorded _ hother halone _ _ h := standing_of_other hrecorded hother halone h
  env {e} _ _ _ _ := e.elim
  envStable {e} _ _ _ _ _ _ := e.elim

/-- What holds of every call, in every run. -/
theorem call_invariant {c : Config AgentServiceProvider ProviderCall}
    (h : Reach provider anyStep initial c) :
    (∀ call ∈ c.calls, c.shared.Standing call) ∧
      Exclusive AgentServiceProvider.locked ProviderCall.holds c :=
  (outline.sound h).2

/-! ## Progress -/

theorem remaining_of_step (h : step constructs s call = some (s', call')) :
    call'.remaining < call.remaining := by
  cases call with
  | test since =>
      simp only [step, stepAt] at h
      split at h <;> (cases h; simp only [ProviderCall.remaining]; omega)
  | enter since =>
      simp only [step, stepAt] at h
      split at h
      · cases h
      · cases h; exact Nat.lt_succ_self _
  | testAgain since =>
      simp only [step, stepAt] at h
      split at h <;> (cases h; simp only [ProviderCall.remaining]; omega)
  | construct since =>
      simp only [step, stepAt] at h
      split at h <;> (cases h; simp only [ProviderCall.remaining]; omega)
  | resetService =>
      simp only [step, stepAt] at h
      split at h
      · cases h
      · cases h; decide
  | returned answer => cases h
  | raised => cases h
  | reset => cases h
  | _ => cases h; exact Nat.lt_succ_self _

/-- A call that has not ended can take a step if it has the lock or the lock is free. -/
theorem exists_step (constructs : Bool) (hended : call.ended = false)
    (hlock : s.locked = true → call.holds = true) :
    ∃ s' call', step constructs s call = some (s', call') := by
  have hfree : call.holds = false → s.locked = false := by
    intro hholds
    refine Bool.eq_false_iff.mpr fun hlocked => ?_
    rw [hlock hlocked] at hholds
    cases hholds
  cases call with
  | test since =>
      simp only [step, stepAt]
      split <;> exact ⟨_, _, rfl⟩
  | testAgain since =>
      simp only [step, stepAt]
      split <;> exact ⟨_, _, rfl⟩
  | construct since =>
      simp only [step, stepAt]
      split <;> exact ⟨_, _, rfl⟩
  | enter since =>
      simp only [step, stepAt, hfree rfl]
      exact ⟨_, _, rfl⟩
  | resetService =>
      simp only [step, stepAt, hfree rfl]
      exact ⟨_, _, rfl⟩
  | returned answer => cases hended
  | raised => cases hended
  | reset => cases hended
  | _ => exact ⟨_, _, rfl⟩

/-- All calls have ended, or one of them can take a step that brings it nearer to its end, whether
constructors return or not. -/
def Progresses (c : Config AgentServiceProvider ProviderCall) : Prop :=
  (∀ call ∈ c.calls, call.ended = true) ∨
    ∀ constructs, ∃ call ∈ c.calls, ∃ s' call',
      step constructs c.shared call = some (s', call') ∧ call'.remaining < call.remaining

theorem progresses {c : Config AgentServiceProvider ProviderCall}
    (h : Reach provider anyStep initial c) : Progresses c := by
  have hexclusive := (call_invariant h).2
  by_cases hall : ∀ call ∈ c.calls, call.ended = true
  · exact .inl hall
  · refine .inr fun constructs => ?_
    suffices hcan : ∃ call ∈ c.calls, call.ended = false ∧
        (c.shared.locked = true → call.holds = true) by
      obtain ⟨call, hcall, hended, hlock⟩ := hcan
      obtain ⟨s', call', hstep⟩ := exists_step constructs hended hlock
      exact ⟨call, hcall, s', call', hstep, remaining_of_step hstep⟩
    rcases hlocked : c.shared.locked with _ | _
    · push Not at hall
      obtain ⟨call, hcall, hended⟩ := hall
      exact ⟨call, hcall, Bool.eq_false_iff.mpr hended, nofun⟩
    · -- who has the lock has not ended
      obtain ⟨call, hcall, hholds⟩ := hexclusive.held hlocked
      refine ⟨call, hcall, ?_, fun _ => hholds⟩
      cases call with
      | returned answer => cases hholds
      | raised => cases hholds
      | reset => cases hholds
      | _ => rfl

/-! ## What calls return -/

/-- A call of `get_service` that has ended has returned a service that was constructed no earlier
than the last reset that was completed before the call. -/
def Serves : ProviderCall → Prop
  | .returned answer => ∃ service, answer.service = some service ∧
      answer.since ≤ service.constructedAt
  | .raised => False
  | _ => True

/-- No constructor raised in the call, and no reset discarded the service between where the call
last found or stored one and its return, unless another call stored one again by then. -/
def Undisturbed : ProviderCall → Prop
  | .returned answer => answer.discardedAt ≤ answer.testedAt ∨
      answer.discardedAt < answer.storedAt
  | .raised => False
  | _ => True

/-- What is returned is no stale service. -/
def NotStale : ProviderCall → Prop
  | .returned answer => ∀ service, answer.service = some service →
      answer.since ≤ service.constructedAt
  | _ => True

theorem notStale_of_standing (h : s.Standing call) : NotStale call := by
  cases call with
  | returned answer => exact h.2.2
  | _ => trivial

theorem serves_iff_undisturbed (h : s.Standing call) : Serves call ↔ Undisturbed call := by
  cases call with
  | returned answer =>
      obtain ⟨hsome, hfound, hfresh⟩ := h
      constructor
      · rintro ⟨service, hservice, -⟩
        exact .inr (hsome.mp (Option.isSome_iff_exists.mpr ⟨service, hservice⟩))
      · intro hundisturbed
        obtain ⟨service, hservice⟩ :=
          Option.isSome_iff_exists.mp (hsome.mpr (hundisturbed.elim hfound id))
        exact ⟨service, hservice, hfresh service hservice⟩
  | _ => exact Iff.rfl

/-- **Services.** In every run, no stale service is returned, calls go on until they end, and every
call that has ended has returned a service if and only if no constructor raised and no reset came
between its last test and its return. -/
theorem serves_iff (c : Config AgentServiceProvider ProviderCall)
    (h : Reach provider anyStep initial c) :
    (∀ call ∈ c.calls, NotStale call) ∧ Progresses c ∧
      ((∀ call ∈ c.calls, Serves call) ↔ ∀ call ∈ c.calls, Undisturbed call) := by
  have hstanding := (call_invariant h).1
  refine ⟨fun call hcall => notStale_of_standing (hstanding call hcall), progresses h, ?_⟩
  exact forall₂_congr fun call hcall => serves_iff_undisturbed (hstanding call hcall)

/-- Two calls that both find nothing, of which one constructs the service, and then a reset
and another call. -/
def twoAndReset : List (Action ProviderOp Bool Empty) :=
  [.call .getService, .call .getService, .run 0 true, .run 1 true, .run 0 true, .run 1 true,
    .run 0 true, .run 0 true, .run 0 true, .run 0 true, .run 0 true, .run 1 true, .run 1 true,
    .run 0 true, .run 1 true, .run 1 true, .call .resetService, .run 2 true, .run 2 true,
    .run 2 true, .call .getService] ++ List.replicate 8 (.run 3 true)

/-- The calls that have ended: the first two share a service, and the last has a new one. -/
def twoAndResetEnded : List ProviderCall :=
  [.returned ⟨0, 8, 8, 0, some ⟨7⟩⟩, .returned ⟨0, 11, 8, 0, some ⟨7⟩⟩, .reset,
    .returned ⟨17, 23, 23, 16, some ⟨22⟩⟩]

theorem serves_twoAndReset :
    ∃ c, Reach provider anyStep initial c ∧ c.calls = twoAndResetEnded ∧
      ∀ call ∈ c.calls, Serves call := by
  have hreach : Reach provider anyStep initial
      ⟨⟨some ⟨22⟩, false, 25, 23, 16, 17⟩, twoAndResetEnded⟩ :=
    reach_get provider anyStep initial twoAndReset rfl
  refine ⟨_, hreach, rfl, (serves_iff _ hreach).2.2.mpr fun call hcall => ?_⟩
  simp only [twoAndResetEnded, List.mem_cons, List.not_mem_nil, or_false] at hcall
  rcases hcall with rfl | rfl | rfl | rfl
  · exact .inl (by decide)
  · exact .inl (by decide)
  · trivial
  · exact .inl (by decide)

/-- A reset between the giving back of the lock and the read: the call returns nothing. -/
theorem resetBeforeRead : ¬ ∀ c : Config AgentServiceProvider ProviderCall,
    Reach provider anyStep initial c → ∀ call ∈ c.calls, Serves call := by
  intro h
  have hreach : Reach provider anyStep initial
      ⟨⟨none, false, 11, 6, 9, 10⟩, [.returned ⟨0, 6, 6, 9, none⟩, .reset]⟩ :=
    reach_get provider anyStep initial [.call .getService, .run 0 true, .run 0 true, .run 0 true,
      .run 0 true, .run 0 true, .run 0 true, .run 0 true, .call .resetService, .run 1 true,
      .run 1 true, .run 1 true, .run 0 true] rfl
  obtain ⟨service, hservice, -⟩ := h _ hreach _ List.mem_cons_self
  cases hservice

end AgentServiceProvider

end NoraFleet.HttpServer
