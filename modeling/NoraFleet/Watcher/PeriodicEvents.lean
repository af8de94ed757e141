import NoraFleet.Base.Dict
import NoraFleet.Base.Ticks

/-!
# The loop of the periodic event initiator

`PeriodicEventInitiator.run` keeps, for every agent interaction, the next time
its cron schedule fires. Each iteration takes a timestamp, fires the
interactions whose time is before it (`figure_which_to_fire`) and moves the
times that are not after it on (`update_next_firing`). The two comparisons
leave a gap: a time equal to the timestamp is moved on without a firing.

* `pending_run` — the invariant: after an iteration at `now`, the next firing
  time of every interaction is its first tick after `now`;
* `fires_iff` — an iteration fires an interaction exactly when its schedule has
  a tick since the iteration before, except when the first such tick equals the
  timestamp of the iteration;
* `tick_at_timestamp_lost` — a run that loses a tick that way.

Times are counted in microseconds, the resolution of `datetime`.
-/

namespace NoraFleet.Watcher

open Base

/-- `datetime.max`, in microseconds since the start of year 1. -/
def datetimeMax : ℤ := 3652059 * 86400000000 - 1

/-- An enabled interaction of the periodic configs with its schedule. -/
structure EnabledInteraction (Interaction : Type*) where
  agentNetwork : String
  interaction : Interaction
  cronSchedule : Ticks

/-- An entry of `agent_interaction_list`. -/
structure AgentInteraction (Interaction : Type*) where
  agentNetwork : String
  interaction : Interaction
  cronIter : Ticks.Iter

/-- What the loop keeps from one iteration to the next. -/
structure LoopState (Interaction : Type*) where
  agentInteractionList : List (AgentInteraction Interaction)
  nextFiring : Dict ℕ ℤ
  closestFiring : ℤ

section Loop

variable {Interaction : Type*}

/-- `set_up_agent_interactions`: one entry for each enabled interaction, with a
fresh iterator. -/
def setUpAgentInteractions (interactions : List (EnabledInteraction Interaction)) :
    List (AgentInteraction Interaction) :=
  interactions.map fun e => ⟨e.agentNetwork, e.interaction, ⟨e.cronSchedule, 0⟩⟩

/-- The body of the loop of `update_next_firing`: the new firing time of one
interaction, and the interaction with its iterator moved. -/
def updateOne (now : ℤ) (nextFiringTime : Option ℤ)
    (agentInteraction : AgentInteraction Interaction) : ℤ × AgentInteraction Interaction :=
  let fetched := agentInteraction.cronIter.nextAfter now
  let fetch := (fetched.1, { agentInteraction with cronIter := fetched.2 })
  match nextFiringTime with
  | some time => if time > now then (time, agentInteraction) else fetch
  | none => fetch

/-- The loop of `update_next_firing`, from `index` on. -/
def updateLoop (now : ℤ) (nextFiring : Dict ℕ ℤ) :
    ℕ → List (AgentInteraction Interaction) → Dict ℕ ℤ → ℤ → LoopState Interaction
  | _, [], newNextFiring, closestFiring => ⟨[], newNextFiring, closestFiring⟩
  | index, agentInteraction :: rest, newNextFiring, closestFiring =>
      let updated := updateOne now (nextFiring.get? index) agentInteraction
      let state := updateLoop now nextFiring (index + 1) rest
        (newNextFiring.set index updated.1) (min closestFiring updated.1)
      { state with agentInteractionList := updated.2 :: state.agentInteractionList }

/-- `update_next_firing`. -/
def updateNextFiring (now : ℤ) (state : LoopState Interaction) : LoopState Interaction :=
  let closestFiring := if state.closestFiring < now then datetimeMax else state.closestFiring
  updateLoop now state.nextFiring 0 state.agentInteractionList .empty closestFiring

/-- The indexes whose next firing time is in the past. -/
def indexesToFire (now : ℤ) (nextFiring : Dict ℕ ℤ) : List ℕ :=
  (nextFiring.items.filter fun e => e.2 < now).map Prod.fst

/-- `figure_which_to_fire`. Every index in the mapping is one of the list
(`figureWhichToFire_length`), so no lookup fails. -/
def figureWhichToFire (now : ℤ) (state : LoopState Interaction) :
    List (AgentInteraction Interaction) :=
  (indexesToFire now state.nextFiring).filterMap fun index => state.agentInteractionList[index]?

/-- The state after `run` has entered its loop and done `k` iterations: the
setup takes its timestamp from `starts 0`, iteration `k` from `starts k`. -/
def runState (interactions : List (EnabledInteraction Interaction)) (starts : ℕ → ℤ) :
    ℕ → LoopState Interaction
  | 0 => updateNextFiring (starts 0) ⟨setUpAgentInteractions interactions, .empty, datetimeMax⟩
  | k + 1 => updateNextFiring (starts (k + 1)) (runState interactions starts k)

/-- The indexes of the interactions fired by iteration `k + 1`. -/
def firedAt (interactions : List (EnabledInteraction Interaction)) (starts : ℕ → ℤ) (k : ℕ) :
    List ℕ :=
  indexesToFire (starts (k + 1)) (runState interactions starts k).nextFiring

end Loop

/-! ## One update -/

section Update

variable {Interaction : Type*} {now later : ℤ}

/-- The next firing time of an interaction is its first tick after `now`, and
its iterator stands right behind it. -/
def Pending (now : ℤ) (agentInteraction : AgentInteraction Interaction) (time : Option ℤ) :
    Prop :=
  ∃ m, agentInteraction.cronIter.ticks.FirstAfter now m ∧
    time = some (agentInteraction.cronIter.ticks.tick m) ∧
    agentInteraction.cronIter.position = m + 1

/-- An interaction without a firing time has its whole schedule ahead. -/
def Unstarted (agentInteraction : AgentInteraction Interaction) (time : Option ℤ) : Prop :=
  time = none ∧ agentInteraction.cronIter.position = 0

theorem updateOne_ticks (time : Option ℤ) (agentInteraction : AgentInteraction Interaction) :
    (updateOne now time agentInteraction).2.cronIter.ticks = agentInteraction.cronIter.ticks := by
  obtain ⟨m, -, heq, -, -⟩ := agentInteraction.cronIter.nextAfter_spec now
  unfold updateOne
  rw [heq]
  cases time with
  | none => rfl
  | some time =>
      by_cases hgt : time > now
      · simp only [if_pos hgt]
      · simp only [if_neg hgt]

/-- A fetched time is the first tick after `now`, when all ticks the iterator
has passed are not after `now`. -/
theorem pending_fetch {agentInteraction : AgentInteraction Interaction}
    (hpassed : ∀ j < agentInteraction.cronIter.position,
      agentInteraction.cronIter.ticks.tick j ≤ now) :
    Pending now { agentInteraction with
      cronIter := (agentInteraction.cronIter.nextAfter now).2 }
      (some (agentInteraction.cronIter.nextAfter now).1) := by
  obtain ⟨m, hle, heq, hlt, hbetween⟩ := agentInteraction.cronIter.nextAfter_spec now
  rw [heq]
  refine ⟨m, ⟨hlt, fun j hj => ?_⟩, rfl, rfl⟩
  by_cases hjp : j < agentInteraction.cronIter.position
  · exact hpassed j hjp
  · exact hbetween j (by omega) hj

/-- The update at a later time leaves the first tick after that time pending. -/
theorem pending_updateOne {time : Option ℤ} {agentInteraction : AgentInteraction Interaction}
    (h : Unstarted agentInteraction time ∨ Pending now agentInteraction time)
    (hle : now ≤ later) :
    Pending later (updateOne later time agentInteraction).2
      (some (updateOne later time agentInteraction).1) := by
  rcases h with ⟨rfl, hposition⟩ | ⟨m, hfirst, rfl, hposition⟩
  · exact pending_fetch fun j hj => by omega
  · unfold updateOne
    by_cases hgt : agentInteraction.cronIter.ticks.tick m > later
    · simp only [if_pos hgt]
      exact ⟨m, hfirst.keep hle hgt, rfl, hposition⟩
    · simp only [if_neg hgt]
      refine pending_fetch fun j hj => ?_
      have hmono : agentInteraction.cronIter.ticks.tick j ≤
          agentInteraction.cronIter.ticks.tick m :=
        agentInteraction.cronIter.ticks.strictMono.monotone (by omega)
      omega

/-! ## One pass over the list -/

/-- The list after a pass: every interaction updated in its place. -/
theorem updateLoop_list (nextFiring : Dict ℕ ℤ) (list : List (AgentInteraction Interaction))
    (index : ℕ) (newNextFiring : Dict ℕ ℤ) (closestFiring : ℤ) (i : ℕ) :
    (updateLoop now nextFiring index list newNextFiring
        closestFiring).agentInteractionList[i]? =
      (list[i]?).map fun a => (updateOne now (nextFiring.get? (index + i)) a).2 := by
  induction list generalizing index newNextFiring closestFiring i with
  | nil => rfl
  | cons agentInteraction rest ih =>
      unfold updateLoop
      cases i with
      | zero => rfl
      | succ i =>
          simp only [List.getElem?_cons_succ]
          rw [ih, show index + 1 + i = index + (i + 1) by omega]

/-- The mapping after a pass: a new time for every index of the list, what was
there before for the others. -/
theorem updateLoop_nextFiring (nextFiring : Dict ℕ ℤ)
    (list : List (AgentInteraction Interaction)) (index : ℕ) (newNextFiring : Dict ℕ ℤ)
    (closestFiring : ℤ) (i : ℕ) :
    (updateLoop now nextFiring index list newNextFiring closestFiring).nextFiring.get? i =
      if index ≤ i then
        ((list[i - index]?).map fun a => (updateOne now (nextFiring.get? i) a).1).or
          (newNextFiring.get? i)
      else newNextFiring.get? i := by
  induction list generalizing index newNextFiring closestFiring with
  | nil =>
      unfold updateLoop
      split <;> rfl
  | cons agentInteraction rest ih =>
      unfold updateLoop
      simp only [ih, Dict.get?_set]
      rcases Nat.lt_trichotomy i index with hlt | rfl | hgt
      · rw [if_neg (by omega), if_neg (by omega), if_neg (by omega)]
      · rw [if_neg (by omega), if_pos rfl, if_pos (le_refl i), Nat.sub_self]
        rfl
      · rw [if_pos (by omega), if_neg (by omega), if_pos (by omega),
          show i - index = i - (index + 1) + 1 by omega, List.getElem?_cons_succ]

/-- What a pass leaves: the list with every interaction updated, and the new
times of exactly these. -/
theorem updateNextFiring_spec (now : ℤ) (state : LoopState Interaction) (i : ℕ) :
    (updateNextFiring now state).agentInteractionList[i]? =
        (state.agentInteractionList[i]?).map (fun a =>
          (updateOne now (state.nextFiring.get? i) a).2) ∧
      (updateNextFiring now state).nextFiring.get? i =
        (state.agentInteractionList[i]?).map fun a =>
          (updateOne now (state.nextFiring.get? i) a).1 := by
  unfold updateNextFiring
  constructor
  · rw [updateLoop_list, Nat.zero_add]
  · rw [updateLoop_nextFiring, if_pos (Nat.zero_le i), Nat.sub_zero, Dict.get?_empty,
      Option.or_none]

end Update

/-! ## Whole runs -/

section Runs

variable {Interaction : Type*} {interactions : List (EnabledInteraction Interaction)}
  {starts : ℕ → ℤ}

/-- After an iteration at `now`, every interaction is in its place with its
schedule, its next firing time is its first tick after `now`, and the mapping
has no other index. -/
structure PendingAll (interactions : List (EnabledInteraction Interaction)) (now : ℤ)
    (state : LoopState Interaction) : Prop where
  pending : ∀ {i : ℕ} {e}, interactions[i]? = some e →
    ∃ a, state.agentInteractionList[i]? = some a ∧
    a.cronIter.ticks = e.cronSchedule ∧ Pending now a (state.nextFiring.get? i)
  absent : ∀ {i : ℕ}, interactions[i]? = none →
    state.agentInteractionList[i]? = none ∧ state.nextFiring.get? i = none

/-- An update at a later time makes `PendingAll` true at that time, from
`PendingAll` or from fresh iterators. -/
theorem pendingAll_update {now later : ℤ} {state : LoopState Interaction} (hle : now ≤ later)
    (hpresent : ∀ {i : ℕ} {e}, interactions[i]? = some e →
      ∃ a, state.agentInteractionList[i]? = some a ∧ a.cronIter.ticks = e.cronSchedule ∧
        (Unstarted a (state.nextFiring.get? i) ∨ Pending now a (state.nextFiring.get? i)))
    (habsent : ∀ {i : ℕ}, interactions[i]? = none → state.agentInteractionList[i]? = none) :
    PendingAll interactions later (updateNextFiring later state) where
  pending := by
    intro i e he
    obtain ⟨a, ha, hticks, hpending⟩ := hpresent he
    obtain ⟨hlist, htime⟩ := updateNextFiring_spec later state i
    rw [ha] at hlist htime
    refine ⟨_, hlist, ?_, ?_⟩
    · rw [updateOne_ticks, hticks]
    · rw [htime]
      exact pending_updateOne hpending hle
  absent := by
    intro i hnone
    obtain ⟨hlist, htime⟩ := updateNextFiring_spec later state i
    rw [habsent hnone] at hlist htime
    exact ⟨hlist, htime⟩

/-- The invariant of the loop, by induction on the iterations. -/
theorem pending_run (hmono : Monotone starts) (k : ℕ) :
    PendingAll interactions (starts k) (runState interactions starts k) := by
  induction k with
  | zero =>
      refine pendingAll_update (le_refl (starts 0)) ?_ ?_
      · intro i e he
        refine ⟨⟨e.agentNetwork, e.interaction, ⟨e.cronSchedule, 0⟩⟩, ?_, rfl, .inl ⟨rfl, rfl⟩⟩
        simp only [setUpAgentInteractions, List.getElem?_map, he, Option.map_some]
      · intro i hnone
        simp only [setUpAgentInteractions, List.getElem?_map, hnone, Option.map_none]
  | succ k ih =>
      refine pendingAll_update (hmono (Nat.le_succ k)) ?_ ?_
      · intro i e he
        obtain ⟨a, ha, hticks, hpending⟩ := ih.pending he
        exact ⟨a, ha, hticks, .inr hpending⟩
      · intro i hnone
        exact (ih.absent hnone).1

theorem mem_indexesToFire {now : ℤ} {nextFiring : Dict ℕ ℤ} {i : ℕ} :
    i ∈ indexesToFire now nextFiring ↔ ∃ time, nextFiring.get? i = some time ∧ time < now := by
  unfold indexesToFire
  constructor
  · intro h
    obtain ⟨e, he, rfl⟩ := List.mem_map.mp h
    obtain ⟨hmem, hlt⟩ := List.mem_filter.mp he
    exact ⟨e.2, Dict.get?_eq_some_iff.mpr hmem, of_decide_eq_true hlt⟩
  · rintro ⟨time, htime, hlt⟩
    exact List.mem_map.mpr ⟨(i, time),
      List.mem_filter.mpr ⟨Dict.get?_eq_some_iff.mp htime, decide_eq_true hlt⟩, rfl⟩

theorem indexesToFire_nodup (now : ℤ) (nextFiring : Dict ℕ ℤ) :
    (indexesToFire now nextFiring).Nodup :=
  nextFiring.nodup.sublist (List.filter_sublist.map Prod.fst)

/-- The entries fired are those of the indexes fired: no lookup fails. -/
theorem figureWhichToFire_length (hmono : Monotone starts) (k : ℕ) :
    (figureWhichToFire (starts (k + 1)) (runState interactions starts k)).length =
      (firedAt interactions starts k).length := by
  unfold figureWhichToFire firedAt
  refine List.filterMap_length_eq_length.mpr ?_
  intro i hi
  obtain ⟨time, htime, -⟩ := mem_indexesToFire.mp hi
  cases he : interactions[i]? with
  | none =>
      rw [((pending_run hmono k).absent he).2] at htime
      cases htime
  | some e =>
      obtain ⟨a, ha, -⟩ := (pending_run hmono k).pending he
      rw [ha]
      rfl

/-- Iteration `k + 1` fires interaction `i` as it should: once if its schedule
has a tick since the iteration before, and otherwise not. -/
def FiresRight (interactions : List (EnabledInteraction Interaction)) (starts : ℕ → ℤ)
    (k i : ℕ) (cronSchedule : Ticks) : Prop :=
  (i ∈ firedAt interactions starts k ↔ cronSchedule.Reached (starts k) (starts (k + 1))) ∧
    (firedAt interactions starts k).count i ≤ 1

/-- The loop fires right exactly where the first tick since the iteration before
is not the timestamp itself. -/
theorem fires_iff (hmono : Monotone starts) (k : ℕ) {i : ℕ} {e : EnabledInteraction Interaction}
    (he : interactions[i]? = some e) :
    FiresRight interactions starts k i e.cronSchedule ↔
      ¬ ∃ m, e.cronSchedule.FirstAfter (starts k) m ∧ e.cronSchedule.tick m = starts (k + 1) := by
  obtain ⟨a, -, hticks, m, hfirst, htime, -⟩ := (pending_run hmono k).pending he
  rw [hticks] at hfirst htime
  have hfired : i ∈ firedAt interactions starts k ↔
      e.cronSchedule.tick m < starts (k + 1) := by
    unfold firedAt
    rw [mem_indexesToFire, htime]
    simp
  have hcount : (firedAt interactions starts k).count i ≤ 1 :=
    List.nodup_iff_count_le_one.mp (indexesToFire_nodup _ _) i
  unfold FiresRight
  rw [hfired, hfirst.reached_iff]
  constructor
  · rintro ⟨hiff, -⟩ ⟨n, hn, heq⟩
    rw [hn.unique hfirst] at heq
    have hlt := hiff.mpr (le_of_eq heq)
    omega
  · intro hnot
    have hne : e.cronSchedule.tick m ≠ starts (k + 1) := fun heq => hnot ⟨m, hfirst, heq⟩
    exact ⟨⟨le_of_lt, fun hle => lt_of_le_of_ne hle hne⟩, hcount⟩

end Runs

/-! ## Every minute -/

/-- A tick every minute, from one minute after the setup on. -/
def everyMinute : Ticks where
  tick n := 60000000 * (n + 1)
  strictMono := by
    intro m n hmn
    show (60000000 * ((m : ℤ) + 1)) < 60000000 * ((n : ℤ) + 1)
    omega

/-- An iteration half a minute after the tick fires it. -/
theorem fires_after_tick :
    FiresRight [⟨"chime", (), everyMinute⟩] (fun k => 90000000 * k) 0 0 everyMinute := by
  have hmono : Monotone fun k : ℕ => 90000000 * (k : ℤ) := by
    intro m n hmn
    show 90000000 * (m : ℤ) ≤ 90000000 * (n : ℤ)
    omega
  refine (fires_iff hmono 0 (i := 0) (e := ⟨"chime", (), everyMinute⟩) rfl).mpr ?_
  rintro ⟨m, -, heq⟩
  have hvalue : 60000000 * ((m : ℤ) + 1) = 90000000 * ((0 + 1 : ℕ) : ℤ) := heq
  omega

/-- An iteration at the very microsecond of the tick does not fire it, and the
one after it is the next minute's. -/
theorem tick_at_timestamp_lost :
    ¬ ∀ (interactions : List (EnabledInteraction Unit)) (starts : ℕ → ℤ), Monotone starts →
      (∀ e ∈ interactions, ∀ n, starts 0 < e.cronSchedule.tick n) →
      ∀ (k i : ℕ) e, interactions[i]? = some e →
        FiresRight interactions starts k i e.cronSchedule := by
  intro h
  have hmono : Monotone fun k : ℕ => 60000000 * (k : ℤ) := by
    intro m n hmn
    show 60000000 * (m : ℤ) ≤ 60000000 * (n : ℤ)
    omega
  have hlater : ∀ e ∈ [(⟨"chime", (), everyMinute⟩ : EnabledInteraction Unit)],
      ∀ n, 60000000 * ((0 : ℕ) : ℤ) < e.cronSchedule.tick n := by
    intro e he n
    rw [List.mem_singleton.mp he]
    show 60000000 * ((0 : ℕ) : ℤ) < 60000000 * ((n : ℤ) + 1)
    omega
  have hfires := (h _ _ hmono hlater 0 0 _ rfl).1.mpr ⟨0, by decide, by decide⟩
  exact absurd hfires (by decide)

end NoraFleet.Watcher
