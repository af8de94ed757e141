import NoraFleet.HttpServer.Deployments

/-!
# Eviction and actual use

The storage evicts by its own access times. A request that the server answers
from its own table does not ask the storage, so it leaves them as they were.

* `Recorded` — the access times are the latest uses, and every eviction so far
  went by them;
* `Recorded.addReservations` and its like — what each operation keeps;
* `evicts_least_recently_used` — in every run whose requests find the access
  time of their network up to date, a network that is evicted was not used later
  than one that stays;
* `recently_requested_network_evicted` — a run in which a request is forgotten.
-/

namespace NoraFleet.HttpServer.Server

open Base TempNetworks

variable {Name Spec Network Time : Type*} [DecidableEq Name] [LinearOrder Time]

/-- Every network that was evicted was last used at most as late as every network
that stayed. -/
def EvictsLeastRecent (s : Server Name Network Time) : Prop :=
  ∀ eviction ∈ s.evictions, ∀ evicted ∈ eviction.evicted, ∀ kept ∈ eviction.kept,
    ∃ earlier later, eviction.lastUsed.get? evicted = some earlier ∧
      eviction.lastUsed.get? kept = some later ∧ earlier ≤ later

/-- The storage has an access time for exactly the networks it has, and it is
the time of the latest use. -/
structure Recorded (s : Server Name Network Time) : Prop where
  aligned : ∀ name, name ∈ s.storage.agentsTable ↔ name ∈ s.storage.accessTimes
  latest : ∀ name time, s.storage.accessTimes.get? name = some time →
    s.lastUsed.get? name = some time
  respected : s.EvictsLeastRecent

namespace Recorded

variable {s s' : Server Name Network Time}

/-! ## What happens to the tables -/

/-- Nothing happens to what the invariant is about. -/
theorem congr (h : s.Recorded) (hagents : s'.storage.agentsTable = s.storage.agentsTable)
    (haccess : s'.storage.accessTimes = s.storage.accessTimes)
    (hlast : s'.lastUsed = s.lastUsed) (hevictions : s'.evictions = s.evictions) :
    s'.Recorded := by
  constructor
  · rw [hagents, haccess]
    exact h.aligned
  · rw [haccess, hlast]
    exact h.latest
  · unfold EvictsLeastRecent
    rw [hevictions]
    exact h.respected

/-- A network is used, and its access time refreshed. -/
theorem used (h : s.Recorded) {agentName : Name} {now : Time}
    (hagents : ∀ name, name ∈ s'.storage.agentsTable ↔
      name = agentName ∨ name ∈ s.storage.agentsTable)
    (haccess : s'.storage.accessTimes = s.storage.accessTimes.set agentName now)
    (hlast : s'.lastUsed = s.lastUsed.set agentName now)
    (hevictions : s'.evictions = s.evictions) : s'.Recorded := by
  constructor
  · intro name
    rw [hagents, haccess, Dict.mem_set, h.aligned]
  · intro name time htime
    rw [haccess, Dict.get?_set] at htime
    rw [hlast, Dict.get?_set]
    split
    · rename_i hname
      rwa [if_pos hname] at htime
    · rename_i hname
      rw [if_neg hname] at htime
      exact h.latest name time htime
  · unfold EvictsLeastRecent
    rw [hevictions]
    exact h.respected

/-- Networks go. -/
theorem removed (h : s.Recorded) (names : List Name)
    (hagents : s'.storage.agentsTable = s.storage.agentsTable.popAll names)
    (haccess : s'.storage.accessTimes = s.storage.accessTimes.popAll names)
    (hlast : s'.lastUsed = s.lastUsed) (hrespected : s'.EvictsLeastRecent) : s'.Recorded := by
  refine ⟨fun name => ?_, fun name time htime => ?_, hrespected⟩
  · rw [hagents, haccess, Dict.mem_popAll, Dict.mem_popAll, h.aligned]
  · rw [haccess, Dict.get?_popAll] at htime
    split at htime
    · cases htime
    · rw [hlast]
      exact h.latest name time htime

theorem removeAgent (h : s.Recorded) (agentName : Name) : (s.removeAgent agentName).Recorded :=
  h.removed [agentName] rfl rfl rfl h.respected

/-! ## The operations -/

theorem evict (h : s.Recorded) : s.evictLruAgentNetworks.Recorded := by
  unfold evictLruAgentNetworks
  split
  · exact h
  · have hremoved := Storage.removeAll_eq s.storage s.storage.lruOverflow
    have hagents : (s.storage.removeAll s.storage.lruOverflow).agentsTable =
        s.storage.agentsTable.popAll s.storage.lruOverflow :=
      congrArg Storage.agentsTable hremoved
    refine h.removed s.storage.lruOverflow hagents ?_ rfl ?_
    · exact congrArg Storage.accessTimes hremoved
    · intro eviction heviction evicted hevicted kept hkept
      rcases List.mem_append.mp heviction with hbefore | hnow
      · exact h.respected eviction hbefore evicted hevicted kept hkept
      · obtain rfl := List.mem_singleton.mp hnow
        have hkept : kept ∈ s.storage.agentsTable.popAll s.storage.lruOverflow := by
          rw [← hagents]
          exact hkept
        rw [Dict.mem_popAll, h.aligned] at hkept
        obtain ⟨time, htime⟩ := Dict.exists_get?_of_mem hkept.2
        obtain ⟨earlier, hearlier, hle⟩ :=
          Storage.accessTimes_le_of_evicted hevicted hkept.1 htime
        exact ⟨earlier, time, h.latest _ _ hearlier, h.latest _ _ htime, hle⟩

theorem expire (h : s.Recorded) (now : Time) : (s.expireReservations now).Recorded := by
  have hremoved := Storage.removeAll_eq s.storage
    ((s.storage.reservationsTable.items.filter fun entry =>
      Storage.isExpired now entry.2).map Prod.fst)
  exact h.removed _ (congrArg Storage.agentsTable hremoved)
    (congrArg Storage.accessTimes hremoved) rfl h.respected

theorem provideReserved (h : s.Recorded) (now : Time) (agentName : Name)
    (reservation : Reservation Name Time) :
    (s.provideReserved now agentName reservation).1.Recorded := by
  unfold Server.provideReserved
  split
  · exact h.removeAgent agentName
  · split
    · exact h
    · rename_i hnetwork
      refine h.used (fun name => ⟨Or.inr, ?_⟩) rfl rfl rfl
      rintro (rfl | hmem)
      · exact Dict.mem_of_get?_eq_some hnetwork
      · exact hmem

theorem agentAdded (h : s.Recorded) (clock : Clock Name Time) (agentName : Name) :
    (s.agentAdded clock agentName).Recorded := by
  unfold Server.agentAdded
  split
  · exact h
  · exact (h.provideReserved (clock.askedBack agentName) agentName _).congr rfl rfl rfl rfl

theorem agentModified (h : s.Recorded) (agentName : Name) :
    (s.agentModified agentName).Recorded :=
  h.congr rfl rfl rfl rfl

omit [LinearOrder Time] in
/-- The loop of `add_reservations` sets the access time of every name it
stores. -/
theorem accessTimes_addLoop (kind : NetworkKind Name Spec Network) (now : Time)
    (batch : List (Reservation Name Time × Spec)) (storage : Storage Name Network Time)
    (added replaced : List Name) :
    (Storage.addLoop kind now batch storage added replaced).storage.accessTimes =
      (storedNames kind batch).foldl (fun accessTimes agentName => accessTimes.set agentName now)
        storage.accessTimes := by
  induction batch generalizing storage added replaced with
  | nil => rfl
  | cons entry rest ih =>
      obtain ⟨reservation, agentSpec⟩ := entry
      cases hnetwork : kind.agentNetwork agentSpec reservation.id with
      | none =>
          rw [Storage.addLoop_raise kind now hnetwork, storedNames_raise hnetwork]
          rfl
      | some agentNetwork =>
          rw [Storage.addLoop_store kind now hnetwork, ih, storedNames_store hnetwork]
          rfl

omit [LinearOrder Time] in
/-- What is the latest use stays so when the same names are set on both sides. -/
theorem latest_foldl_set (now : Time) (names : List Name) {accessTimes lastUsed : Dict Name Time}
    (h : ∀ name time, accessTimes.get? name = some time → lastUsed.get? name = some time) :
    ∀ name time,
      (names.foldl (fun d agentName => d.set agentName now) accessTimes).get? name = some time →
      (names.foldl (fun d agentName => d.set agentName now) lastUsed).get? name = some time := by
  induction names generalizing accessTimes lastUsed with
  | nil => exact h
  | cons agentName rest ih =>
      apply ih
      intro name time htime
      rw [Dict.get?_set] at htime ⊢
      by_cases hname : name = agentName
      · rw [if_pos hname] at htime ⊢
        exact htime
      · rw [if_neg hname] at htime ⊢
        exact h name time htime

theorem addReservations (h : s.Recorded) (kind : NetworkKind Name Spec Network)
    (clock : Clock Name Time) (batch : List (Reservation Name Time × Spec)) (baseRaises : Bool) :
    (s.addReservations kind clock batch baseRaises).Recorded := by
  have hadded : ∀ (names : List Name) (s : Server Name Network Time), s.Recorded →
      (names.foldl (Server.agentAdded clock) s).Recorded := by
    intro names
    induction names with
    | nil => exact fun _ h => h
    | cons name rest ih => exact fun s h => ih _ (h.agentAdded clock name)
  have hmodified : ∀ (names : List Name) (s : Server Name Network Time), s.Recorded →
      (names.foldl Server.agentModified s).Recorded := by
    intro names
    induction names with
    | nil => exact fun _ h => h
    | cons name rest ih => exact fun s h => ih _ (h.agentModified name)
  unfold Server.addReservations
  split
  · exact h
  · have hstored : ({ s with
        storage := (s.storage.addReservationsLocked kind clock.now batch).storage
        lastUsed := (storedNames kind batch).foldl
          (fun lastUsed agentName => lastUsed.set agentName clock.now) s.lastUsed } :
        Server Name Network Time).Recorded := by
      refine ⟨?_, ?_, h.respected⟩
      · refine Storage.addLoop_invariant
          (I := fun storage => ∀ name, name ∈ storage.agentsTable ↔ name ∈ storage.accessTimes)
          kind clock.now ?_ batch s.storage [] [] h.aligned
        intro storage agentName reservation agentNetwork size haligned name
        show name ∈ storage.agentsTable.set agentName agentNetwork ↔
          name ∈ storage.accessTimes.set agentName clock.now
        rw [Dict.mem_set, Dict.mem_set, haligned]
      · intro name time htime
        refine latest_foldl_set clock.now (storedNames kind batch) h.latest name time ?_
        rw [← accessTimes_addLoop]
        exact htime
    dsimp only
    split
    · exact hstored
    · exact (hmodified _ _ (hadded _ _ hstored)).evict

theorem getAgentNetworkProvider (h : s.Recorded) (kind : NetworkKind Name Spec Network)
    (clock : Clock Name Time) (agentName : Name)
    (found : Option (Reservation Name Time × Network)) :
    (s.getAgentNetworkProvider kind clock agentName found).1.Recorded := by
  unfold Server.getAgentNetworkProvider
  split
  · exact h.provideReserved clock.now agentName _
  · split
    · exact h
    · split
      · exact h
      · refine (Recorded.agentAdded ?_ clock agentName).evict
        exact h.used (fun _ => Dict.mem_set) rfl rfl rfl

/-- A request is answered, of a network whose access time is up to date. -/
theorem answered (h : s.Recorded) {agentName : Name} {now : Time}
    (hfresh : ∀ time, s.storage.accessTimes.get? agentName = some time → time = now)
    (provider : ServiceProvider Name Network) : (s.answer now agentName provider).Recorded := by
  refine ⟨h.aligned, fun name time htime => ?_, h.respected⟩
  show (s.lastUsed.set agentName now).get? name = some time
  rw [Dict.get?_set]
  split
  · rename_i hname
    rw [hfresh time (hname ▸ htime)]
  · exact h.latest name time htime

end Recorded

/-! ## Runs -/

/-- A request that the server answers from its own table, for a network of the
storage, comes at the time that the storage has as its access time. -/
def FindsRefreshed : Clock Name Time × Operation Name Spec Network Time →
    Server Name Network Time → Prop
  | (clock, .getService agentName isAuthorized _), s =>
      isAuthorized = true → agentName ∈ s.allowedAgents →
        ∀ entry ∈ s.storage.accessTimes.items, entry.1 = agentName → entry.2 = clock.now
  | _, _ => True

instance (s : Server Name Network Time) :
    (op : Clock Name Time × Operation Name Spec Network Time) → Decidable (FindsRefreshed op s)
  | (clock, .getService agentName isAuthorized _) =>
      inferInstanceAs (Decidable (isAuthorized = true → agentName ∈ s.allowedAgents →
        ∀ entry ∈ s.storage.accessTimes.items, entry.1 = agentName → entry.2 = clock.now))
  | (_, .addReservations ..) | (_, .expireReservations) | (_, .getAgentNetworkProvider ..) =>
      isTrue trivial

theorem Recorded.getService {s : Server Name Network Time} (h : s.Recorded)
    (kind : NetworkKind Name Spec Network) (isReservationName : Name → Bool)
    (clock : Clock Name Time) {agentName : Name} {isAuthorized : Bool}
    {found : Option (Reservation Name Time × Network)}
    (hok : FindsRefreshed ((clock, .getService agentName isAuthorized found) :
      Clock Name Time × Operation Name Spec Network Time) s) :
    (s.getService kind isReservationName clock agentName isAuthorized found).Recorded := by
  unfold Server.getService
  split
  · exact h
  · rename_i hauthorized
    split
    · rename_i provider hprovider
      refine h.answered (fun time htime => ?_) provider
      exact hok (Bool.not_eq_false _ ▸ hauthorized) (Dict.mem_of_get?_eq_some hprovider)
        (agentName, time) (Dict.get?_eq_some_iff.mp htime) rfl
    · split
      · have hasked := h.getAgentNetworkProvider kind clock agentName found
        split
        · rename_i heq
          rw [heq] at hasked
          exact hasked
        · rename_i heq
          rw [heq] at hasked
          split
          · exact hasked
          · exact hasked.congr rfl rfl rfl rfl
      · exact h

/-- One operation that meets the condition keeps the access times right. -/
theorem Recorded.exec {kind : NetworkKind Name Spec Network} {isReservationName : Name → Bool}
    (op : Clock Name Time × Operation Name Spec Network Time) (s : Server Name Network Time)
    (h : s.Recorded) (hok : FindsRefreshed op s) :
    (Server.exec kind isReservationName op s).Recorded := by
  obtain ⟨clock, operation⟩ := op
  cases operation with
  | addReservations reservationsDict baseRaises =>
      exact h.addReservations kind clock reservationsDict baseRaises
  | expireReservations => exact h.expire clock.now
  | getAgentNetworkProvider agentName found =>
      exact h.getAgentNetworkProvider kind clock agentName found
  | getService agentName isAuthorized found =>
      exact h.getService kind isReservationName clock hok

/-- In every run whose requests find the access time of their network up to
date, a network that is evicted was not used later than one that stays. -/
theorem evicts_least_recently_used {kind : NetworkKind Name Spec Network}
    {isReservationName : Name → Bool} {maxItems : Int} {itemsOverflowThreshold : Nat}
    {s : Server Name Network Time}
    (hr : Runs (Server.exec kind isReservationName) FindsRefreshed
      (initial maxItems itemsOverflowThreshold) s) : s.EvictsLeastRecent := by
  have hinit : (initial maxItems itemsOverflowThreshold : Server Name Network Time).Recorded := by
    refine ⟨fun name => ?_, fun _ _ htime => (nomatch htime),
      fun _ heviction => (nomatch heviction)⟩
    exact iff_of_false (Dict.not_mem_empty name) (Dict.not_mem_empty name)
  exact (hr.invariant hinit fun op s h hok => h.exec op s hok).respected

/-- Requests a network. -/
def request (agentName : String) (now : ℕ) : Clock String ℕ × Operation String ℕ ℕ ℕ :=
  (⟨now, fun _ => now⟩, .getService agentName true none)

/-- A server that is asked for a network right after its deployment, and evicts
two networks that were deployed before. -/
theorem evicts_least_recently_used_four_deployed :
    (served 2 1 [deploy "a" 1 1, request "a" 1, deploy "b" 2 1, deploy "c" 3 1,
      deploy "d" 4 1]).EvictsLeastRecent :=
  evicts_least_recently_used (Runs.of_ops .init (by decide))

/-- The clock does not go back, during an operation or between two. -/
def Nondecreasing (ops : List (Clock Name Time × Operation Name Spec Network Time)) : Prop :=
  (∀ op ∈ ops, ∀ agentName, op.1.now ≤ op.1.askedBack agentName) ∧
    ops.Pairwise fun earlier later => ∀ agentName, earlier.1.askedBack agentName ≤ later.1.now

/-- Evictions do not go by the latest use: the network that was requested last of all
is evicted, since the request left its access time as it was. -/
theorem recently_requested_network_evicted :
    ¬ ∀ (maxItems : Int) (itemsOverflowThreshold : ℕ)
      (ops : List (Clock String ℕ × Operation String ℕ ℕ ℕ)), 0 < maxItems →
      Storage.overflowThreshold maxItems = some itemsOverflowThreshold → Nondecreasing ops →
      (served maxItems itemsOverflowThreshold ops).EvictsLeastRecent := by
  intro h
  have hrespected := h 2 1 [deploy "a" 1 1, deploy "b" 2 1, deploy "c" 3 1, request "a" 4,
    deploy "d" 5 1] (by decide) (by decide +kernel) (by simp [Nondecreasing, deploy, request])
  have hevictions : (served 2 1 [deploy "a" 1 1, deploy "b" 2 1, deploy "c" 3 1, request "a" 4,
      deploy "d" 5 1]).evictions.getLast?.map (fun eviction =>
        (eviction.evicted, eviction.kept, eviction.lastUsed.get? "a",
          eviction.lastUsed.get? "c")) = some (["a", "b"], ["c", "d"], some 4, some 3) := by
    decide
  obtain ⟨eviction, hlast, hvalues⟩ := Option.map_eq_some_iff.mp hevictions
  simp only [Prod.mk.injEq] at hvalues
  obtain ⟨hevicted, hkept, ha, hc⟩ := hvalues
  obtain ⟨earlier, later, hearlier, hlater, hle⟩ :=
    hrespected eviction (List.mem_of_getLast? hlast) "a" (by rw [hevicted]; simp) "c"
      (by rw [hkept]; simp)
  rw [ha] at hearlier
  rw [hc] at hlater
  obtain rfl := Option.some.inj hearlier
  obtain rfl := Option.some.inj hlater
  exact absurd hle (by decide)

end NoraFleet.HttpServer.Server
