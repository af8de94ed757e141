import NoraFleet.Base.Interleaving
import NoraFleet.TempNetworks.Storage

/-!
# The calls of the temporary-network storage

Every method of `ExpiringAgentNetworkStorage` as a sequence of atomic steps:
each `with self.lock` block is one step, and so is every read of a table or of
an attribute outside the lock, every reading of the clock, every write of an
attribute, every question to the base storage and every single notification of
the listener. `storageProgram` runs any number of such calls in any order.

`step_storage` says once what a step can do to the storage; the results on the
tables are derived from it and never unfold `step`.
-/

namespace NoraFleet.TempNetworks

open Base

/-- What a listener is told. -/
inductive Notice (Name : Type*) where
  | agentAdded (agentName : Name)
  | agentModified (agentName : Name)
  | agentRemoved (agentName : Name)
  deriving DecidableEq

/-- The storage, the clock, and what the listener has been told so far. -/
structure World (Name Network Time : Type*) where
  storage : Storage Name Network Time
  clock : Time
  told : List (Notice Name)

/-- The public operations. -/
inductive Op (Name Spec Time : Type*) where
  | addReservations (reservationsDict : List (Reservation Name Time × Spec))
  | getAgentNetworkProvider (agentName : Name)
  | expireReservations
  | evictLruAgentNetworks
  | setMaxAgentNetworks (maxItems : Int)

/-- What the base storage answers, should the step ask it: it raises, or
`get_one_reservation` finds a reservation with its network or nothing. -/
structure Answer (Name Network Time : Type*) where
  raises : Bool
  found : Option (Reservation Name Time × Network)

/-- The control point of a call, with the locals it still needs. -/
inductive Call (Name Spec Network Time : Type*) where
  -- add_reservations
  | addBase (reservationsDict : List (Reservation Name Time × Spec))
  | addNow (reservationsDict : List (Reservation Name Time × Spec))
  | addLock (reservationsDict : List (Reservation Name Time × Spec)) (now : Time)
  -- expire_reservations
  | expireSnapshot
  | expireScan (snapshot : Dict Name (Reservation Name Time))
      (rest : List (Name × Reservation Name Time)) (expired : List Name)
  | expireLock (snapshot : Dict Name (Reservation Name Time)) (expired : List Name)
  -- get_agent_network_provider, cache hit
  | getReservation (agentName : Name)
  | getCheck (agentName : Name) (reservation : Reservation Name Time)
  | getExpiredLock (agentName : Name) (reservation : Reservation Name Time)
  | getNetwork (agentName : Name)
  | getTouch (agentName : Name) (agentNetwork : Network)
  -- get_agent_network_provider, cache miss
  | getBase (agentName : Name)
  | getBaseCheck (agentName : Name) (reservation : Reservation Name Time)
      (agentNetwork : Network)
  | getBaseNow (agentName : Name) (reservation : Reservation Name Time)
      (agentNetwork : Network)
  | getBaseLock (agentName : Name) (reservation : Reservation Name Time)
      (agentNetwork : Network) (now : Time)
  -- set_max_agent_networks
  | setMax (maxItems : Int)
  | setThresholdZero (maxItems : Int)
  | setThreshold (maxItems : Int)
  -- evict_lru_agent_networks, also at the end of the operations that grow
  | evictCheck (result : Option Network)
  | evictLock (result : Option Network)
  -- the notifications of any of them
  | notify (owed : List (Notice Name)) (result : Option Network) (thenEvict : Bool)
  | returned (result : Option Network)
  | raised

section Steps

variable {Name Spec Network Time : Type*} [DecidableEq Name] [LinearOrder Time]

/-- Where each operation starts. -/
def start : Op Name Spec Time → Call Name Spec Network Time
  | .addReservations reservationsDict =>
      if reservationsDict.isEmpty then .returned none else .addBase reservationsDict
  | .getAgentNetworkProvider agentName => .getReservation agentName
  | .expireReservations => .expireSnapshot
  | .evictLruAgentNetworks => .evictCheck none
  | .setMaxAgentNetworks maxItems => .setMax maxItems

/-- One atomic step of a call. -/
def step (kind : NetworkKind Name Spec Network) (hasBase : Bool)
    (answer : Answer Name Network Time) (w : World Name Network Time) :
    Call Name Spec Network Time →
      Option (World Name Network Time × Call Name Spec Network Time)
  -- the base storage is told first, and what it raises ends the call
  | .addBase reservationsDict =>
      if hasBase && answer.raises then some (w, .raised)
      else some (w, .addNow reservationsDict)
  | .addNow reservationsDict => some (w, .addLock reservationsDict w.clock)
  | .addLock reservationsDict now =>
      let result := w.storage.addReservationsLocked kind now reservationsDict
      some ({ w with storage := result.storage },
        if result.raised then .raised
        else .notify (result.added.map .agentAdded ++ result.replaced.map .agentModified)
          none true)
  | .expireSnapshot =>
      some (w, .expireScan w.storage.reservationsTable w.storage.reservationsTable.items [])
  | .expireScan snapshot ((agentName, reservation) :: rest) expired =>
      some (w, .expireScan snapshot rest
        (if Storage.isExpired w.clock reservation then expired ++ [agentName] else expired))
  | .expireScan snapshot [] expired =>
      some (w, if expired.isEmpty then .returned none else .expireLock snapshot expired)
  | .expireLock _ expired =>
      some ({ w with storage := w.storage.removeAll expired },
        .notify (expired.map .agentRemoved) none false)
  | .getReservation agentName =>
      match w.storage.reservationsTable.get? agentName with
      | some reservation => some (w, .getCheck agentName reservation)
      | none => some (w, .getBase agentName)
  | .getCheck agentName reservation =>
      if Storage.isExpired w.clock reservation then
        some (w, .getExpiredLock agentName reservation)
      else some (w, .getNetwork agentName)
  | .getExpiredLock agentName _ =>
      some ({ w with storage := w.storage.removeAll [agentName] },
        .notify [.agentRemoved agentName] none false)
  | .getNetwork agentName =>
      match w.storage.agentsTable.get? agentName with
      | some agentNetwork => some (w, .getTouch agentName agentNetwork)
      | none => some (w, .returned none)
  | .getTouch agentName agentNetwork =>
      some ({ w with storage := w.storage.touch agentName w.clock },
        .returned (some agentNetwork))
  | .getBase agentName =>
      if !hasBase then some (w, .returned none)
      else if answer.raises then some (w, .raised)
      else match answer.found with
        | some (reservation, agentNetwork) =>
            some (w, .getBaseCheck agentName reservation agentNetwork)
        | none => some (w, .returned none)
  | .getBaseCheck agentName reservation agentNetwork =>
      if Storage.isExpired w.clock reservation then some (w, .returned none)
      else some (w, .getBaseNow agentName reservation agentNetwork)
  | .getBaseNow agentName reservation agentNetwork =>
      some (w, .getBaseLock agentName reservation agentNetwork w.clock)
  | .getBaseLock agentName reservation agentNetwork now =>
      let stored := w.storage.store agentName reservation agentNetwork
        (kind.getSizeInBytes agentNetwork) now
      some ({ w with storage := stored },
        .notify [.agentAdded agentName] (some agentNetwork) true)
  | .setMax maxItems =>
      some ({ w with storage := { w.storage with maxItems := maxItems } },
        .setThresholdZero maxItems)
  | .setThresholdZero maxItems =>
      some ({ w with storage := { w.storage with itemsOverflowThreshold := 0 } },
        .setThreshold maxItems)
  | .setThreshold maxItems =>
      if maxItems > 0 then
        match Storage.overflowThreshold maxItems with
        | none => some (w, .raised)
        | some threshold =>
            some ({ w with storage := { w.storage with itemsOverflowThreshold := threshold } },
              .evictCheck none)
      else some (w, .evictCheck none)
  | .evictCheck result =>
      if w.storage.maxItems ≤ 0 then some (w, .returned result)
      else some (w, .evictLock result)
  | .evictLock result =>
      some ({ w with storage := w.storage.removeAll w.storage.lruOverflow },
        .notify (w.storage.lruOverflow.map .agentRemoved) result false)
  | .notify (notice :: owed) result thenEvict =>
      some ({ w with told := w.told ++ [notice] }, .notify owed result thenEvict)
  | .notify [] result thenEvict =>
      some (w, if thenEvict then .evictCheck result else .returned result)
  | .returned _ => none
  | .raised => none

/-- Any number of calls of the storage, against a clock that never goes back. -/
def storageProgram (kind : NetworkKind Name Spec Network) (hasBase : Bool) :
    Program (World Name Network Time) (Op Name Spec Time) (Call Name Spec Network Time)
      (Answer Name Network Time) Time where
  start := start
  step := step kind hasBase
  env := fun t w => if w.clock ≤ t then some { w with clock := t } else none

/-- The storage as constructed, with a listener registered from the start. -/
def initialWorld (clock : Time) : World Name Network Time := ⟨.empty, clock, []⟩

/-- The names a call is about to remove because their reservation was found
expired. -/
def Call.expiring : Call Name Spec Network Time → List Name
  | .expireLock _ expired => expired
  | .getExpiredLock agentName _ => [agentName]
  | _ => []

/-- The four tables of two storages agree. -/
structure SameTables (s t : Storage Name Network Time) : Prop where
  agentsTable : t.agentsTable = s.agentsTable
  reservationsTable : t.reservationsTable = s.reservationsTable
  accessTimes : t.accessTimes = s.accessTimes
  sizes : t.sizes = s.sizes

/-- What one step can do to the storage: nothing to the tables, one of the two
storing blocks, the stamp of a cache hit, an eviction, or the removal of names
found expired. -/
theorem step_storage {kind : NetworkKind Name Spec Network} {hasBase : Bool}
    {answer : Answer Name Network Time} {w w' : World Name Network Time}
    {l l' : Call Name Spec Network Time} (h : step kind hasBase answer w l = some (w', l')) :
    w'.clock = w.clock ∧
    (SameTables w.storage w'.storage ∨
      (∃ reservationsDict now, l = .addLock reservationsDict now ∧
        w'.storage = (w.storage.addReservationsLocked kind now reservationsDict).storage) ∨
      (∃ agentName reservation agentNetwork now,
        l = .getBaseLock agentName reservation agentNetwork now ∧
        w'.storage = w.storage.store agentName reservation agentNetwork
          (kind.getSizeInBytes agentNetwork) now) ∨
      (∃ agentName agentNetwork, l = .getTouch agentName agentNetwork ∧
        w'.storage = w.storage.touch agentName w.clock) ∨
      (∃ result, l = .evictLock result ∧
        w'.storage = w.storage.removeAll w.storage.lruOverflow) ∨
      w'.storage = w.storage.removeAll l.expiring) := by
  cases l with
  | addLock reservationsDict now =>
      obtain ⟨rfl, -⟩ := Prod.mk.inj (Option.some.inj h)
      exact ⟨rfl, .inr (.inl ⟨reservationsDict, now, rfl, rfl⟩)⟩
  | getBaseLock agentName reservation agentNetwork now =>
      obtain ⟨rfl, -⟩ := Prod.mk.inj (Option.some.inj h)
      exact ⟨rfl, .inr (.inr (.inl ⟨agentName, reservation, agentNetwork, now, rfl, rfl⟩))⟩
  | getTouch agentName agentNetwork =>
      obtain ⟨rfl, -⟩ := Prod.mk.inj (Option.some.inj h)
      exact ⟨rfl, .inr (.inr (.inr (.inl ⟨agentName, agentNetwork, rfl, rfl⟩)))⟩
  | evictLock result =>
      obtain ⟨rfl, -⟩ := Prod.mk.inj (Option.some.inj h)
      exact ⟨rfl, .inr (.inr (.inr (.inr (.inl ⟨result, rfl, rfl⟩))))⟩
  | expireLock snapshot expired =>
      obtain ⟨rfl, -⟩ := Prod.mk.inj (Option.some.inj h)
      exact ⟨rfl, .inr (.inr (.inr (.inr (.inr rfl))))⟩
  | getExpiredLock agentName reservation =>
      obtain ⟨rfl, -⟩ := Prod.mk.inj (Option.some.inj h)
      exact ⟨rfl, .inr (.inr (.inr (.inr (.inr rfl))))⟩
  | returned _ => cases h
  | raised => cases h
  | expireScan snapshot rest expired =>
      cases rest <;>
      · obtain ⟨rfl, -⟩ := Prod.mk.inj (Option.some.inj h)
        exact ⟨rfl, .inl ⟨rfl, rfl, rfl, rfl⟩⟩
  | notify owed result thenEvict =>
      cases owed <;>
      · obtain ⟨rfl, -⟩ := Prod.mk.inj (Option.some.inj h)
        exact ⟨rfl, .inl ⟨rfl, rfl, rfl, rfl⟩⟩
  | _ =>
      -- every other step leaves the four tables alone
      simp only [step] at h
      repeat' split at h
      all_goals
        obtain ⟨rfl, -⟩ := Prod.mk.inj (Option.some.inj h)
        exact ⟨rfl, .inl ⟨rfl, rfl, rfl, rfl⟩⟩

/-- The environment only moves the clock forward. -/
theorem env_world {kind : NetworkKind Name Spec Network} {hasBase : Bool} {t : Time}
    {w w' : World Name Network Time} (h : (storageProgram kind hasBase).env t w = some w') :
    w.clock ≤ t ∧ w' = { w with clock := t } := by
  simp only [storageProgram] at h
  split at h
  · rename_i hle
    exact ⟨hle, (Option.some.inj h).symm⟩
  · cases h

/-- The rule for invariants of the tables: what holds of the empty storage and
is kept by storing an entry, by removing names and by the stamps the run takes
holds of the storage in every configuration reached. -/
theorem storage_invariant {kind : NetworkKind Name Spec Network} {hasBase : Bool} {clock : Time}
    {ok : Answer Name Network Time → World Name Network Time →
      Call Name Spec Network Time → Prop}
    {I : Storage Name Network Time → Prop} (empty : I .empty)
    (sameTables : ∀ s t, SameTables s t → I s → I t)
    (store : ∀ s agentName reservation agentNetwork size now, I s →
      I (s.store agentName reservation agentNetwork size now))
    (touch : ∀ answer w agentName agentNetwork, I w.storage →
      ok answer w (.getTouch agentName agentNetwork) → I (w.storage.touch agentName w.clock))
    (removeAll : ∀ s names, I s → I (s.removeAll names))
    {c : Config (World Name Network Time) (Call Name Spec Network Time)}
    (hr : Program.Reach (storageProgram kind hasBase) ok (initialWorld clock) c) :
    I c.shared.storage := by
  refine Program.Reach.invariant (I := fun w => I w.storage) empty ?_ ?_ hr
  · intro answer w l w' l' hI hok hs
    obtain ⟨-, same | ⟨batch, now, -, heq⟩ | ⟨name, reservation, network, now, -, heq⟩ |
      ⟨name, network, rfl, heq⟩ | ⟨result, -, heq⟩ | heq⟩ := step_storage hs
    · exact sameTables _ _ same hI
    · rw [heq]
      exact Storage.addLoop_invariant kind now
        (fun s name reservation network size => store s name reservation network size now)
        batch _ [] [] hI
    · rw [heq]
      exact store _ _ _ _ _ _ hI
    · rw [heq]
      exact touch answer w name network hI hok
    · rw [heq]
      exact removeAll _ _ hI
    · rw [heq]
      exact removeAll _ _ hI
  · intro t w w' hI he
    rw [(env_world he).2]
    exact hI

end Steps

end NoraFleet.TempNetworks
