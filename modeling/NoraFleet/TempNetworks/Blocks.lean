import Mathlib
import NoraFleet.TempNetworks.Calls

/-!
# Locked blocks, write by write

A locked block keeps the other writers of a storage out, but not `get_agent_network_provider`, which
reads the tables without the lock. What it finds in the middle of a block depends on the order of
the writes: an addition sets the network before the reservation, a lookup that caches what the base
storage gave it sets the reservation before the network, and a removal takes the reservation first.

* `blockOf_spec` — a block whose writes are all done has done what it does in one step;
* `sameTables_of_blockOf` — outside of the blocks no step writes to a table.
-/

namespace NoraFleet.TempNetworks

open Base

variable {Name Spec Network Time : Type*}

/-- One write to one table. -/
inductive Write (Name Network Time : Type*) where
  | setAgent (agentName : Name) (agentNetwork : Network)
  | setReservation (agentName : Name) (reservation : Reservation Name Time)
  | setAccessTime (agentName : Name) (now : Time)
  | setSize (agentName : Name) (agentSizeInBytes : Nat)
  | popReservation (agentName : Name)
  | popAgent (agentName : Name)
  | popAccessTime (agentName : Name)
  | popSize (agentName : Name)
  deriving DecidableEq

/-- What a lock is held for. -/
inductive Block (Name : Type*) where
  | updating
  | caching (agentName : Name)
  | evicting
  deriving DecidableEq

section Writes

variable [DecidableEq Name]

/-- A write is done. -/
def Write.apply (s : Storage Name Network Time) :
    Write Name Network Time → Storage Name Network Time
  | .setAgent agentName agentNetwork =>
      { s with agentsTable := s.agentsTable.set agentName agentNetwork }
  | .setReservation agentName reservation =>
      { s with reservationsTable := s.reservationsTable.set agentName reservation }
  | .setAccessTime agentName now => { s with accessTimes := s.accessTimes.set agentName now }
  | .setSize agentName agentSizeInBytes =>
      { s with sizes := s.sizes.set agentName agentSizeInBytes }
  | .popReservation agentName =>
      { s with reservationsTable := s.reservationsTable.pop agentName }
  | .popAgent agentName => { s with agentsTable := s.agentsTable.pop agentName }
  | .popAccessTime agentName => { s with accessTimes := s.accessTimes.pop agentName }
  | .popSize agentName => { s with sizes := s.sizes.pop agentName }

end Writes

/-- The writes of `add_reservations` for one entry. -/
def storeWrites (agentName : Name) (reservation : Reservation Name Time) (agentNetwork : Network)
    (agentSizeInBytes : Nat) (now : Time) : List (Write Name Network Time) :=
  [.setAgent agentName agentNetwork, .setReservation agentName reservation,
    .setAccessTime agentName now, .setSize agentName agentSizeInBytes]

/-- The writes of `get_agent_network_provider` for what the base storage gave it. -/
def cacheWrites (agentName : Name) (reservation : Reservation Name Time) (agentNetwork : Network)
    (agentSizeInBytes : Nat) (now : Time) : List (Write Name Network Time) :=
  [.setReservation agentName reservation, .setAgent agentName agentNetwork,
    .setAccessTime agentName now, .setSize agentName agentSizeInBytes]

/-- The writes of `remove_agent_network`. -/
def removeWrites (agentName : Name) : List (Write Name Network Time) :=
  [.popReservation agentName, .popAgent agentName, .popAccessTime agentName, .popSize agentName]

/-- The writes of `add_reservations`, up to the entry whose `AgentNetwork(...)` raises. -/
def addWrites (kind : NetworkKind Name Spec Network) (now : Time) :
    List (Reservation Name Time × Spec) → List (Write Name Network Time)
  | [] => []
  | (reservation, agentSpec) :: rest =>
      match kind.agentNetwork agentSpec reservation.id with
      | none => []
      | some agentNetwork =>
          storeWrites reservation.id reservation agentNetwork
            (kind.getSizeInBytes agentNetwork) now ++ addWrites kind now rest

section Blocks

variable [DecidableEq Name] [LinearOrder Time]

/-- The locked block that a call is about to enter, with its writes in their order. -/
def blockOf (kind : NetworkKind Name Spec Network) (w : World Name Network Time) :
    Call Name Spec Network Time → Option (Block Name × List (Write Name Network Time))
  | .addLock reservationsDict now => some (.updating, addWrites kind now reservationsDict)
  | .expireLock _ expired => some (.updating, expired.flatMap removeWrites)
  | .getExpiredLock agentName _ => some (.updating, removeWrites agentName)
  | .getTouch agentName _ => some (.updating, [.setAccessTime agentName w.clock])
  | .getBaseLock agentName reservation agentNetwork now =>
      some (.caching agentName, cacheWrites agentName reservation agentNetwork
        (kind.getSizeInBytes agentNetwork) now)
  | .evictLock _ => some (.evicting, w.storage.lruOverflow.flatMap removeWrites)
  | _ => none

omit [LinearOrder Time] in
theorem foldl_removeWrites (names : List Name) (s : Storage Name Network Time) :
    (names.flatMap removeWrites).foldl Write.apply s = s.removeAll names := by
  induction names generalizing s with
  | nil => rfl
  | cons name rest ih =>
      rw [List.flatMap_cons, List.foldl_append]
      exact ih (s.removeAgentNetwork name)

omit [LinearOrder Time] in
theorem foldl_addWrites (kind : NetworkKind Name Spec Network) (now : Time)
    (batch : List (Reservation Name Time × Spec)) (s : Storage Name Network Time)
    (added replaced : List Name) :
    (addWrites kind now batch).foldl Write.apply s =
      (Storage.addLoop kind now batch s added replaced).storage := by
  induction batch generalizing s added replaced with
  | nil => rfl
  | cons entry rest ih =>
      obtain ⟨reservation, agentSpec⟩ := entry
      unfold addWrites
      cases hnet : kind.agentNetwork agentSpec reservation.id with
      | none =>
          rw [Storage.addLoop_raise kind now hnet]
          rfl
      | some agentNetwork =>
          rw [Storage.addLoop_store kind now hnet]
          dsimp only
          rw [List.foldl_append]
          exact ih _ _ _

/-- A block whose writes are all done has done what it does in one step. -/
theorem blockOf_spec {kind : NetworkKind Name Spec Network} {w : World Name Network Time}
    {call : Call Name Spec Network Time} {block : Block Name}
    {writes : List (Write Name Network Time)} (h : blockOf kind w call = some (block, writes))
    (hasBase : Bool) (answer : Answer Name Network Time) :
    ∃ next, step kind hasBase answer w call =
      some ({ w with storage := writes.foldl Write.apply w.storage }, next) := by
  cases call with
  | addLock reservationsDict now =>
      obtain ⟨-, rfl⟩ := Prod.mk.inj (Option.some.inj h)
      rw [foldl_addWrites kind now reservationsDict w.storage [] []]
      exact ⟨_, rfl⟩
  | expireLock snapshot expired =>
      obtain ⟨-, rfl⟩ := Prod.mk.inj (Option.some.inj h)
      rw [foldl_removeWrites]
      exact ⟨_, rfl⟩
  | evictLock result =>
      obtain ⟨-, rfl⟩ := Prod.mk.inj (Option.some.inj h)
      rw [foldl_removeWrites]
      exact ⟨_, rfl⟩
  | getExpiredLock agentName reservation =>
      obtain ⟨-, rfl⟩ := Prod.mk.inj (Option.some.inj h)
      exact ⟨_, rfl⟩
  | getTouch agentName agentNetwork =>
      obtain ⟨-, rfl⟩ := Prod.mk.inj (Option.some.inj h)
      exact ⟨_, rfl⟩
  | getBaseLock agentName reservation agentNetwork now =>
      obtain ⟨-, rfl⟩ := Prod.mk.inj (Option.some.inj h)
      exact ⟨_, rfl⟩
  | _ => cases h

/-- Outside of the blocks no step writes to a table. -/
theorem sameTables_of_blockOf {kind : NetworkKind Name Spec Network} {hasBase : Bool}
    {answer : Answer Name Network Time} {w w' : World Name Network Time}
    {call call' : Call Name Spec Network Time} (h : blockOf kind w call = none)
    (hs : step kind hasBase answer w call = some (w', call')) :
    SameTables w.storage w'.storage := by
  obtain ⟨-, same | ⟨batch, now, rfl, -⟩ | ⟨name, reservation, network, now, rfl, -⟩ |
    ⟨name, network, rfl, -⟩ | ⟨result, rfl, -⟩ | heq⟩ := step_storage hs
  · exact same
  · cases h
  · cases h
  · cases h
  · cases h
  · -- only the blocks of names found expired remove any
    rw [heq]
    cases call with
    | expireLock snapshot expired => cases h
    | getExpiredLock agentName reservation => cases h
    | _ => exact ⟨rfl, rfl, rfl, rfl⟩

end Blocks

end NoraFleet.TempNetworks
