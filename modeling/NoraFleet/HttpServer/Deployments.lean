import NoraFleet.Base.Runs
import NoraFleet.HttpServer.AllowedAgents
import NoraFleet.TempNetworks.Storage

/-!
# Temporary networks on a server

The server listens to the temporary-network storage. When it is told that an
agent was added it asks the storage back for a network provider, which looks the
reservation up, and may find that it has expired. Requests are answered from the
server's own table; only for a name that is not in it the storage is asked.

The operations run one after the other. When every network was last used, and
what the evictions did, is recorded beside the tables.
-/

namespace NoraFleet.HttpServer

open Base TempNetworks

/-- An eviction: the names that went, those that stayed, and when each was last
used. -/
structure Eviction (Name Time : Type*) where
  evicted : List Name
  kept : List Name
  lastUsed : Dict Name Time

/-- The storage and the server's table. A network is used when it is deployed or
loaded, which ends when the server has asked back for it, and when a request is
answered with it. -/
structure Server (Name Network Time : Type*) where
  storage : Storage Name Network Time
  allowedAgents : AllowedAgents Name Network
  lastUsed : Dict Name Time
  evictions : List (Eviction Name Time)

/-- What the clock reads during an operation: at first, and when the server asks
back for a network. -/
structure Clock (Name Time : Type*) where
  now : Time
  askedBack : Name → Time

/-- The operations. What the base storage does is part of them: whether its
`add_reservations` raises, and what its `get_one_reservation` finds. -/
inductive Operation (Name Spec Network Time : Type*) where
  | addReservations (reservationsDict : List (Reservation Name Time × Spec)) (baseRaises : Bool)
  | expireReservations
  | getAgentNetworkProvider (agentName : Name) (found : Option (Reservation Name Time × Network))
  | getService (agentName : Name) (isAuthorized : Bool)
      (found : Option (Reservation Name Time × Network))

namespace Server

variable {Name Spec Network Time : Type*} [DecidableEq Name] [LinearOrder Time]

/-- The server before any deployment, with the limit of the storage. -/
def initial (maxItems : Int) (itemsOverflowThreshold : Nat) : Server Name Network Time where
  storage := { Storage.empty with
    maxItems := maxItems, itemsOverflowThreshold := itemsOverflowThreshold }
  allowedAgents := .empty
  lastUsed := .empty
  evictions := []

/-- The network goes from the storage, and the server is told. -/
def removeAgent (s : Server Name Network Time) (agentName : Name) : Server Name Network Time :=
  { s with
    storage := s.storage.removeAgentNetwork agentName
    allowedAgents := s.allowedAgents.agentRemoved agentName }

/-- `get_agent_network_provider` of a name that has a reservation: the network
of the provider. -/
def provideReserved (now : Time) (agentName : Name) (reservation : Reservation Name Time)
    (s : Server Name Network Time) : Server Name Network Time × Option Network :=
  if Storage.isExpired now reservation then (s.removeAgent agentName, none)
  else
    match s.storage.agentsTable.get? agentName with
    | none => (s, none)
    | some agentNetwork =>
        ({ s with
          storage := s.storage.touch agentName now
          lastUsed := s.lastUsed.set agentName now }, some agentNetwork)

/-- `agent_added(agent_name, source)`: the server asks the storage back. It was
just stored with its reservation, so the base storage is not asked. -/
def agentAdded (clock : Clock Name Time) (s : Server Name Network Time) (agentName : Name) :
    Server Name Network Time :=
  match s.storage.reservationsTable.get? agentName with
  | none => s
  | some reservation =>
      let (s, agentNetwork) := s.provideReserved (clock.askedBack agentName) agentName reservation
      { s with
        allowedAgents := s.allowedAgents.agentAdded agentName (agentNetwork.map .fixed) }

/-- `agent_modified(agent_name, source)`. -/
def agentModified (s : Server Name Network Time) (agentName : Name) : Server Name Network Time :=
  { s with allowedAgents := s.allowedAgents.agentModified agentName }

/-- `evict_lru_agent_networks()`. -/
def evictLruAgentNetworks (s : Server Name Network Time) : Server Name Network Time :=
  if s.storage.maxItems ≤ 0 then s
  else
    let evicted := s.storage.lruOverflow
    let storage := s.storage.removeAll evicted
    { s with
      storage := storage
      allowedAgents := s.allowedAgents.popAll evicted
      evictions := s.evictions ++ [⟨evicted, storage.agentsTable.keys, s.lastUsed⟩] }

/-- The names that a batch stores: up to the first entry whose `AgentNetwork(...)`
raises. -/
def storedNames (kind : NetworkKind Name Spec Network)
    (reservationsDict : List (Reservation Name Time × Spec)) : List Name :=
  (reservationsDict.takeWhile fun entry =>
    (kind.agentNetwork entry.2 entry.1.id).isSome).map fun entry => entry.1.id

omit [DecidableEq Name] [LinearOrder Time] in
/-- The entry whose `AgentNetwork(...)` raises ends the names. -/
theorem storedNames_raise {kind : NetworkKind Name Spec Network}
    {reservation : Reservation Name Time} {agentSpec : Spec}
    (h : kind.agentNetwork agentSpec reservation.id = none)
    (rest : List (Reservation Name Time × Spec)) :
    storedNames kind ((reservation, agentSpec) :: rest) = [] := by
  unfold storedNames
  rw [List.takeWhile_cons, if_neg (by simp [h])]
  rfl

omit [DecidableEq Name] [LinearOrder Time] in
/-- An entry that is stored is one more name. -/
theorem storedNames_store {kind : NetworkKind Name Spec Network}
    {reservation : Reservation Name Time} {agentSpec : Spec} {agentNetwork : Network}
    (h : kind.agentNetwork agentSpec reservation.id = some agentNetwork)
    (rest : List (Reservation Name Time × Spec)) :
    storedNames kind ((reservation, agentSpec) :: rest) =
      reservation.id :: storedNames kind rest := by
  unfold storedNames
  rw [List.takeWhile_cons, if_pos (by simp [h]), List.map_cons]

/-- `add_reservations(reservations_dict)`. A raising `AgentNetwork(...)` leaves it
before anybody is told. -/
def addReservations (kind : NetworkKind Name Spec Network) (clock : Clock Name Time)
    (reservationsDict : List (Reservation Name Time × Spec)) (baseRaises : Bool)
    (s : Server Name Network Time) : Server Name Network Time :=
  if reservationsDict.isEmpty || baseRaises then s
  else
    let result := s.storage.addReservationsLocked kind clock.now reservationsDict
    let s := { s with
      storage := result.storage
      lastUsed := (storedNames kind reservationsDict).foldl
        (fun lastUsed agentName => lastUsed.set agentName clock.now) s.lastUsed }
    if result.raised then s
    else
      let s := result.added.foldl (agentAdded clock) s
      let s := result.replaced.foldl agentModified s
      s.evictLruAgentNetworks

/-- `expire_reservations()`. -/
def expireReservations (now : Time) (s : Server Name Network Time) : Server Name Network Time :=
  let expired := (s.storage.reservationsTable.items.filter fun entry =>
    Storage.isExpired now entry.2).map Prod.fst
  { s with
    storage := s.storage.removeAll expired
    allowedAgents := s.allowedAgents.popAll expired }

/-- `get_agent_network_provider(agent_name)`: the network of the provider. -/
def getAgentNetworkProvider (kind : NetworkKind Name Spec Network) (clock : Clock Name Time)
    (agentName : Name) (found : Option (Reservation Name Time × Network))
    (s : Server Name Network Time) : Server Name Network Time × Option Network :=
  match s.storage.reservationsTable.get? agentName with
  | some reservation => s.provideReserved clock.now agentName reservation
  | none =>
      match found with
      | none => (s, none)
      | some (reservation, agentNetwork) =>
          if Storage.isExpired clock.now reservation then (s, none)
          else
            let s := { s with
              storage := s.storage.store agentName reservation agentNetwork
                (kind.getSizeInBytes agentNetwork) clock.now
              lastUsed := s.lastUsed.set agentName clock.now }
            let s := s.agentAdded clock agentName
            (s.evictLruAgentNetworks, some agentNetwork)

/-- A request is answered with the service of a name in the server's table. -/
def answer (now : Time) (agentName : Name) (provider : ServiceProvider Name Network)
    (s : Server Name Network Time) : Server Name Network Time :=
  { s with
    allowedAgents := s.allowedAgents.set agentName provider.getService.2
    lastUsed := s.lastUsed.set agentName now }

/-- `get_service(agent_name, metadata)` of a request handler. What it loads from
the base storage it has used at the time of that. -/
def getService (kind : NetworkKind Name Spec Network) (isReservationName : Name → Bool)
    (clock : Clock Name Time) (agentName : Name) (isAuthorized : Bool)
    (found : Option (Reservation Name Time × Network)) (s : Server Name Network Time) :
    Server Name Network Time :=
  if isAuthorized = false then s
  else
    match s.allowedAgents.get? agentName with
    | some provider => s.answer clock.now agentName provider
    | none =>
        if isReservationName agentName then
          match s.getAgentNetworkProvider kind clock agentName found with
          | (s, none) => s
          | (s, some _) =>
              match s.allowedAgents.get? agentName with
              | none => s
              | some provider =>
                  { s with
                    allowedAgents := s.allowedAgents.set agentName provider.getService.2 }
        else s

/-- One operation. -/
def exec (kind : NetworkKind Name Spec Network) (isReservationName : Name → Bool) :
    Clock Name Time × Operation Name Spec Network Time → Server Name Network Time →
      Server Name Network Time
  | (clock, .addReservations reservationsDict baseRaises), s =>
      s.addReservations kind clock reservationsDict baseRaises
  | (clock, .expireReservations), s => s.expireReservations clock.now
  | (clock, .getAgentNetworkProvider agentName found), s =>
      (s.getAgentNetworkProvider kind clock agentName found).1
  | (clock, .getService agentName isAuthorized found), s =>
      s.getService kind isReservationName clock agentName isAuthorized found

/-! ## Small servers -/

/-- Networks are the numbers that describe them. -/
def numbered : NetworkKind String ℕ ℕ where
  agentNetwork agentSpec _ := some agentSpec
  getSizeInBytes _ := 0

/-- Deploys a network for a hundred seconds. -/
def deploy (agentName : String) (now agentSpec : ℕ) :
    Clock String ℕ × Operation String ℕ ℕ ℕ :=
  (⟨now, fun _ => now⟩,
    .addReservations [(⟨agentName, 100, now + 100⟩, agentSpec)] false)

/-- A small server after some operations. -/
def served (maxItems : Int) (itemsOverflowThreshold : ℕ)
    (ops : List (Clock String ℕ × Operation String ℕ ℕ ℕ)) : Server String ℕ ℕ :=
  ops.foldl (fun s op => Server.exec numbered (fun _ => true) op s)
    (initial maxItems itemsOverflowThreshold)

end Server

end NoraFleet.HttpServer
