import Mathlib
import NoraFleet.TempNetworks.Blocks

/-!
# Servers that share a storage of reservations

Any number of servers, each with tables, a lock and a clock of its own, have one base storage
between them. A deployment writes its entries there first and then into the tables of its server; a
lookup of another server finds them there and caches them. Each server sweeps the base storage for
what has expired by its own clock. The servers know nothing of one another.

A lookup has a history: when it began and by then was there, and what went wrong since.

* `fleetStep` — one atomic step of a call of some server;
* `fleetProgram` — any number of calls of any number of servers.
-/

namespace NoraFleet.TempNetworks

open Base Base.Program

/-- What the servers share: the place that the base storage has for an id, the one deployment that
an id ever stands for, and the network that a reader makes of it, if it can. -/
structure SharedStore (Name Key Spec Network Time : Type*)
    extends NetworkKind Name Spec Network where
  key : Name → Option Key
  contents : Key → Option (Reservation Name Time × Spec)
  readBack : Reservation Name Time → Spec → Option Network

/-- The servers and the base storage. What was ever stored, and what each server evicted, are there
for the record. -/
structure Fleet (Server Name Key Spec Network Time : Type*) where
  worlds : Server → World Name Network Time
  locks : Server → Option (Block Name)
  base : Key → Option (Reservation Name Time × Spec)
  stored : List Key
  evictions : List (Server × Name)

/-- A lookup with its history: the clock as it began, whether the name was stored by then, the
evictions until then, and whether the base storage has failed it or it met a name half cached. -/
structure Lookup (Name Time : Type*) where
  agentName : Name
  began : Time
  known : Bool
  evicted : Nat
  failed : Bool
  halfCached : Bool

section Model

variable {Server Name Key Spec Network Time : Type*}

/-- The deployment that a name stands for. -/
def SharedStore.deployment (store : SharedStore Name Key Spec Network Time) (agentName : Name) :
    Option (Reservation Name Time × Spec) :=
  (store.key agentName).bind store.contents

/-- What is deployed at once: each id with the deployment it stands for. -/
structure Batch (store : SharedStore Name Key Spec Network Time) where
  reservationsDict : List (Reservation Name Time × Spec)
  made : ∀ entry ∈ reservationsDict, store.deployment entry.1.id = some entry

/-- What a call of a server's storage is for. -/
inductive Purpose (store : SharedStore Name Key Spec Network Time) where
  | deploy (batch : Batch store)
  | lookUp (lookup : Lookup Name Time)
  | upkeep

/-- What the servers are asked for. -/
inductive FleetOp (Server : Type*) (store : SharedStore Name Key Spec Network Time) where
  | addReservations (server : Server) (batch : Batch store)
  | getAgentNetworkProvider (server : Server) (agentName : Name)
  | expireReservations (server : Server)
  | evictLruAgentNetworks (server : Server)
  | setMaxAgentNetworks (server : Server) (maxItems : ℤ)
  -- the base storage of a server sweeps on its own
  | expireBase (server : Server)

/-- The control point of a call of some server. -/
inductive FleetCall (Server : Type*) (store : SharedStore Name Key Spec Network Time) where
  | asked (server : Server) (agentName : Name)
  -- with the entries that are still to be written to the base storage
  | serving (server : Server) (purpose : Purpose store)
      (unwritten : List (Reservation Name Time × Spec)) (call : Call Name Spec Network Time)
  -- within a locked block, with the writes that are left and where the call goes then
  | inside (server : Server) (purpose : Purpose store) (writes : List (Write Name Network Time))
      (next : Call Name Spec Network Time)
  -- get_one_reservation of the base storage, with what it read
  | reading (server : Server) (lookup : Lookup Name Time)
      (found : Option (Reservation Name Time × Spec))
  -- expire_reservations of the base storage
  | sweep (server : Server)
  | sweeping (server : Server) (currentTime : Time)
  | deleting (server : Server) (currentTime : Time) (key : Key)
  | swept

/-- How a step turns out: as it should, with the write of an entry, with the next file of a sweep,
or the base storage raises or finds nothing. -/
inductive FleetChoice (Key : Type*) where
  | go
  | write (i : ℕ)
  | file (key : Key)
  | fails (raises : Bool)

/-- The server whose lock a call holds. -/
def FleetCall.holds {store : SharedStore Name Key Spec Network Time} :
    FleetCall Server store → Option Server
  | .inside server _ _ _ => some server
  | _ => none

/-- A lookup that the base storage has failed. -/
def Purpose.failing {store : SharedStore Name Key Spec Network Time} : Purpose store → Purpose store
  | .lookUp lookup => .lookUp { lookup with failed := true }
  | purpose => purpose

/-- A lookup that may meet a name half cached. -/
def Purpose.meeting {store : SharedStore Name Key Spec Network Time} (half : Bool) :
    Purpose store → Purpose store
  | .lookUp lookup => .lookUp { lookup with halfCached := lookup.halfCached || half }
  | purpose => purpose

section Steps

variable [DecidableEq Server] [DecidableEq Name] [DecidableEq Key] [LinearOrder Time]
  {store : SharedStore Name Key Spec Network Time}

/-- Where each call starts. -/
def fleetStart : FleetOp Server store → FleetCall Server store
  | .addReservations server batch =>
      .serving server (.deploy batch) batch.reservationsDict
        (start (.addReservations batch.reservationsDict))
  | .getAgentNetworkProvider server agentName => .asked server agentName
  | .expireReservations server => .serving server .upkeep [] (start .expireReservations)
  | .evictLruAgentNetworks server => .serving server .upkeep [] (start .evictLruAgentNetworks)
  | .setMaxAgentNetworks server maxItems =>
      .serving server .upkeep [] (start (.setMaxAgentNetworks maxItems))
  | .expireBase server => .sweep server

/-- The fleet after something happened to the tables or the clock of a server. -/
def Fleet.setWorld (s : Fleet Server Name Key Spec Network Time) (server : Server)
    (w : World Name Network Time) : Fleet Server Name Key Spec Network Time :=
  { s with worlds := Function.update s.worlds server w }

/-- A step that takes no part of the fleet but its server. -/
def proceed (s : Fleet Server Name Key Spec Network Time) (server : Server)
    (purpose : Purpose store) (unwritten : List (Reservation Name Time × Spec))
    (answer : Answer Name Network Time) (call : Call Name Spec Network Time) :
    Option (Fleet Server Name Key Spec Network Time × FleetCall Server store) :=
  (step store.toNetworkKind true answer (s.worlds server) call).map fun next =>
    (s.setWorld server next.1, .serving server purpose unwritten next.2)

/-- `with self.lock`, by the block that follows. -/
def enter (s : Fleet Server Name Key Spec Network Time) (server : Server) (purpose : Purpose store)
    (block : Block Name) (writes : List (Write Name Network Time))
    (call : Call Name Spec Network Time) :
    Option (Fleet Server Name Key Spec Network Time × FleetCall Server store) :=
  if s.locks server = none then
    (step store.toNetworkKind true ⟨false, none⟩ (s.worlds server) call).map fun next =>
      ({ s with locks := Function.update s.locks server (some block) },
        .inside server purpose writes next.2)
  else none

/-- A step that only its server has a part in: into a locked block, or outside of them. -/
def takeStep (s : Fleet Server Name Key Spec Network Time) (server : Server)
    (purpose : Purpose store) (unwritten : List (Reservation Name Time × Spec))
    (call : Call Name Spec Network Time) :
    Option (Fleet Server Name Key Spec Network Time × FleetCall Server store) :=
  match blockOf store.toNetworkKind (s.worlds server) call with
  | some (block, writes) => enter s server purpose block writes call
  | none => proceed s server purpose unwritten ⟨false, none⟩ call

/-- One of the writes that `add_reservations` of the base storage gathers. They go on when one of
them has raised. -/
def writeOne (s : Fleet Server Name Key Spec Network Time) (server : Server)
    (purpose : Purpose store) (unwritten : List (Reservation Name Time × Spec)) (i : ℕ)
    (call : Call Name Spec Network Time) :
    Option (Fleet Server Name Key Spec Network Time × FleetCall Server store) :=
  match unwritten[i]? with
  | none => none
  | some entry =>
      (store.key entry.1.id).map fun key =>
        ({ s with base := Function.update s.base key (some entry), stored := s.stored ++ [key] },
          .serving server purpose (unwritten.eraseIdx i) call)

/-- What `get_one_reservation` makes of what it read, at the time `time.time()` gives. -/
def oneReservation (store : SharedStore Name Key Spec Network Time) (now : Time)
    (found : Option (Reservation Name Time × Spec)) : Option (Reservation Name Time × Network) :=
  match found with
  | none => none
  | some (reservation, agentSpec) =>
      if Storage.isExpired now reservation then none
      else (store.readBack reservation agentSpec).map fun agentNetwork =>
        (reservation, agentNetwork)

/-- One step of a call of a server's storage. -/
def serve (choice : FleetChoice Key) (s : Fleet Server Name Key Spec Network Time)
    (server : Server) (purpose : Purpose store)
    (unwritten : List (Reservation Name Time × Spec)) :
    Call Name Spec Network Time →
      Option (Fleet Server Name Key Spec Network Time × FleetCall Server store)
  | .addBase reservationsDict =>
      match choice with
      -- what all of them give is there when all of them are
      | .go =>
          if unwritten.isEmpty then
            proceed s server purpose unwritten ⟨false, none⟩ (.addBase reservationsDict)
          else none
      | .fails _ => proceed s server purpose unwritten ⟨true, none⟩ (.addBase reservationsDict)
      | .write i => writeOne s server purpose unwritten i (.addBase reservationsDict)
      | .file _ => none
  | .raised =>
      match choice with
      | .write i => writeOne s server purpose unwritten i .raised
      | _ => none
  | .getBase agentName =>
      match choice, purpose with
      | .go, .lookUp lookup =>
          some (s, .reading server lookup ((store.key agentName).bind s.base))
      | .fails raises, purpose =>
          proceed s server purpose.failing unwritten ⟨raises, none⟩ (.getBase agentName)
      | _, _ => none
  | .getNetwork agentName =>
      proceed s server (purpose.meeting (s.locks server = some (.caching agentName))) unwritten
        ⟨false, none⟩ (.getNetwork agentName)
  -- the copy is made under the lock
  | .expireSnapshot =>
      if s.locks server = none then
        proceed s server purpose unwritten ⟨false, none⟩ .expireSnapshot
      else none
  | call => takeStep s server purpose unwritten call

/-- A lookup as it begins. -/
def beginning (store : SharedStore Name Key Spec Network Time)
    (s : Fleet Server Name Key Spec Network Time) (server : Server) (agentName : Name) :
    Lookup Name Time where
  agentName := agentName
  began := (s.worlds server).clock
  known := (store.key agentName).any fun key => s.stored.contains key
  evicted := s.evictions.length
  failed := false
  halfCached := false

/-- What a write evicts. -/
def Write.evicts (server : Server) (lock : Option (Block Name)) :
    Write Name Network Time → List (Server × Name)
  | .popAgent agentName => if lock = some .evicting then [(server, agentName)] else []
  | _ => []

/-- One atomic step of a call of some server. -/
def fleetStep (choice : FleetChoice Key) (s : Fleet Server Name Key Spec Network Time) :
    FleetCall Server store →
      Option (Fleet Server Name Key Spec Network Time × FleetCall Server store)
  | .asked server agentName =>
      proceed s server (.lookUp (beginning store s server agentName)) [] ⟨false, none⟩
        (.getReservation agentName)
  | .serving server purpose unwritten call => serve choice s server purpose unwritten call
  | .inside server purpose (write :: rest) next =>
      let w := s.worlds server
      let s' := s.setWorld server { w with storage := write.apply w.storage }
      some ({ s' with evictions := s.evictions ++ write.evicts server (s.locks server) },
        .inside server purpose rest next)
  | .inside server purpose [] next =>
      some ({ s with locks := Function.update s.locks server none },
        .serving server purpose [] next)
  | .reading server lookup found =>
      proceed s server (.lookUp lookup) []
        ⟨false, oneReservation store (s.worlds server).clock found⟩ (.getBase lookup.agentName)
  | .sweep server => some (s, .sweeping server (s.worlds server).clock)
  | .sweeping server currentTime =>
      match choice with
      | .go => some (s, .swept)
      | .file key =>
          match s.base key with
          | none => some (s, .sweeping server currentTime)
          | some (reservation, _) =>
              if Storage.isExpired currentTime reservation then
                some (s, .deleting server currentTime key)
              else some (s, .sweeping server currentTime)
      | _ => none
  | .deleting server currentTime key =>
      match choice with
      | .go =>
          some ({ s with base := Function.update s.base key none },
            .sweeping server currentTime)
      | .fails _ => some (s, .sweeping server currentTime)
      | _ => none
  | .swept => none

variable (Server) in
/-- Any number of calls of any number of servers, against clocks that never go back. -/
def fleetProgram (store : SharedStore Name Key Spec Network Time) :
    Program (Fleet Server Name Key Spec Network Time) (FleetOp Server store)
      (FleetCall Server store) (FleetChoice Key) (Server × Time) where
  start := fleetStart
  step := fleetStep
  env tick s :=
    if (s.worlds tick.1).clock ≤ tick.2 then
      some (s.setWorld tick.1 { s.worlds tick.1 with clock := tick.2 })
    else none

/-- The servers as they start, over an empty base storage. -/
def initialFleet (clocks : Server → Time) : Fleet Server Name Key Spec Network Time :=
  ⟨fun server => initialWorld (clocks server), fun _ => none, fun _ => none, [], []⟩

end Steps

end Model

end NoraFleet.TempNetworks
