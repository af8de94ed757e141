import NoraFleet.Base.Dumps
import NoraFleet.Base.Sweep
import NoraFleet.LocalStore.Files
import NoraFleet.Networks.AgentNetwork
import NoraFleet.Stores.Reservation

/-!
# Reservations in an Azure container

`AzureBlobReservationsWriter` uploads a blob for every reservation, and
`AzureBlobReservationsReader` reads one. `AzureBlobReservationsExpiration` lists
the blobs under a prefix, looks into each, and then deletes those it has found in
batches. `ExpiringAgentNetworkStorage` asks the reader for the networks that it
does not have itself.

How the attempts to upload a blob end is an input of the writer; the other calls
to Azure do not fail.
-/

namespace NoraFleet.AzureStore

open Base Stores Networks

/-- The blobs by their names. -/
abbrev Container := Dict PyStr (List UInt8)

/-! ## The writer -/

/-- How an attempt to upload a blob ends. -/
inductive Attempt where
  | uploaded
  | transientError
  | otherError
  deriving DecidableEq

/-- A reservation with its spec, the time at which it is stored, and how the
attempts to upload it end. -/
structure Upload where
  reservation : Reservation
  agentSpec : List (PyStr × Json)
  storedAt : ℚ
  attempt : Nat → Attempt

/-- `reservation_dict["metadata"]`. -/
def Upload.metadata (upload : Upload) : List (PyStr × Json) :=
  [(str "reservation_id", .str upload.reservation.id),
    (str "lifetime_in_seconds", upload.reservation.lifetimeInSeconds),
    (str "expiration_time_in_seconds", upload.reservation.expirationTimeInSeconds)]

/-- `reservation_dict`. The spec is not in it. -/
def Upload.document (upload : Upload) : Json :=
  .obj (upload.reservation.toDict ++
    [(str "metadata", .obj upload.metadata),
      (str "stored_at", .float (.fin upload.storedAt))])

/-- The name of the blob that is written: the id without its own prefix. -/
def Upload.blobName (keyPrefix : PyStr) (upload : Upload) : PyStr :=
  keyPrefix ++ upload.reservation.id ++ str ".json"

/-- The attempts from the one after `retries` retries on, while there are some
left: whether one of them uploads the blob. -/
def uploads (attempt : Nat → Attempt) : Nat → Nat → Bool
  | 0, _ => false
  | left + 1, retries =>
      match attempt retries with
      | .uploaded => true
      | .transientError => uploads attempt left (retries + 1)
      | .otherError => false

/-- `max_retries`. -/
def maxRetries : Nat := 3

section Writing

variable (room : Nat) (keyPrefix : PyStr)

/-- `add_reservations(reservations_dict)`: the container afterwards, and the
exception. `room` is what `json.dumps` has for nested containers. -/
def addReservations : List Upload → Container → Container × Option PyError
  | [], container => (container, none)
  | upload :: rest, container =>
      match Json.dumps ⟨1, 1, none⟩ room upload.document with
      | .error .valueError => (container, some .valueError)
      | .error .recursionError => (container, some .recursionError)
      | .ok text =>
          match utf8EncodeText text with
          | none => (container, some .valueError)
          | some blobContent =>
              if uploads upload.attempt maxRetries 0 then
                addReservations rest (container.set (upload.blobName keyPrefix) blobContent)
              else (container, some .otherException)

end Writing

/-! ## The reader -/

/-- What a storage returns with a reservation: a network, or metadata. -/
inductive AgentData where
  | network (agentNetwork : AgentNetwork)
  | metadata (metadata : List (PyStr × Json))

section Reading

variable (limit : Nat) (keyPrefix : PyStr)

/-- `faux_dict`. -/
def fauxDict (objKey : PyStr) (metadata : List (PyStr × Json)) : List (PyStr × Json) :=
  [(str "id", (Json.lookup metadata (str "reservation_id")).getD (.str objKey)),
    (str "lifetime_in_seconds",
      (Json.lookup metadata (str "lifetime_in_seconds")).getD (.int 0)),
    (str "expiration_time_in_seconds",
      (Json.lookup metadata (str "expiration_time_in_seconds")).getD (.int 0))]

/-- The rest of `get_one_reservation`, of the content of a blob. Any exception
gives `(None, None)`. -/
def readBlob (objKey : PyStr) (blobContent : List UInt8) :
    Option LocalStore.StoredReservation × Option AgentData :=
  match utf8Decode blobContent with
  | none => (none, none)
  | some text =>
      match Json.loads limit text with
      | .ok (.obj jsonData) =>
          match (Json.lookup jsonData (str "metadata")).getD (.obj []) with
          | .obj metadata =>
              (some (LocalStore.fromDict (fauxDict objKey metadata)), some (.metadata metadata))
          | _ => (none, none)
      | _ => (none, none)

/-- `get_one_reservation(obj_key)`. -/
def getOneReservation (container : Container) (objKey : PyStr) :
    Option LocalStore.StoredReservation × Option AgentData :=
  match container.get? (keyPrefix ++ objKey ++ str ".json") with
  | none => (none, none)
  | some blobContent => readBlob limit objKey blobContent

end Reading

/-! ## The storage that asks the reader -/

/-- The tables of `ExpiringAgentNetworkStorage`. -/
structure Tables where
  agentsTable : Dict PyStr AgentData
  reservationsTable : Dict PyStr LocalStore.StoredReservation
  accessTimes : Dict PyStr ℚ
  sizes : Dict PyStr Nat

/-- `remove_agent_network(agent_name)`. -/
def Tables.removeAgentNetwork (tables : Tables) (agentName : PyStr) : Tables where
  agentsTable := tables.agentsTable.pop agentName
  reservationsTable := tables.reservationsTable.pop agentName
  accessTimes := tables.accessTimes.pop agentName
  sizes := tables.sizes.pop agentName

/-- The four assignments that store a network with its reservation. -/
def Tables.store (tables : Tables) (agentName : PyStr)
    (reservation : LocalStore.StoredReservation) (agentNetwork : AgentData)
    (agentSizeInBytes : Nat) (now : ℚ) : Tables where
  agentsTable := tables.agentsTable.set agentName agentNetwork
  reservationsTable := tables.reservationsTable.set agentName reservation
  accessTimes := tables.accessTimes.set agentName now
  sizes := tables.sizes.set agentName agentSizeInBytes

/-- `agent_network.get_size_in_bytes()`. -/
def sizeInBytes (getSizeInBytes : AgentNetwork → Nat) : AgentData → Except PyError Nat
  | .network agentNetwork => .ok (getSizeInBytes agentNetwork)
  | .metadata _ => .error .attributeError  -- a dictionary has no such method

/-- `get_agent_network_provider(agent_name)`: the tables, and what the provider is
of. The notifications and the eviction that follow are left out. -/
def getAgentNetworkProvider (getSizeInBytes : AgentNetwork → Nat)
    (baseStorage : PyStr → Option LocalStore.StoredReservation × Option AgentData) (now : ℚ)
    (agentName : PyStr) (tables : Tables) : Except PyError (Tables × Option AgentData) :=
  match tables.reservationsTable.get? agentName with
  | some reservation =>
      match LocalStore.nowExceeds now reservation.expirationTimeInSeconds with
      | none => .error .typeError
      | some true => .ok (tables.removeAgentNetwork agentName, none)
      | some false =>
          match tables.agentsTable.get? agentName with
          | none => .ok (tables, none)
          | some agentNetwork =>
              .ok ({ tables with accessTimes := tables.accessTimes.set agentName now },
                some agentNetwork)
  | none =>
      match baseStorage agentName with
      | (none, _) => .ok (tables, none)
      | (some reservation, agentNetwork) =>
          match LocalStore.nowExceeds now reservation.expirationTimeInSeconds with
          | none => .error .typeError
          | some true => .ok (tables, none)
          | some false =>
              match agentNetwork with
              | none => .error .attributeError
              | some agentNetwork =>
                  match sizeInBytes getSizeInBytes agentNetwork with
                  | .error e => .error e
                  | .ok agentSizeInBytes =>
                      .ok (tables.store agentName reservation agentNetwork agentSizeInBytes now,
                        some agentNetwork)

/-! ## The sweep -/

/-- `expiration_time > 0`, of a value that was compared already. -/
def isPositive : Json → Bool
  | .bool b => b
  | .int n => decide (n > 0)
  | .float x => Double.lt (.fin 0) x
  | _ => false

/-- What the scan does with the content of a blob: whether it is to be deleted.
`JSONDecodeError` and `ValueError` are caught, the others escape. -/
def expireOneBlob (limit : Nat) (currentTime : ℚ) (blobContent : List UInt8) :
    Except PyError Bool :=
  match utf8Decode blobContent with
  | none => .ok false
  | some text =>
      match Json.loads limit text with
      | .error .jsonDecodeError => .ok false
      | .error .valueError => .ok false
      | .error .recursionError => .error .recursionError
      | .ok (.obj jsonData) =>
          match (Json.lookup jsonData (str "metadata")).getD (.obj []) with
          | .obj metadata =>
              let expirationTime :=
                (Json.lookup metadata (str "expiration_time_in_seconds")).getD (.int 0)
              match LocalStore.nowExceeds currentTime (some expirationTime) with
              | none => .error .typeError
              | some exceeds => .ok (exceeds && isPositive expirationTime)
          | _ => .error .attributeError
      | .ok _ => .ok false

/-- How many blobs are deleted in one call. -/
def batchSize : Nat := 256

/-- `expire_reservations()`: the container afterwards. -/
def expireReservations (limit : Nat) (keyPrefix : PyStr) (currentTime : ℚ)
    (container : Container) : Except PyError Container :=
  match Sweep.collect (expireOneBlob limit currentTime) container
      (container.keys.filter fun blobName => keyPrefix.isPrefixOf blobName) with
  | .error e => .error e
  | .ok blobsToDelete =>
      .ok ((Sweep.batches batchSize blobsToDelete).foldl Dict.popAll container)

end NoraFleet.AzureStore
