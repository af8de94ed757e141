import NoraFleet.LocalStore.Writing
import NoraFleet.S3Store.Expiration

/-!
# Writing and reading one reservation in an S3 bucket

`S3ReservationsWriter.add_one_reservation` puts the reservation into the metadata
of the caller's own spec and stores the spec under the key of the id.
`S3ReservationsReader.get_one_reservation` reads the object under that key.

How the call of `put_object` ends is an input of the writer.

* `updateSpec_eq` — the spec that is stored is the one the local store writes,
  unless its metadata have no `update`;
* `extractReservationData_eq` — what is read of the metadata of a document.
-/

namespace NoraFleet.S3Store

open Base Stores Networks

/-- `get_obj_key_for_reservation(prefix, reservation_id)`. -/
def getObjKeyForReservation (keyPrefix reservationId : PyStr) : PyStr :=
  keyPrefix ++ reservationId ++ str ".json"

/-! ## The writer -/

/-- `metadata.update(new_metadata)`. -/
def updateMetadata (currentTime : ℚ) (reservation : Reservation)
    (metadata : List (PyStr × Json)) : List (PyStr × Json) :=
  Dict.setItems
    (Dict.setItems metadata (str "reservation") (.obj reservation.toDict))
    (str "stored_at") (.float (.fin currentTime))

/-- What the update of its metadata makes of the caller's spec; `none` if the
metadata have no `update`. -/
def updateSpec (currentTime : ℚ) (reservation : Reservation)
    (agentSpec : List (PyStr × Json)) : Option (List (PyStr × Json)) :=
  match Json.lookup agentSpec (str "metadata") with
  | none | some .null =>
      some (Dict.setItems agentSpec (str "metadata")
        (.obj (updateMetadata currentTime reservation [])))
  | some (.obj metadata) =>
      some (Dict.setItems agentSpec (str "metadata")
        (.obj (updateMetadata currentTime reservation metadata)))
  | some _ => none

/-- What the writer leaves: the caller's spec, and the key and the text it has
stored, or the exception. -/
structure Added where
  agentSpec : List (PyStr × Json)
  outcome : Except PyError (PyStr × PyStr)

/-- `add_one_reservation(reservation, agent_spec)`. `room` is what `json.dumps`
has for nested containers, and `put` the exception of `put_object`, if it raises
one. -/
def addOneReservation (room : Nat) (put : Option PyError) (keyPrefix : PyStr) (currentTime : ℚ)
    (reservation : Reservation) (agentSpec : List (PyStr × Json)) : Added :=
  match updateSpec currentTime reservation agentSpec with
  | none => ⟨agentSpec, .error .attributeError⟩
  | some agentSpec =>
      let key := getObjKeyForReservation keyPrefix reservation.getReservationId
      match Json.dumps (.indented 4) room (.obj agentSpec) with
      | .error .valueError => ⟨agentSpec, .error .valueError⟩
      | .error .recursionError => ⟨agentSpec, .error .recursionError⟩
      | .ok jsonBody =>
          match put with
          | some e => ⟨agentSpec, .error e⟩
          | none => ⟨agentSpec, .ok (key, jsonBody)⟩

/-- Whether the metadata are missing, or have an `update`. -/
def hasUpdate (agentSpec : List (PyStr × Json)) : Bool :=
  match Json.lookup agentSpec (str "metadata") with
  | none | some .null | some (.obj _) => true
  | some _ => false

/-- A dictionary; anything else counts as an empty one. -/
def dictOrEmpty : Option Json → List (PyStr × Json)
  | some (.obj members) => members
  | _ => []

/-- The metadata that the local store starts from. -/
theorem existingMetadata_eq (agentSpec : List (PyStr × Json)) :
    LocalStore.existingMetadata agentSpec =
      dictOrEmpty (Json.lookup agentSpec (str "metadata")) := by
  unfold LocalStore.existingMetadata LocalStore.getOrEmpty
  cases Json.lookup agentSpec (str "metadata") with
  | none => rfl
  | some v =>
      dsimp only
      cases htruthy : v.truthy with
      | false =>
          cases v with
          | obj metadata =>
              cases metadata with
              | nil => rfl
              | cons member rest => cases htruthy
          | _ => rfl
      | true => cases v <;> rfl

/-- The spec that is stored is the one the local store writes. -/
theorem updateSpec_eq (currentTime : ℚ) (reservation : Reservation)
    (agentSpec : List (PyStr × Json)) :
    updateSpec currentTime reservation agentSpec =
      if hasUpdate agentSpec = true then
        some (LocalStore.specToWrite currentTime reservation agentSpec)
      else none := by
  unfold updateSpec hasUpdate LocalStore.specToWrite LocalStore.metadataToWrite updateMetadata
  rw [existingMetadata_eq]
  cases Json.lookup agentSpec (str "metadata") with
  | none => rfl
  | some metadata => cases metadata <;> rfl

/-- What the S3 writer does: it fails before it has touched the spec, or it has
written into the spec and then fails or stores it. -/
theorem addOneReservation_cases (room : Nat) (put : Option PyError) (keyPrefix : PyStr)
    (currentTime : ℚ) (reservation : Reservation) (agentSpec : List (PyStr × Json)) :
    (hasUpdate agentSpec = false ∧
      addOneReservation room put keyPrefix currentTime reservation agentSpec =
        ⟨agentSpec, .error .attributeError⟩) ∨
    hasUpdate agentSpec = true ∧
      ∃ outcome, addOneReservation room put keyPrefix currentTime reservation agentSpec =
        ⟨LocalStore.specToWrite currentTime reservation agentSpec, outcome⟩ ∧
      ∀ stored, outcome = .ok stored ↔
        stored.1 = getObjKeyForReservation keyPrefix reservation.getReservationId ∧
        Json.dumps (.indented 4) room
          (.obj (LocalStore.specToWrite currentTime reservation agentSpec)) = .ok stored.2 ∧
        put = none := by
  unfold addOneReservation
  rw [updateSpec_eq]
  cases hasUpdate agentSpec with
  | false => exact .inl ⟨rfl, rfl⟩
  | true =>
      refine .inr ⟨rfl, ?_⟩
      rw [if_pos rfl]
      dsimp only
      cases hdumps : Json.dumps (.indented 4) room
          (.obj (LocalStore.specToWrite currentTime reservation agentSpec)) with
      | error e => cases e <;> exact ⟨_, rfl, fun stored => by simp⟩
      | ok text =>
          cases put with
          | some e => exact ⟨_, rfl, fun stored => by simp⟩
          | none =>
              refine ⟨_, rfl, fun stored => ?_⟩
              obtain ⟨key, body⟩ := stored
              simp [eq_comm]

/-! ## The reader -/

section Reading

variable (limit : Nat) (extractorGet : ExtractorGet) (formatOther : Option Json → PyStr)

/-- The exception of a retrieval, outside the store. -/
def Raised.toPyError : Raised → PyError
  | .jsonDecodeError => .jsonDecodeError
  | .unicodeDecodeError => .valueError
  | .valueError => .valueError
  | .recursionError => .recursionError
  | .runtimeError => .otherException

/-- `DictionaryExtractor(agent_spec).get(path)`; null is as good as missing. -/
def extracted (members : List (PyStr × Json)) (path : PyStr) : Option Json :=
  match extractorGet (.obj members) path .null with
  | .ok v => some v
  | .error _ => none

/-- `get_one_reservation(reservation_id)`: the reservation and the network. -/
def getOneReservation (keyPrefix : PyStr) (bucket : Bucket) (reservationId : PyStr) :
    Except PyError (Option LocalStore.StoredReservation × Option AgentNetwork) :=
  match bucket.get? (getObjKeyForReservation keyPrefix reservationId) with
  | none => .ok (none, none)  -- `NoSuchKey`
  | some object =>
      match retrieveObject limit object with
      | .error .jsonDecodeError => .ok (none, none)
      | .error e => .error e.toPyError
      | .ok (.obj agentSpec) =>
          match extractReservationData (extracted extractorGet) (.obj agentSpec) with
          | none => .ok (none, none)
          | some reservationDict =>
              let reservation := LocalStore.fromDict reservationDict
              match AgentNetwork.new extractorGet agentSpec
                  (reservation.getReservationId formatOther) with
              | .ok agentNetwork => .ok (some reservation, some agentNetwork)
              | .error .jsonDecodeError => .ok (some reservation, none)
              | .error e => .error e
      | .ok _ => .ok (none, none)  -- no reservation data

variable {extractorGet} in
/-- The dictionary that the validation lets through. -/
theorem extractReservationData_eq
    (hget : ∀ members, extractorGet (.obj members) (str "metadata.reservation") .null =
      .ok (((Json.obj members).atPath reservationPath).getD .null))
    (agentSpec : List (PyStr × Json)) :
    extractReservationData (extracted extractorGet) (.obj agentSpec) =
      match (Json.obj agentSpec).atPath reservationPath with
      | some (.obj data) =>
          match Json.lookup data (str "expiration_time_in_seconds") with
          | some e => if isNumber e then some data else none
          | none => none
      | _ => none := by
  unfold extractReservationData extracted
  dsimp only
  rw [hget]
  dsimp only
  cases (Json.obj agentSpec).atPath reservationPath with
  | none => rfl
  | some reservation => cases reservation <;> rfl

end Reading

end NoraFleet.S3Store
