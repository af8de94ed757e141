import NoraFleet.Base.Dumps
import NoraFleet.LocalStore.Tolerance
import NoraFleet.Networks.AgentNetwork
import NoraFleet.Stores.Reservation

/-!
# Writing reservations to local files

`add_reservations` writes every reservation of a batch in a thread of its own:
the spec with the reservation under its metadata is dumped, and the file of the
id is replaced in one step. The writes of a batch come in any order; one that
raises leaves its file alone, and makes the batch raise.

* `prepareWrite_ok` — what a write that does not raise puts where;
* `lookup_specToWrite`, `lookup_metadataToWrite` — the document is the spec but
  for its metadata, and these but for the reservation and the time;
* `Write.WellFormed.document` — and it is as well formed as the spec.
-/

namespace NoraFleet.LocalStore

open Base Stores Networks

/-! ## One write -/

/-- The metadata of a spec; what is no dictionary counts as empty. -/
def existingMetadata (agentSpec : List (PyStr × Json)) : List (PyStr × Json) :=
  match getOrEmpty agentSpec (str "metadata") with
  | .obj metadata => metadata
  | _ => []

/-- The metadata that is written. -/
def metadataToWrite (storedAt : ℚ) (reservation : Reservation)
    (agentSpec : List (PyStr × Json)) : List (PyStr × Json) :=
  Dict.setItems
    (Dict.setItems (existingMetadata agentSpec) (str "reservation") (.obj reservation.toDict))
    (str "stored_at") (.float (.fin storedAt))

/-- `spec_to_write`. -/
def specToWrite (storedAt : ℚ) (reservation : Reservation)
    (agentSpec : List (PyStr × Json)) : List (PyStr × Json) :=
  Dict.setItems agentSpec (str "metadata") (.obj (metadataToWrite storedAt reservation agentSpec))

/-- A reservation to write, its spec, and the time of the write. -/
structure Write where
  reservation : Reservation
  agentSpec : List (PyStr × Json)
  storedAt : ℚ

/-- The document of a write. -/
def Write.document (write : Write) : Json :=
  .obj (specToWrite write.storedAt write.reservation write.agentSpec)

section Writes

variable (room : Nat) (basePath : BasePath)

/-- `_write_one_reservation_sync`, up to the file it replaces and the bytes it
replaces it with. `room` is what `json.dumps` has for nested containers. -/
def prepareWrite (write : Write) : Except Raised (FileName × List UInt8) :=
  match pathFor basePath write.reservation.getReservationId with
  | .error _ => .error .valueError
  | .ok finalPath =>
      match Json.dumps .compact room write.document with
      | .error .valueError => .error .valueError
      | .error .recursionError => .error .recursionError
      | .ok body =>
          match fsencode (finalPath.getLastD []), utf8EncodeText body with
          | some fileName, some bytes => .ok (fileName, bytes)
          | _, _ => .error .valueError

/-- `_write_one_reservation_sync`, for its effect. -/
def writeOneReservation (directory : Directory) (write : Write) : Directory :=
  match prepareWrite room basePath write with
  | .ok (fileName, bytes) => directory.set fileName bytes
  | .error _ => directory

/-- Writes, one after the other. -/
def writeAll (directory : Directory) (writes : List Write) : Directory :=
  writes.foldl (writeOneReservation room basePath) directory

/-- `add_reservations` of a batch does the writes `done`, in their order. When it
returns, they are all there are and none has raised; otherwise some may be
missing. -/
structure AddReservations (batch done : List Write) : Prop where
  ofBatch : done.Subperm batch
  returned : (∀ write ∈ batch, ∃ file, prepareWrite room basePath write = .ok file) →
    done.Perm batch

end Writes

/-! ## The network that is read -/

/-- `f"{value}"`. How values other than texts are written is a parameter. -/
def formatted (formatOther : Option Json → PyStr) : Option Json → PyStr
  | some (.str s) => s
  | value => formatOther value

/-- `get_reservation_id()`; the prefix is empty. -/
def StoredReservation.getReservationId (formatOther : Option Json → PyStr)
    (reservation : StoredReservation) : PyStr :=
  formatted formatOther reservation.id

/-- `AgentNetwork(agent_spec, reservation_id)`, `none` when it raises. -/
def agentNetworkOf (extractorGet : ExtractorGet) (formatOther : Option Json → PyStr)
    (agentSpec : Json) (id : Option Json) : Option AgentNetwork :=
  match agentSpec with
  | .obj config =>
      match AgentNetwork.new extractorGet config (formatted formatOther id) with
      | .ok network => some network
      | .error _ => none
  | _ => none

/-! ## What is written -/

/-- What a write that does not raise puts where. -/
theorem prepareWrite_ok {room : Nat} {basePath : BasePath} {write : Write}
    {fileName : FileName} {bytes : List UInt8} :
    prepareWrite room basePath write = .ok (fileName, bytes) ↔
      ∃ path body, pathFor basePath write.reservation.getReservationId = .ok path ∧
        Json.dumps .compact room write.document = .ok body ∧
        fsencode (path.getLastD []) = some fileName ∧ utf8EncodeText body = some bytes := by
  unfold prepareWrite
  constructor
  · intro h
    split at h
    · cases h
    · rename_i path hpath
      split at h
      · cases h
      · cases h
      · rename_i body hbody
        split at h
        · rename_i name others hname hothers
          cases h
          exact ⟨path, body, hpath, hbody, hname, hothers⟩
        · cases h
  · rintro ⟨path, body, hpath, hbody, hname, hbytes⟩
    simp only [hpath, hbody, hname, hbytes]

/-- Other members of a spec stay. -/
theorem lookup_specToWrite (write : Write) (key : PyStr) :
    Json.lookup (specToWrite write.storedAt write.reservation write.agentSpec) key =
      if key = str "metadata" then
        some (.obj (metadataToWrite write.storedAt write.reservation write.agentSpec))
      else Json.lookup write.agentSpec key := by
  unfold specToWrite
  rw [Json.lookup_setItems]

/-- Other members of its metadata stay. -/
theorem lookup_metadataToWrite (write : Write) (key : PyStr) :
    Json.lookup (metadataToWrite write.storedAt write.reservation write.agentSpec) key =
      if key = str "stored_at" then some (.float (.fin write.storedAt))
      else if key = str "reservation" then some (.obj write.reservation.toDict)
      else Json.lookup (existingMetadata write.agentSpec) key := by
  unfold metadataToWrite
  rw [Json.lookup_setItems, Json.lookup_setItems]

/-- A network is made of the agents of its spec, whatever its metadata. -/
theorem new_specToWrite (extractorGet : ExtractorGet) (write : Write) (name : PyStr) :
    AgentNetwork.new extractorGet
        (specToWrite write.storedAt write.reservation write.agentSpec) name =
      (AgentNetwork.new extractorGet write.agentSpec name).map fun network =>
        { network with
          config := specToWrite write.storedAt write.reservation write.agentSpec } := by
  have htools : Json.lookup (specToWrite write.storedAt write.reservation write.agentSpec)
      (str "tools") = Json.lookup write.agentSpec (str "tools") := by
    rw [lookup_specToWrite, if_neg (by decide)]
  have hmap : ∀ registered : Except PyError (List (Json × Json)),
      (registered.map fun agentSpecMap => (⟨specToWrite write.storedAt write.reservation
          write.agentSpec, name, agentSpecMap⟩ : AgentNetwork)) =
        (registered.map fun agentSpecMap => (⟨write.agentSpec, name, agentSpecMap⟩ :
          AgentNetwork)).map fun network =>
            { network with
              config := specToWrite write.storedAt write.reservation write.agentSpec } := by
    intro registered
    cases registered <;> rfl
  unfold AgentNetwork.new
  rw [htools]
  exact hmap _

/-! ## Well-formed documents -/

theorem wellFormed_existingMetadata {agentSpec : List (PyStr × Json)}
    (h : (Json.obj agentSpec).wellFormed = true) :
    (Json.obj (existingMetadata agentSpec)).wellFormed = true := by
  unfold existingMetadata
  rcases getOrEmpty_cases agentSpec (str "metadata") with
    ⟨metadata, hlookup, hget⟩ | ⟨-, hget | hget⟩
  · rw [hget]
    exact Json.wellFormed_of_lookup h hlookup
  · rw [hget]
    rfl
  · split
    · rename_i metadata heq
      exact absurd heq (hget metadata)
    · rfl

/-- What a reservation is made of is well formed. -/
structure Write.WellFormed (write : Write) : Prop where
  id : Json.wellFormedText false write.reservation.getReservationId = true
  lifetime : write.reservation.lifetimeInSeconds.wellFormed = true
  expiration : write.reservation.expirationTimeInSeconds.wellFormed = true
  spec : (Json.obj write.agentSpec).wellFormed = true
  storedAt : Double.IsDouble write.storedAt

/-- The document is as well formed as what it is made of. -/
theorem Write.WellFormed.document {write : Write} (h : write.WellFormed) :
    write.document.wellFormed = true := by
  have hreservation : (Json.obj write.reservation.toDict).wellFormed = true := by
    rw [Json.wellFormed_obj_iff]
    have hkeys : write.reservation.toDict.map Prod.fst =
        [str "id", str "lifetime_in_seconds", str "expiration_time_in_seconds"] := rfl
    have htexts : ∀ key ∈ write.reservation.toDict.map Prod.fst,
        Json.wellFormedText false key = true := by
      rw [hkeys]
      decide
    refine ⟨by rw [hkeys]; decide, fun member hmember => ?_⟩
    refine ⟨htexts member.1 (List.mem_map_of_mem hmember), ?_⟩
    unfold Reservation.toDict at hmember
    simp only [List.mem_cons, List.not_mem_nil, or_false] at hmember
    rcases hmember with rfl | rfl | rfl
    · exact h.id
    · exact h.lifetime
    · exact h.expiration
  have hstored : (Json.float (.fin write.storedAt)).wellFormed = true := by
    unfold Json.wellFormed
    exact decide_eq_true h.storedAt
  have hmetadata : (Json.obj (metadataToWrite write.storedAt write.reservation
      write.agentSpec)).wellFormed = true := by
    apply Json.wellFormed_setItems _ (by decide) hstored
    exact Json.wellFormed_setItems (wellFormed_existingMetadata h.spec) (by decide) hreservation
  exact Json.wellFormed_setItems h.spec (by decide) hmetadata

end NoraFleet.LocalStore
