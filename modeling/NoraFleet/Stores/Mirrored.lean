import NoraFleet.LocalStore.RoundTrip
import NoraFleet.S3Store.Storing

/-!
# Does the local store mirror the S3 store?

The same reservation is handed to both writers, and the same document is looked
up in both stores. The S3 writer puts the reservation into the metadata of the
caller's own spec, and cannot do so when they are no dictionary; the local one
works on a copy, and replaces such metadata. The S3 reader looks at the type of
the expiration time only, not at the time, and lets the exceptions of a network
that cannot be built pass; the local one hands out what has not expired, whatever
the type, and catches all exceptions.

* `writersMirror_iff` — when both writers do the same;
* `readersMirror_iff` — when both lookups return the same;
* `stores_mirror_iff` — both together.
-/

namespace NoraFleet.Stores

open Base Networks

/-! ## The writers -/

/-- Two documents that are the same but for the time in their metadata. -/
def SameButStoredAt (first second : Json) : Prop :=
  ∃ members metadata metadata',
    first = .obj (Dict.setItems members (str "metadata") (.obj metadata)) ∧
    second = .obj (Dict.setItems members (str "metadata") (.obj metadata')) ∧
    metadata.filter (fun member => member.1 ≠ str "stored_at") =
      metadata'.filter fun member => member.1 ≠ str "stored_at"

section Writers

variable (room s3Room : Nat) (put : Option PyError) (basePath : LocalStore.BasePath)
  (keyPrefix : PyStr) (storedAt currentTime : ℚ) (reservation : Reservation)
  (agentSpec : List (PyStr × Json))

/-- The local writer stores a document. -/
def LocalStores (document : Json) : Prop :=
  ∃ fileName bytes text,
    LocalStore.prepareWrite room basePath ⟨reservation, agentSpec, storedAt⟩ =
      .ok (fileName, bytes) ∧
    utf8EncodeText text = some bytes ∧ Json.dumps .compact room document = .ok text

/-- The S3 writer stores a document. -/
def S3Stores (document : Json) : Prop :=
  ∃ key text,
    (S3Store.addOneReservation s3Room put keyPrefix currentTime reservation agentSpec).outcome =
      .ok (key, text) ∧
    Json.dumps (.indented 4) s3Room document = .ok text

/-- Both writers raise, or both store the same document. -/
def SameOutcome : Prop :=
  ((∃ e, LocalStore.prepareWrite room basePath ⟨reservation, agentSpec, storedAt⟩ = .error e) ∧
    ∃ e, (S3Store.addOneReservation s3Room put keyPrefix currentTime reservation
      agentSpec).outcome = .error e) ∨
  ∃ first second, LocalStores room basePath storedAt reservation agentSpec first ∧
    S3Stores s3Room put keyPrefix currentTime reservation agentSpec second ∧
    SameButStoredAt first second

/-- The writers do the same, and the caller's spec is what it was. The local
writer does not touch that anyway. -/
structure WritersMirror : Prop where
  same : SameOutcome room s3Room put basePath keyPrefix storedAt currentTime reservation agentSpec
  leavesSpec : (S3Store.addOneReservation s3Room put keyPrefix currentTime reservation
    agentSpec).agentSpec = agentSpec

/-- What the local store can write: the id can be a file name, and the document
is not too deep and its integers are not too long. -/
structure LocalWritable : Prop where
  nonempty : reservation.getReservationId ≠ []
  encodable : ∃ fileName, LocalStore.fileNameOf reservation.getReservationId = some fileName
  depth : (LocalStore.Write.document ⟨reservation, agentSpec, storedAt⟩).depth ≤ room
  ints : (LocalStore.Write.document ⟨reservation, agentSpec, storedAt⟩).intsFit = true

/-- What the S3 store can write, of a spec whose metadata have an `update`. -/
structure S3Writable : Prop where
  depth : (LocalStore.Write.document ⟨reservation, agentSpec, currentTime⟩).depth ≤ s3Room
  ints : (LocalStore.Write.document ⟨reservation, agentSpec, currentTime⟩).intsFit = true
  accepted : put = none

/-- The metadata are no dictionary, and the local store cannot write; or they
already have the reservation and the time that the S3 writer puts there, and both
stores can write the document or neither can. -/
def WritersAgree : Prop :=
  (S3Store.hasUpdate agentSpec = false ∧ ¬ LocalWritable room storedAt reservation agentSpec) ∨
  ∃ metadata, Json.lookup agentSpec (str "metadata") = some (.obj metadata) ∧
    Json.lookup metadata (str "reservation") = some (.obj reservation.toDict) ∧
    Json.lookup metadata (str "stored_at") = some (.float (.fin currentTime)) ∧
    (LocalWritable room storedAt reservation agentSpec ↔
      S3Writable s3Room put currentTime reservation agentSpec)

end Writers

section WriterLemmas

variable {room s3Room : Nat} {put : Option PyError} {basePath : LocalStore.BasePath}
  {keyPrefix : PyStr} {storedAt currentTime : ℚ} {reservation : Reservation}
  {agentSpec : List (PyStr × Json)}

/-- A document that can be written is stored by the local writer. -/
theorem LocalWritable.stores (h : LocalWritable room storedAt reservation agentSpec)
    (hsep : 47 ∉ reservation.getReservationId)
    (hblank : strip reservation.getReservationId = reservation.getReservationId) :
    LocalStores room basePath storedAt reservation agentSpec
      (LocalStore.Write.document ⟨reservation, agentSpec, storedAt⟩) := by
  obtain ⟨hne, ⟨fileName, hname⟩, hdepth, hints⟩ := h
  obtain ⟨text, htext⟩ := (Json.exists_dumpValue_ok_iff .compact _ room 0).mpr ⟨hdepth, hints⟩
  obtain ⟨bytes, hbytes⟩ := utf8EncodeText_of_plain (Json.plain_of_dumps htext)
  have hpath : LocalStore.pathFor basePath reservation.getReservationId = .ok (basePath.parts ++
      [strip reservation.getReservationId ++ LocalStore.reservationFileSuffix]) :=
    LocalStore.pathFor_eq.mpr ⟨hblank.symm ▸ hne, hblank.symm ▸ hsep, rfl⟩
  refine ⟨fileName, bytes, text, ?_, hbytes, htext⟩
  exact LocalStore.prepareWrite_ok.mpr
    ⟨_, text, hpath, htext, (LocalStore.fileNameOf_eq hpath).trans hname, hbytes⟩

/-- The local writer raises for no other. -/
theorem localWritable_of_ok (hblank : strip reservation.getReservationId =
      reservation.getReservationId) {file : LocalStore.FileName × List UInt8}
    (h : LocalStore.prepareWrite room basePath ⟨reservation, agentSpec, storedAt⟩ = .ok file) :
    LocalWritable room storedAt reservation agentSpec := by
  obtain ⟨path, text, hpath, htext, hname, -⟩ := LocalStore.prepareWrite_ok.mp h
  obtain ⟨hdepth, hints⟩ := (Json.exists_dumpValue_ok_iff .compact _ room 0).mp ⟨text, htext⟩
  constructor
  · rw [← hblank]
    exact (LocalStore.pathFor_eq.mp hpath).1
  · exact ⟨file.1, (LocalStore.fileNameOf_eq hpath).symm.trans hname⟩
  · exact hdepth
  · exact hints

/-- The local writer raises exactly for what it cannot write. -/
theorem localRaises_iff (hsep : 47 ∉ reservation.getReservationId)
    (hblank : strip reservation.getReservationId = reservation.getReservationId) :
    (∃ e, LocalStore.prepareWrite room basePath ⟨reservation, agentSpec, storedAt⟩ = .error e) ↔
      ¬ LocalWritable room storedAt reservation agentSpec := by
  constructor
  · rintro ⟨e, he⟩ hwritable
    obtain ⟨fileName, bytes, -, hok, -⟩ := hwritable.stores hsep hblank
    rw [he] at hok
    cases hok
  · intro hnot
    cases hwrite : LocalStore.prepareWrite room basePath ⟨reservation, agentSpec, storedAt⟩ with
    | error e => exact ⟨e, rfl⟩
    | ok file => exact absurd (localWritable_of_ok hblank hwrite) hnot

/-- A document that can be written is stored by the S3 writer. -/
theorem S3Writable.stores (h : S3Writable s3Room put currentTime reservation agentSpec)
    (hupdate : S3Store.hasUpdate agentSpec = true) :
    S3Stores s3Room put keyPrefix currentTime reservation agentSpec
      (LocalStore.Write.document ⟨reservation, agentSpec, currentTime⟩) := by
  obtain ⟨text, htext⟩ :=
    (Json.exists_dumpValue_ok_iff (.indented 4) _ s3Room 0).mpr ⟨h.depth, h.ints⟩
  rcases S3Store.addOneReservation_cases s3Room put keyPrefix currentTime reservation
    agentSpec with
    ⟨hno, -⟩ | ⟨-, outcome, heq, hstored⟩
  · rw [hupdate] at hno
    cases hno
  · refine ⟨S3Store.getObjKeyForReservation keyPrefix reservation.getReservationId, text, ?_,
      htext⟩
    rw [heq]
    exact (hstored _).mpr ⟨rfl, htext, h.accepted⟩

/-- The S3 writer raises for no other. -/
theorem s3Writable_of_ok {stored : PyStr × PyStr}
    (h : (S3Store.addOneReservation s3Room put keyPrefix currentTime reservation
      agentSpec).outcome = .ok stored) :
    S3Store.hasUpdate agentSpec = true ∧
      S3Writable s3Room put currentTime reservation agentSpec := by
  rcases S3Store.addOneReservation_cases s3Room put keyPrefix currentTime reservation
    agentSpec with
    ⟨-, heq⟩ | ⟨hupdate, outcome, heq, hstored⟩
  · rw [heq] at h
    cases h
  · rw [heq] at h
    obtain ⟨-, htext, hput⟩ := (hstored stored).mp h
    obtain ⟨hdepth, hints⟩ :=
      (Json.exists_dumpValue_ok_iff (.indented 4) _ s3Room 0).mp ⟨_, htext⟩
    exact ⟨hupdate, hdepth, hints, hput⟩

/-- The S3 writer raises exactly for what it cannot update or write. -/
theorem s3Raises_iff :
    (∃ e, (S3Store.addOneReservation s3Room put keyPrefix currentTime reservation
      agentSpec).outcome = .error e) ↔
      ¬ (S3Store.hasUpdate agentSpec = true ∧
        S3Writable s3Room put currentTime reservation agentSpec) := by
  constructor
  · rintro ⟨e, he⟩ ⟨hupdate, hwritable⟩
    have hstores : S3Stores s3Room put keyPrefix currentTime reservation agentSpec
        (LocalStore.Write.document ⟨reservation, agentSpec, currentTime⟩) :=
      hwritable.stores hupdate
    obtain ⟨key, text, hok, -⟩ := hstores
    rw [he] at hok
    cases hok
  · intro hnot
    cases houtcome : (S3Store.addOneReservation s3Room put keyPrefix currentTime reservation
        agentSpec).outcome with
    | error e => exact ⟨e, rfl⟩
    | ok stored => exact absurd (s3Writable_of_ok houtcome) hnot

/-- The documents of two writes of one reservation and spec. -/
theorem sameButStoredAt_documents (t t' : ℚ) :
    SameButStoredAt (LocalStore.Write.document ⟨reservation, agentSpec, t⟩)
      (LocalStore.Write.document ⟨reservation, agentSpec, t'⟩) := by
  refine ⟨agentSpec, _, _, rfl, rfl, ?_⟩
  unfold LocalStore.metadataToWrite
  rw [Dict.filter_setItems, Dict.filter_setItems]

/-- The update leaves the spec as it was exactly if the metadata have the
reservation and the time already. -/
theorem specToWrite_eq_self_iff (hspec : (agentSpec.map Prod.fst).Nodup)
    (hmetadata : ∀ metadata, Json.lookup agentSpec (str "metadata") = some (.obj metadata) →
      (metadata.map Prod.fst).Nodup) :
    LocalStore.specToWrite currentTime reservation agentSpec = agentSpec ↔
      ∃ metadata, Json.lookup agentSpec (str "metadata") = some (.obj metadata) ∧
        Json.lookup metadata (str "reservation") = some (.obj reservation.toDict) ∧
        Json.lookup metadata (str "stored_at") = some (.float (.fin currentTime)) := by
  have hlookup := LocalStore.lookup_metadataToWrite ⟨reservation, agentSpec, currentTime⟩
  unfold LocalStore.specToWrite
  rw [Json.setItems_eq_self_iff hspec]
  constructor
  · intro h
    refine ⟨_, h, ?_, ?_⟩
    · rw [hlookup, if_neg (by decide), if_pos rfl]
    · rw [hlookup, if_pos rfl]
  · rintro ⟨metadata, hfound, hreservation, hstored⟩
    have hnodup := hmetadata metadata hfound
    rw [hfound]
    unfold LocalStore.metadataToWrite
    rw [S3Store.existingMetadata_eq, hfound]
    show some (Json.obj metadata) = some (.obj (Dict.setItems (Dict.setItems metadata _ _) _ _))
    rw [(Json.setItems_eq_self_iff hnodup).mpr hreservation,
      (Json.setItems_eq_self_iff hnodup).mpr hstored]

/-- The S3 writer leaves the caller's spec as it was exactly if it cannot update
it, or has nothing to update. -/
theorem leavesSpec_iff :
    (S3Store.addOneReservation s3Room put keyPrefix currentTime reservation
      agentSpec).agentSpec = agentSpec ↔
      S3Store.hasUpdate agentSpec = false ∨
        LocalStore.specToWrite currentTime reservation agentSpec = agentSpec := by
  rcases S3Store.addOneReservation_cases s3Room put keyPrefix currentTime reservation
    agentSpec with
    ⟨hno, heq⟩ | ⟨hupdate, outcome, heq, -⟩
  · rw [heq]
    exact iff_of_true rfl (.inl hno)
  · rw [heq, hupdate]
    simp

/-- The two writers end alike exactly if what either cannot write, neither can. -/
theorem sameOutcome_iff (hsep : 47 ∉ reservation.getReservationId)
    (hblank : strip reservation.getReservationId = reservation.getReservationId) :
    SameOutcome room s3Room put basePath keyPrefix storedAt currentTime reservation agentSpec ↔
      (LocalWritable room storedAt reservation agentSpec ↔ S3Store.hasUpdate agentSpec = true ∧
        S3Writable s3Room put currentTime reservation agentSpec) := by
  unfold SameOutcome
  rw [localRaises_iff hsep hblank, s3Raises_iff]
  constructor
  · rintro (⟨hlocal, hs3⟩ | ⟨first, second, ⟨fileName, bytes, -, hlocal, -⟩,
      ⟨key, text, hs3, -⟩, -⟩)
    · exact iff_of_false hlocal hs3
    · exact iff_of_true (localWritable_of_ok hblank hlocal) (s3Writable_of_ok hs3)
  · intro h
    by_cases hlocal : LocalWritable room storedAt reservation agentSpec
    · have hs3 := h.mp hlocal
      exact .inr ⟨_, _, hlocal.stores hsep hblank, hs3.2.stores hs3.1,
        sameButStoredAt_documents storedAt currentTime⟩
    · exact .inl ⟨hlocal, fun hs3 => hlocal (h.mpr hs3)⟩

/-- The writers do the same exactly when they agree on the metadata and on what
they can write. -/
theorem writersMirror_iff (hsep : 47 ∉ reservation.getReservationId)
    (hblank : strip reservation.getReservationId = reservation.getReservationId)
    (hspec : (agentSpec.map Prod.fst).Nodup)
    (hmetadata : ∀ metadata, Json.lookup agentSpec (str "metadata") = some (.obj metadata) →
      (metadata.map Prod.fst).Nodup) :
    WritersMirror room s3Room put basePath keyPrefix storedAt currentTime reservation agentSpec ↔
      WritersAgree room s3Room put storedAt currentTime reservation agentSpec := by
  have hsame : SameOutcome room s3Room put basePath keyPrefix storedAt currentTime reservation
      agentSpec ↔ _ := sameOutcome_iff hsep hblank
  constructor
  · intro h
    rcases leavesSpec_iff.mp h.leavesSpec with hno | hself
    · refine .inl ⟨hno, fun hlocal => ?_⟩
      have hupdate := ((hsame.mp h.same).mp hlocal).1
      rw [hno] at hupdate
      cases hupdate
    · obtain ⟨metadata, hfound, hreservation, hstored⟩ :=
        (specToWrite_eq_self_iff hspec hmetadata).mp hself
      have hupdate : S3Store.hasUpdate agentSpec = true := by
        unfold S3Store.hasUpdate
        rw [hfound]
      refine .inr ⟨metadata, hfound, hreservation, hstored, ?_⟩
      rw [hsame.mp h.same]
      exact and_iff_right hupdate
  · rintro (⟨hno, hlocal⟩ | ⟨metadata, hfound, hreservation, hstored, hboth⟩)
    · constructor
      · refine hsame.mpr (iff_of_false hlocal fun hs3 => ?_)
        rw [hno] at hs3
        cases hs3.1
      · exact leavesSpec_iff.mpr (.inl hno)
    · have hupdate : S3Store.hasUpdate agentSpec = true := by
        unfold S3Store.hasUpdate
        rw [hfound]
      constructor
      · exact hsame.mpr (hboth.trans (and_iff_right hupdate).symm)
      · exact leavesSpec_iff.mpr (.inr ((specToWrite_eq_self_iff hspec hmetadata).mpr
          ⟨metadata, hfound, hreservation, hstored⟩))

end WriterLemmas

/-! ## The readers -/

/-- What a lookup returns: a reservation and a network, or neither. -/
abbrev Answer := Option LocalStore.StoredReservation × Option AgentNetwork

/-- The answer of the local store. -/
def answerOf : Option (LocalStore.StoredReservation × AgentNetwork) → Answer
  | none => (none, none)
  | some (reservation, network) => (some reservation, some network)

/-- The same ids, expirations and configs, or none. -/
structure SameAnswer (first second : Answer) : Prop where
  id : first.1.map LocalStore.StoredReservation.id = second.1.map LocalStore.StoredReservation.id
  expiration : first.1.map LocalStore.StoredReservation.expirationTimeInSeconds =
    second.1.map LocalStore.StoredReservation.expirationTimeInSeconds
  config : first.2.map AgentNetwork.config = second.2.map AgentNetwork.config

section Readers

variable (limit s3Limit : Nat) (extractorGet : ExtractorGet) (formatOther : Option Json → PyStr)
  (basePath : LocalStore.BasePath) (keyPrefix : PyStr) (directory : LocalStore.Directory)
  (bucket : S3Store.Bucket) (now : ℚ) (id : PyStr)

/-- Both stores have a document under an id. -/
structure BothHold (document : Json) : Prop where
  file : ∃ path fileName body, LocalStore.pathFor basePath id = .ok path ∧
    fsencode (path.getLastD []) = some fileName ∧ directory.get? fileName = some body ∧
    LocalStore.parseBody limit body = .ok (some document)
  object : ∃ object, bucket.get? (S3Store.getObjKeyForReservation keyPrefix id) = some object ∧
    S3Store.retrieveObject s3Limit object = .ok document

/-- Both lookups return, and the same. -/
def ReadersMirror : Prop :=
  ∃ found answer,
    LocalStore.getOneReservation limit basePath (LocalStore.agentNetworkOf extractorGet formatOther)
      directory now id = .ok found ∧
    S3Store.getOneReservation s3Limit extractorGet formatOther keyPrefix bucket id = .ok answer ∧
    SameAnswer (answerOf found) answer

/-- The document is a spec that makes a network; the name does not matter. -/
def MakesNetwork : Json → Prop
  | .obj agentSpec => ∃ network, AgentNetwork.new extractorGet agentSpec [] = .ok network
  | _ => False

/-- The document has no expiration time; or a number that `now` does not exceed,
in a spec that makes a network; or one of another type that `now` exceeds or
cannot be compared with, or that is in a spec that makes no network. -/
def ReadersAgree (document : Json) : Prop :=
  match document.atPath LocalStore.expirationPath with
  | none => True
  | some e =>
      if S3Store.isNumber e = true then
        LocalStore.nowExceeds now (some e) = some false ∧ MakesNetwork extractorGet document
      else
        LocalStore.nowExceeds now (some e) = some false → ¬ MakesNetwork extractorGet document

end Readers

section ReaderLemmas

variable {limit s3Limit : Nat} {extractorGet : ExtractorGet} {formatOther : Option Json → PyStr}
  {basePath : LocalStore.BasePath} {keyPrefix : PyStr} {directory : LocalStore.Directory}
  {bucket : S3Store.Bucket} {now : ℚ} {id : PyStr}

/-- Whether a spec makes a network does not depend on the name. -/
theorem makesNetwork_iff (agentSpec : List (PyStr × Json)) (name : PyStr) :
    MakesNetwork extractorGet (.obj agentSpec) ↔
      ∃ network, AgentNetwork.new extractorGet agentSpec name = .ok network := by
  have hmap : ∀ (registered : Except PyError (List (Json × Json))) (name name' : PyStr),
      (∃ network, (registered.map fun agentSpecMap =>
        (⟨agentSpec, name, agentSpecMap⟩ : AgentNetwork)) = .ok network) →
      ∃ network, (registered.map fun agentSpecMap =>
        (⟨agentSpec, name', agentSpecMap⟩ : AgentNetwork)) = .ok network := by
    rintro registered name name' ⟨network, h⟩
    obtain ⟨agentSpecMap, rfl, -⟩ := exists_of_map_eq_ok h
    exact ⟨_, rfl⟩
  exact ⟨hmap _ _ _, hmap _ _ _⟩

/-- The local store has a network of a spec that makes one. -/
theorem agentNetworkOf_eq (agentSpec : List (PyStr × Json)) (id : Option Json) :
    LocalStore.agentNetworkOf extractorGet formatOther (.obj agentSpec) id =
      (AgentNetwork.new extractorGet agentSpec (LocalStore.formatted formatOther id)).toOption := by
  unfold LocalStore.agentNetworkOf
  dsimp only
  cases AgentNetwork.new extractorGet agentSpec (LocalStore.formatted formatOther id) <;> rfl

/-- Where a document has its expiration time, if it has one. -/
theorem expiration_cases (document : Json) :
    document.atPath LocalStore.expirationPath = none ∨
      ∃ agentSpec data e, document = .obj agentSpec ∧
        (Json.obj agentSpec).atPath LocalStore.reservationPath = some (.obj data) ∧
        Json.lookup data (str "expiration_time_in_seconds") = some e ∧
        document.atPath LocalStore.expirationPath = some e := by
  unfold LocalStore.expirationPath
  rw [Json.atPath_append]
  cases document with
  | obj agentSpec =>
      cases hreservation : (Json.obj agentSpec).atPath LocalStore.reservationPath with
      | none => exact .inl rfl
      | some reservation =>
          cases reservation with
          | obj data =>
              rw [Option.bind_some, Json.atPath_obj]
              cases he : Json.lookup data (str "expiration_time_in_seconds") with
              | none => exact .inl rfl
              | some e =>
                  refine .inr ⟨agentSpec, data, e, rfl, hreservation, he, ?_⟩
                  cases e <;> rfl
          | _ => exact .inl rfl
  | _ => exact .inl rfl

/-- What the local store makes of a document with an expiration time. -/
theorem reconstruct_eq {Network : Type*} (agentNetwork : Json → Option Json → Option Network)
    {agentSpec data : List (PyStr × Json)} {e : Json}
    (hdata : (Json.obj agentSpec).atPath LocalStore.reservationPath = some (.obj data))
    (he : Json.lookup data (str "expiration_time_in_seconds") = some e) :
    LocalStore.reconstruct agentNetwork now (.obj agentSpec) =
      if LocalStore.nowExceeds now (some e) = some false then
        (agentNetwork (.obj agentSpec) (LocalStore.fromDict data).id).map fun network =>
          (LocalStore.fromDict data, network)
      else none := by
  have hnow : LocalStore.nowExceeds now (LocalStore.fromDict data).expirationTimeInSeconds =
      LocalStore.nowExceeds now (some e) := by
    show LocalStore.nowExceeds now (LocalStore.getOrNone data _) = _
    unfold LocalStore.getOrNone
    rw [he]
    cases e <;> rfl
  unfold LocalStore.reconstruct
  dsimp only
  rcases LocalStore.metadata_cases agentSpec with ⟨metadata, hget, hlookup⟩ | ⟨-, hnone⟩
  · rw [hget]
    dsimp only
    rw [hlookup, hdata]
    dsimp only
    rw [hnow]
    split
    · rename_i halive
      rw [if_pos halive]
    · rename_i halive
      rw [if_neg halive]
  · rw [hnone] at hdata
    cases hdata

/-- What the local lookup returns of a document. -/
theorem BothHold.local_eq {document : Json} (h : BothHold limit s3Limit basePath keyPrefix
      directory bucket id document) :
    LocalStore.getOneReservation limit basePath (LocalStore.agentNetworkOf extractorGet formatOther)
        directory now id =
      .ok (LocalStore.reconstruct (LocalStore.agentNetworkOf extractorGet formatOther) now
        document) := by
  obtain ⟨path, fileName, body, hpath, hname, hbody, hparse⟩ := h.file
  exact LocalStore.getOneReservation_of_file hpath
    ((LocalStore.fileNameOf_eq hpath).symm.trans hname) hbody hparse

/-- Without an expiration time, the S3 lookup finds nothing. -/
theorem BothHold.s3_eq_none {document : Json} (h : BothHold limit s3Limit basePath keyPrefix
      directory bucket id document)
    (hget : ∀ members, extractorGet (.obj members) (str "metadata.reservation") .null =
      .ok (((Json.obj members).atPath S3Store.reservationPath).getD .null))
    (hnone : document.atPath LocalStore.expirationPath = none) :
    S3Store.getOneReservation s3Limit extractorGet formatOther keyPrefix bucket id =
      .ok (none, none) := by
  obtain ⟨object, hobject, hretrieve⟩ := h.object
  unfold S3Store.getOneReservation
  rw [hobject]
  dsimp only
  rw [hretrieve]
  cases document with
  | obj agentSpec =>
      dsimp only
      rw [S3Store.extractReservationData_eq hget]
      unfold LocalStore.expirationPath at hnone
      rw [Json.atPath_append] at hnone
      have hpath : LocalStore.reservationPath = S3Store.reservationPath := rfl
      rw [hpath] at hnone
      cases hreservation : (Json.obj agentSpec).atPath S3Store.reservationPath with
      | none => rfl
      | some reservation =>
          rw [hreservation, Option.bind_some] at hnone
          cases reservation with
          | obj data =>
              rw [Json.atPath_obj] at hnone
              dsimp only
              cases he : Json.lookup data (str "expiration_time_in_seconds") with
              | none => rfl
              | some e =>
                  rw [he] at hnone
                  cases e <;> cases hnone
          | _ => rfl
  | _ => rfl

/-- With one, it builds the network if that is a number. -/
theorem BothHold.s3_eq {agentSpec data : List (PyStr × Json)} {e : Json}
    (h : BothHold limit s3Limit basePath keyPrefix directory bucket id (.obj agentSpec))
    (hget : ∀ members, extractorGet (.obj members) (str "metadata.reservation") .null =
      .ok (((Json.obj members).atPath S3Store.reservationPath).getD .null))
    (hdata : (Json.obj agentSpec).atPath LocalStore.reservationPath = some (.obj data))
    (he : Json.lookup data (str "expiration_time_in_seconds") = some e) :
    S3Store.getOneReservation s3Limit extractorGet formatOther keyPrefix bucket id =
      if S3Store.isNumber e = true then
        match AgentNetwork.new extractorGet agentSpec
            ((LocalStore.fromDict data).getReservationId formatOther) with
        | .ok agentNetwork => .ok (some (LocalStore.fromDict data), some agentNetwork)
        | .error .jsonDecodeError => .ok (some (LocalStore.fromDict data), none)
        | .error error => .error error
      else .ok (none, none) := by
  obtain ⟨object, hobject, hretrieve⟩ := h.object
  unfold S3Store.getOneReservation
  rw [hobject]
  dsimp only
  rw [hretrieve]
  dsimp only
  rw [S3Store.extractReservationData_eq hget]
  have hpath : LocalStore.reservationPath = S3Store.reservationPath := rfl
  rw [← hpath, hdata]
  dsimp only
  rw [he]
  dsimp only
  cases S3Store.isNumber e <;> rfl

/-- Two lookups that return a reservation with its network, or neither, return
the same only if both do. -/
theorem SameAnswer.isSome {first second : Answer} (h : SameAnswer first second) :
    first.1.isSome = second.1.isSome ∧ first.2.isSome = second.2.isSome := by
  have hid := congrArg Option.isSome h.id
  have hconfig := congrArg Option.isSome h.config
  rw [Option.isSome_map, Option.isSome_map] at hid hconfig
  exact ⟨hid, hconfig⟩

theorem SameAnswer.refl (answer : Answer) : SameAnswer answer answer := ⟨rfl, rfl, rfl⟩

/-- The lookups return the same exactly for the documents they agree on. -/
theorem readersMirror_iff {document : Json} (h : BothHold limit s3Limit basePath keyPrefix
      directory bucket id document)
    (hget : ∀ members, extractorGet (.obj members) (str "metadata.reservation") .null =
      .ok (((Json.obj members).atPath S3Store.reservationPath).getD .null)) :
    ReadersMirror limit s3Limit extractorGet formatOther basePath keyPrefix directory bucket now
        id ↔
      ReadersAgree extractorGet now document := by
  unfold ReadersMirror ReadersAgree
  rw [h.local_eq]
  rcases expiration_cases document with hnone | ⟨agentSpec, data, e, rfl, hdata, he, hpath⟩
  · -- without an expiration neither store has anything
    rw [hnone, h.s3_eq_none hget hnone]
    refine iff_of_true ⟨none, (none, none), ?_, rfl, SameAnswer.refl _⟩ trivial
    cases hfound : LocalStore.reconstruct (LocalStore.agentNetworkOf extractorGet formatOther) now
        document with
    | none => rfl
    | some pair =>
        obtain ⟨e, he, -⟩ := LocalStore.alive_of_reconstruct hfound
        rw [hnone] at he
        cases he
  · rw [hpath, reconstruct_eq _ hdata he, h.s3_eq hget hdata he]
    have hmakes : MakesNetwork extractorGet (.obj agentSpec) ↔ _ :=
      makesNetwork_iff agentSpec ((LocalStore.fromDict data).getReservationId formatOther)
    have hof : LocalStore.agentNetworkOf extractorGet formatOther (.obj agentSpec)
        (LocalStore.fromDict data).id = (AgentNetwork.new extractorGet agentSpec
          ((LocalStore.fromDict data).getReservationId formatOther)).toOption :=
      agentNetworkOf_eq agentSpec _
    rw [hof, hmakes]
    cases hnew : AgentNetwork.new extractorGet agentSpec
        ((LocalStore.fromDict data).getReservationId formatOther) with
    | ok network =>
        dsimp only [Except.toOption]
        -- the local store asks whether it is alive, the other whether it is a number
        by_cases halive : LocalStore.nowExceeds now (some e) = some false
        · rw [if_pos halive]
          by_cases hnumber : S3Store.isNumber e = true
          · rw [if_pos hnumber, if_pos hnumber]
            exact iff_of_true ⟨_, _, rfl, rfl, SameAnswer.refl _⟩ ⟨halive, network, rfl⟩
          · rw [if_neg hnumber, if_neg hnumber]
            refine iff_of_false ?_ fun hnot => hnot halive ⟨network, rfl⟩
            rintro ⟨found, answer, hfound, hanswer, hsame⟩
            cases hfound
            cases hanswer
            cases hsame.isSome.1
        · rw [if_neg halive]
          by_cases hnumber : S3Store.isNumber e = true
          · rw [if_pos hnumber, if_pos hnumber]
            refine iff_of_false ?_ fun hand => halive hand.1
            rintro ⟨found, answer, hfound, hanswer, hsame⟩
            cases hfound
            cases hanswer
            cases hsame.isSome.1
          · rw [if_neg hnumber, if_neg hnumber]
            exact iff_of_true ⟨_, _, rfl, rfl, SameAnswer.refl _⟩ fun ha => absurd ha halive
    | error error =>
        dsimp only [Except.toOption]
        rw [Option.map_none, ite_self]
        by_cases hnumber : S3Store.isNumber e = true
        · rw [if_pos hnumber, if_pos hnumber]
          refine iff_of_false ?_ ?_
          · rintro ⟨found, answer, hfound, hanswer, hsame⟩
            cases hfound
            cases error with
            | jsonDecodeError =>
                cases hanswer
                cases hsame.isSome.1
            | _ => cases hanswer
          · rintro ⟨-, network, hnetwork⟩
            cases hnetwork
        · rw [if_neg hnumber, if_neg hnumber]
          refine iff_of_true ⟨_, _, rfl, rfl, SameAnswer.refl _⟩ ?_
          rintro - ⟨network, hnetwork⟩
          cases hnetwork

end ReaderLemmas

/-! ## Both -/

instance (extractorGet : ExtractorGet) : DecidablePred (MakesNetwork extractorGet)
  | .obj agentSpec =>
      match h : AgentNetwork.new extractorGet agentSpec [] with
      | .ok network => .isTrue ⟨network, h⟩
      | .error _ => .isFalse fun ⟨_, hnetwork⟩ => nomatch h.symm.trans hnetwork
  | .null | .bool _ | .int _ | .float _ | .str _ | .arr _ => .isFalse id

instance (extractorGet : ExtractorGet) (now : ℚ) : DecidablePred (ReadersAgree extractorGet now) :=
  fun document => by
    unfold ReadersAgree
    cases document.atPath LocalStore.expirationPath with
    | none => exact .isTrue trivial
    | some e => exact inferInstance

/-- The writers do the same exactly for the specs, and the readers exactly for
the documents, that they agree on. -/
theorem stores_mirror_iff {room s3Room limit s3Limit : Nat} {put : Option PyError}
    {basePath : LocalStore.BasePath} {keyPrefix : PyStr} {storedAt currentTime now : ℚ}
    {reservation : Reservation} {agentSpec : List (PyStr × Json)} {extractorGet : ExtractorGet}
    {formatOther : Option Json → PyStr} {directory : LocalStore.Directory}
    {bucket : S3Store.Bucket} {id : PyStr} {document : Json}
    (hsep : 47 ∉ reservation.getReservationId)
    (hblank : strip reservation.getReservationId = reservation.getReservationId)
    (hspec : (agentSpec.map Prod.fst).Nodup)
    (hmetadata : ∀ metadata, Json.lookup agentSpec (str "metadata") = some (.obj metadata) →
      (metadata.map Prod.fst).Nodup)
    (hget : ∀ members, extractorGet (.obj members) (str "metadata.reservation") .null =
      .ok (((Json.obj members).atPath S3Store.reservationPath).getD .null))
    (hholds : BothHold limit s3Limit basePath keyPrefix directory bucket id document) :
    (WritersMirror room s3Room put basePath keyPrefix storedAt currentTime reservation agentSpec ↔
      WritersAgree room s3Room put storedAt currentTime reservation agentSpec) ∧
    (ReadersMirror limit s3Limit extractorGet formatOther basePath keyPrefix directory bucket now
        id ↔
      ReadersAgree extractorGet now document) :=
  ⟨writersMirror_iff hsep hblank hspec hmetadata, readersMirror_iff hholds hget⟩

/-! ## A reservation -/

section OneReservation

/-- The reservation `x`, until 5. -/
def untilFive : Reservation := ⟨str "x", [], .float (.fin 5), .float (.fin 5)⟩

/-- An object with this body, under the key of `x`. -/
def oneObject (body : List UInt8) : S3Store.Bucket :=
  ⟨[(str "reservations/x.json", ⟨body, some 0⟩)], by simp⟩

/-- What is under `x`: a reservation until 5. -/
def untilFiveBody : List UInt8 := LocalStore.storedBody "5.0"

/-- Whether the lookups agree at 4 and at 100, if the text is a document. -/
def agreements (text : PyStr) : Option (Bool × Bool) :=
  match Json.loads 1000 text with
  | .ok document =>
      some (decide (ReadersAgree dictionaryGet 4 document),
        decide (ReadersAgree dictionaryGet 100 document))
  | .error _ => none

/-- Both stores have a document, on which the lookups agree until it expires. -/
theorem exists_document :
    ∃ document, BothHold 1000 1000 LocalStore.srv (str "reservations/")
        (LocalStore.oneFile untilFiveBody) (oneObject untilFiveBody) (str "x") document ∧
      ReadersAgree dictionaryGet 4 document ∧ ¬ ReadersAgree dictionaryGet 100 document := by
  have hdecode : utf8Decode untilFiveBody = some (untilFiveBody.map UInt8.toNat) := by
    decide +kernel
  have hplain : universalNewlines (untilFiveBody.map UInt8.toNat) =
      untilFiveBody.map UInt8.toNat := by
    decide +kernel
  have hagree : agreements (untilFiveBody.map UInt8.toNat) = some (true, false) := by
    decide +kernel
  unfold agreements at hagree
  split at hagree
  · rename_i document hloads
    obtain ⟨hfour, hhundred⟩ := Prod.mk.inj (Option.some.inj hagree)
    refine ⟨document, ⟨⟨_, _, untilFiveBody, rfl, rfl, ?_, ?_⟩,
      ⟨⟨untilFiveBody, some 0⟩, ?_, ?_⟩⟩, of_decide_eq_true hfour, of_decide_eq_false hhundred⟩
    · exact Dict.get?_eq_some_iff.mpr List.mem_cons_self
    · unfold LocalStore.parseBody
      rw [hdecode]
      dsimp only
      rw [hplain, hloads]
    · exact Dict.get?_eq_some_iff.mpr List.mem_cons_self
    · unfold S3Store.retrieveObject
      dsimp only
      rw [hdecode]
      dsimp only
      rw [hloads]
  · cases hagree

/-- Written at 1 with the metadata of that very write, and read at 4, the stores
mirror each other. -/
theorem stores_mirror_updated :
    WritersMirror 1000 1000 none LocalStore.srv (str "reservations/") 1 1 untilFive
        (LocalStore.specToWrite 1 untilFive []) ∧
      ReadersMirror 1000 1000 dictionaryGet (fun _ => []) LocalStore.srv (str "reservations/")
        (LocalStore.oneFile untilFiveBody) (oneObject untilFiveBody) 4 (str "x") := by
  obtain ⟨document, hholds, hagree, -⟩ := exists_document
  have hmetadata : ∀ metadata, Json.lookup (LocalStore.specToWrite 1 untilFive [])
      (str "metadata") = some (.obj metadata) → (metadata.map Prod.fst).Nodup := by
    intro metadata hfound
    obtain rfl := Json.obj.inj (Option.some.inj hfound)
    decide
  have hmirror : (WritersMirror 1000 1000 none LocalStore.srv (str "reservations/") 1 1 untilFive
        (LocalStore.specToWrite 1 untilFive []) ↔ _) ∧
      (ReadersMirror 1000 1000 dictionaryGet (fun _ => []) LocalStore.srv (str "reservations/")
        (LocalStore.oneFile untilFiveBody) (oneObject untilFiveBody) 4 (str "x") ↔ _) :=
    stores_mirror_iff (by decide) (by decide) (by decide) hmetadata (fun _ => rfl) hholds
  refine ⟨hmirror.1.mpr (.inr ⟨_, rfl, rfl, rfl, ?_⟩), hmirror.2.mpr hagree⟩
  exact iff_of_true ⟨by decide, ⟨_, rfl⟩, by decide, by decide⟩ ⟨by decide, by decide, rfl⟩

/-- A spec without metadata gets some from the S3 writer; and what expired at 5
is still found by the S3 reader at 100. -/
theorem stores_differ :
    ¬ WritersMirror 1000 1000 none LocalStore.srv (str "reservations/") 1 1 untilFive [] ∧
      ¬ ReadersMirror 1000 1000 dictionaryGet (fun _ => []) LocalStore.srv (str "reservations/")
        (LocalStore.oneFile untilFiveBody)
        (oneObject untilFiveBody) 100 (str "x") := by
  constructor
  · intro h
    exact absurd h.leavesSpec (by decide)
  · obtain ⟨document, hholds, -, hdiffer⟩ := exists_document
    intro h
    exact hdiffer ((readersMirror_iff hholds fun _ => rfl).mp h)

end OneReservation

end NoraFleet.Stores
