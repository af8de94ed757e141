import NoraFleet.LocalStore.Writing

/-!
# What was written is read back

The file of an id is named after the id without the blanks around it, and by
their bytes two texts without surrogates are told apart. So the lookup of an id
finds what the last write for it, in whatever order the writes of a batch came,
put into its file, and no write for another id changes that. Ids that differ in
the blanks around them share a file.

* `strip_eq_of_fileName` — an id can be told from its file;
* `parseBody_prepareWrite` — the document of a write is what is read;
* `round_trip` — over any sequence of batches.
-/

namespace NoraFleet.LocalStore

open Base Stores Networks

/-! ## Ids and files -/

/-- A text of code points none of which is a surrogate. -/
def isScalarText (text : PyStr) : Bool := text.all fun c => c < 0x110000 && !isSurrogate c

theorem mem_of_mem_strip {text : PyStr} {c : Nat} (h : c ∈ strip text) : c ∈ text := by
  unfold strip stripWith at h
  have hback := List.mem_reverse.mp h
  have hfront := (List.dropWhile_suffix isSpace).mem hback
  exact (List.dropWhile_suffix isSpace).mem (List.mem_reverse.mp hfront)

/-- The name of the file of an id, when it has one. -/
def fileNameOf (id : PyStr) : Option FileName := fsencode (strip id ++ reservationFileSuffix)

theorem fileNameOf_eq {basePath : BasePath} {id : PyStr} {path : List PyStr}
    (h : pathFor basePath id = .ok path) : fsencode (path.getLastD []) = fileNameOf id := by
  obtain ⟨-, -, rfl⟩ := pathFor_eq.mp h
  rw [List.getLastD_concat]
  rfl

/-- Ids without surrogates that share a file are the same but for the blanks
around them. -/
theorem strip_eq_of_fileName {first second : PyStr} (hfirst : isScalarText first = true)
    (hsecond : isScalarText second = true) {fileName : FileName}
    (h : fileNameOf first = some fileName) (h' : fileNameOf second = some fileName) :
    strip first = strip second := by
  have hplain : ∀ {id : PyStr}, isScalarText id = true →
      ∀ c ∈ strip id ++ reservationFileSuffix, isSurrogate c = false := by
    intro id hid c hc
    rcases List.mem_append.mp hc with hc | hc
    · have hall := List.all_eq_true.mp hid c (mem_of_mem_strip hc)
      rw [Bool.and_eq_true, Bool.not_eq_true'] at hall
      exact hall.2
    · have hsuffix : ∀ c ∈ reservationFileSuffix, isSurrogate c = false := by decide
      exact hsuffix c hc
  exact List.append_cancel_right (fsencode_injective (hplain hfirst) (hplain hsecond) h h')

/-! ## Reading one file -/

section Reading

variable {room limit : Nat} {basePath : BasePath} {extractorGet : ExtractorGet}
  {formatOther : Option Json → PyStr} {directory : Directory} {now : ℚ}

/-- The document of a write is what is read. -/
theorem parseBody_prepareWrite {write : Write} (hwell : write.WellFormed)
    (hdepth : write.document.depth ≤ limit) {fileName : FileName} {bytes : List UInt8}
    (h : prepareWrite room basePath write = .ok (fileName, bytes)) :
    parseBody limit bytes = .ok (some write.document) := by
  obtain ⟨path, body, -, hbody, -, hbytes⟩ := prepareWrite_ok.mp h
  unfold parseBody
  rw [utf8Decode_utf8EncodeText hbytes]
  dsimp only
  rw [universalNewlines_of_plain (Json.plain_of_dumps hbody),
    Json.loads_dumps hwell.document hdepth hbody]

/-- What a lookup is to return for a write: its reservation, and a network of
that name whose config is its spec, but for the reservation and the time in the
metadata. Metadata that are no dictionary were replaced by one. -/
structure ReadsBack (formatOther : Option Json → PyStr) (write : Write)
    (stored : StoredReservation) (network : AgentNetwork) : Prop where
  id : stored.getReservationId formatOther = write.reservation.getReservationId
  lifetime : stored.lifetimeInSeconds.getD .null = write.reservation.lifetimeInSeconds
  expiration : stored.expirationTimeInSeconds.getD .null =
    write.reservation.expirationTimeInSeconds
  name : network.name = write.reservation.getReservationId
  config : ∀ key, key ≠ str "metadata" →
    Json.lookup network.config key = Json.lookup write.agentSpec key
  metadata : ∃ metadata, Json.lookup network.config (str "metadata") = some (.obj metadata) ∧
    ∀ key, key ≠ str "reservation" → key ≠ str "stored_at" →
      Json.lookup metadata key = Json.lookup (existingMetadata write.agentSpec) key

/-- The writes that can be read back at a time: of well-formed values, nested no
deeper than the reader has room for, of a spec that makes a network, before they
expire. -/
structure Write.Readable (limit : Nat) (extractorGet : ExtractorGet) (now : ℚ) (write : Write) :
    Prop where
  wellFormed : write.WellFormed
  depth : write.document.depth ≤ limit
  network : ∃ network, AgentNetwork.new extractorGet write.agentSpec
    write.reservation.getReservationId = .ok network
  alive : nowExceeds now (some write.reservation.expirationTimeInSeconds) = some false

/-- Metadata with something in them are found. -/
theorem getOrEmpty_specToWrite (write : Write) :
    getOrEmpty (specToWrite write.storedAt write.reservation write.agentSpec) (str "metadata") =
      .obj (metadataToWrite write.storedAt write.reservation write.agentSpec) := by
  have htruthy : (Json.obj (metadataToWrite write.storedAt write.reservation
      write.agentSpec)).truthy = true := by
    have hlookup := lookup_metadataToWrite write (str "stored_at")
    rw [if_pos rfl] at hlookup
    cases hlist : metadataToWrite write.storedAt write.reservation write.agentSpec with
    | nil =>
        rw [hlist] at hlookup
        cases hlookup
    | cons member rest => rfl
  unfold getOrEmpty
  rw [lookup_specToWrite, if_pos rfl]
  dsimp only
  rw [if_pos htruthy]

/-- What is read of a document is what was written. -/
theorem reconstruct_document {write : Write} (h : write.Readable limit extractorGet now) :
    ∃ stored network,
      reconstruct (agentNetworkOf extractorGet formatOther) now write.document =
        some (stored, network) ∧ ReadsBack formatOther write stored network := by
  obtain ⟨-, -, ⟨network, hnetwork⟩, halive⟩ := h
  have hreservation := lookup_metadataToWrite write (str "reservation")
  rw [if_neg (by decide), if_pos rfl] at hreservation
  have hid : (fromDict write.reservation.toDict).id =
      some (.str write.reservation.getReservationId) := rfl
  -- an expiration that is alive is no null, and read as it is
  have hexpiration : (fromDict write.reservation.toDict).expirationTimeInSeconds =
      some write.reservation.expirationTimeInSeconds := by
    show getOrNone write.reservation.toDict (str "expiration_time_in_seconds") = _
    have hlookup : Json.lookup write.reservation.toDict (str "expiration_time_in_seconds") =
        some write.reservation.expirationTimeInSeconds := rfl
    unfold getOrNone
    rw [hlookup]
    cases hvalue : write.reservation.expirationTimeInSeconds with
    | null =>
        rw [hvalue] at halive
        cases halive
    | _ => rfl
  -- the metadata that are written into the spec change nothing in its agents
  have hname : AgentNetwork.new extractorGet
      (specToWrite write.storedAt write.reservation write.agentSpec)
      (formatted formatOther (some (.str write.reservation.getReservationId))) =
      .ok { network with
        config := specToWrite write.storedAt write.reservation write.agentSpec } := by
    show AgentNetwork.new extractorGet _ write.reservation.getReservationId = _
    rw [new_specToWrite, hnetwork]
    rfl
  refine ⟨fromDict write.reservation.toDict, { network with
    config := specToWrite write.storedAt write.reservation write.agentSpec }, ?_, ?_⟩
  · unfold Write.document reconstruct
    dsimp only
    rw [getOrEmpty_specToWrite]
    dsimp only
    rw [hreservation]
    dsimp only
    rw [hexpiration, halive, hid]
    dsimp only
    unfold agentNetworkOf
    dsimp only
    rw [hname]
    rfl
  · constructor
    · rfl
    · exact getOrNone_getD write.reservation.toDict (str "lifetime_in_seconds")
    · exact getOrNone_getD write.reservation.toDict (str "expiration_time_in_seconds")
    · obtain ⟨agentSpecMap, -, rfl⟩ := exists_of_map_eq_ok hnetwork
      rfl
    · intro key hkey
      exact (lookup_specToWrite write key).trans (if_neg hkey)
    · refine ⟨metadataToWrite write.storedAt write.reservation write.agentSpec, ?_, ?_⟩
      · exact (lookup_specToWrite write _).trans (if_pos rfl)
      · intro key hreservation' hstored
        rw [lookup_metadataToWrite, if_neg hstored, if_neg hreservation']

/-- The lookup of an id reads the file of its name. -/
theorem getOneReservation_of_file {Network : Type*}
    {agentNetwork : Json → Option Json → Option Network} {id : PyStr} {path : List PyStr}
    (hpath : pathFor basePath id = .ok path) {fileName : FileName}
    (hname : fileNameOf id = some fileName) {bytes : List UInt8}
    (hbytes : directory.get? fileName = some bytes) {v : Json}
    (hparse : parseBody limit bytes = .ok (some v)) :
    getOneReservation limit basePath agentNetwork directory now id =
      .ok (reconstruct agentNetwork now v) := by
  unfold getOneReservation
  rw [hpath]
  dsimp only
  unfold readReservationFile
  rw [fileNameOf_eq hpath, hname]
  dsimp only
  rw [hbytes]
  dsimp only
  rw [hparse]
  cases v <;> rfl

end Reading

/-! ## Over batches -/

section Batches

variable {room limit : Nat} {basePath : BasePath} {extractorGet : ExtractorGet}
  {formatOther : Option Json → PyStr} {directory : Directory} {now : ℚ}

/-- A write touches one file, its own. -/
theorem get?_writeOneReservation {write : Write} {fileName : FileName}
    (h : ∀ bytes, prepareWrite room basePath write ≠ .ok (fileName, bytes)) :
    (writeOneReservation room basePath directory write).get? fileName =
      directory.get? fileName := by
  unfold writeOneReservation
  split
  · rename_i name bytes hprepare
    have hne : fileName ≠ name := by
      rintro rfl
      exact h bytes hprepare
    rw [Dict.get?_set, if_neg hne]
  · rfl

/-- Writes to other files leave a file alone. -/
theorem get?_writeAll {writes : List Write} {fileName : FileName}
    (h : ∀ write ∈ writes, ∀ bytes, prepareWrite room basePath write ≠ .ok (fileName, bytes)) :
    (writeAll room basePath directory writes).get? fileName = directory.get? fileName := by
  induction writes generalizing directory with
  | nil => rfl
  | cons write rest ih =>
      show (writeAll room basePath (writeOneReservation room basePath directory write) rest).get?
        fileName = _
      rw [ih fun other hother => h other (List.mem_cons_of_mem _ hother)]
      exact get?_writeOneReservation (h write List.mem_cons_self)

variable (room basePath) in
/-- The last write for an id that did not raise. -/
def LastWritten (writes : List Write) (id : PyStr) (write : Write) : Prop :=
  ∃ before after, writes = before ++ write :: after ∧
    strip write.reservation.getReservationId = strip id ∧
    (∃ file, prepareWrite room basePath write = .ok file) ∧
    ∀ later ∈ after, strip later.reservation.getReservationId = strip id →
      ∀ file, prepareWrite room basePath later ≠ .ok file

/-- What was written for an id, was written last by some write. -/
theorem exists_lastWritten {writes : List Write} {id : PyStr}
    (h : ∃ write ∈ writes, strip write.reservation.getReservationId = strip id ∧
      ∃ file, prepareWrite room basePath write = .ok file) :
    ∃ last, LastWritten room basePath writes id last := by
  induction writes with
  | nil =>
      obtain ⟨write, hmem, -⟩ := h
      exact absurd hmem List.not_mem_nil
  | cons first rest ih =>
      by_cases hlater : ∃ later ∈ rest, strip later.reservation.getReservationId = strip id ∧
          ∃ file, prepareWrite room basePath later = .ok file
      · obtain ⟨last, before, after, rfl, hlast⟩ := ih hlater
        exact ⟨last, first :: before, after, rfl, hlast⟩
      · obtain ⟨write, hmem, hid, hfile⟩ := h
        rcases List.mem_cons.mp hmem with rfl | hmem
        · refine ⟨write, [], rest, rfl, hid, hfile, fun later hmem hid' file hfile' => ?_⟩
          exact hlater ⟨later, hmem, hid', file, hfile'⟩
        · exact absurd ⟨write, hmem, hid, hfile⟩ hlater

/-- After the last write for an id, its file holds what that wrote. -/
theorem get?_lastWritten {writes : List Write} {id : PyStr} {write : Write}
    (hscalar : ∀ write ∈ writes, isScalarText write.reservation.getReservationId = true)
    (h : LastWritten room basePath writes id write) :
    ∃ path fileName bytes, pathFor basePath id = .ok path ∧ fileNameOf id = some fileName ∧
      prepareWrite room basePath write = .ok (fileName, bytes) ∧
      (writeAll room basePath directory writes).get? fileName = some bytes := by
  obtain ⟨before, after, rfl, hid, ⟨⟨fileName, bytes⟩, hfile⟩, hafter⟩ := h
  obtain ⟨path, body, hpath, -, hname, -⟩ := prepareWrite_ok.mp hfile
  have hpath' : pathFor basePath id = .ok path := by
    rw [pathFor_eq] at hpath ⊢
    rw [← hid]
    exact hpath
  rw [fileNameOf_eq hpath] at hname
  have hname' : fileNameOf id = some fileName := by
    unfold fileNameOf at hname ⊢
    rw [← hid]
    exact hname
  refine ⟨path, fileName, bytes, hpath', hname', hfile, ?_⟩
  have hothers : ∀ later ∈ after, ∀ bytes,
      prepareWrite room basePath later ≠ .ok (fileName, bytes) := by
    intro later hmem bytes' hlater
    obtain ⟨path', body', hpath'', -, hname'', -⟩ := prepareWrite_ok.mp hlater
    rw [fileNameOf_eq hpath''] at hname''
    have hstrip := strip_eq_of_fileName
      (hscalar later (List.mem_append_right _ (List.mem_cons_of_mem _ hmem)))
      (hscalar write (List.mem_append_right _ List.mem_cons_self)) hname'' hname
    exact hafter later hmem (hstrip.trans hid) _ hlater
  unfold writeAll
  rw [List.foldl_append, List.foldl_cons]
  have hset : writeOneReservation room basePath
      (before.foldl (writeOneReservation room basePath) directory) write =
      (before.foldl (writeOneReservation room basePath) directory).set fileName bytes := by
    unfold writeOneReservation
    rw [hfile]
  rw [hset]
  refine (get?_writeAll hothers).trans ?_
  rw [Dict.get?_set, if_pos rfl]

/-- The lookup of an id returns what was written for it last, until that
expires. -/
theorem getOneReservation_lastWritten {writes : List Write} {id : PyStr} {write : Write}
    (hscalar : ∀ write ∈ writes, isScalarText write.reservation.getReservationId = true)
    (h : LastWritten room basePath writes id write)
    (hreadable : write.Readable limit extractorGet now) :
    ∃ stored network,
      getOneReservation limit basePath (agentNetworkOf extractorGet formatOther)
          (writeAll room basePath directory writes) now id = .ok (some (stored, network)) ∧
        ReadsBack formatOther write stored network := by
  obtain ⟨path, fileName, bytes, hpath, hname, hfile, hbytes⟩ := get?_lastWritten hscalar h
  have hparse := parseBody_prepareWrite hreadable.wellFormed hreadable.depth hfile
  obtain ⟨stored, network, hreconstruct, hback⟩ := reconstruct_document hreadable
  refine ⟨stored, network, ?_, hback⟩
  rw [getOneReservation_of_file hpath hname hbytes hparse]
  exact congrArg Except.ok hreconstruct

/-- A write for an id changes no lookup of another. -/
theorem getOneReservation_writeOneReservation {Network : Type*}
    (agentNetwork : Json → Option Json → Option Network) {write : Write} {id : PyStr}
    (hwrite : isScalarText write.reservation.getReservationId = true)
    (hid : isScalarText id = true)
    (hother : strip write.reservation.getReservationId ≠ strip id) :
    getOneReservation limit basePath agentNetwork
      (writeOneReservation room basePath directory write)
        now id =
      getOneReservation limit basePath agentNetwork directory now id := by
  unfold getOneReservation
  cases hpath : pathFor basePath id with
  | error message => rfl
  | ok path =>
      have hread : readReservationFile limit (writeOneReservation room basePath directory write)
          path = readReservationFile limit directory path := by
        unfold readReservationFile
        cases hname : fsencode (path.getLastD []) with
        | none => rfl
        | some fileName =>
            dsimp only
            rw [get?_writeOneReservation fun bytes hprepare => ?_]
            obtain ⟨path', body, hpath', -, hname', -⟩ := prepareWrite_ok.mp hprepare
            rw [fileNameOf_eq hpath'] at hname'
            rw [fileNameOf_eq hpath] at hname
            exact hother (strip_eq_of_fileName hwrite hid hname' hname)
      dsimp only
      rw [hread]

/-- A batch that returned has done all its writes. -/
theorem AddReservations.mem_done {batch done : List Write}
    (h : AddReservations room basePath batch done)
    (hreturned : ∀ write ∈ batch, ∃ file, prepareWrite room basePath write = .ok file)
    {write : Write} (hmem : write ∈ batch) : write ∈ done :=
  (h.returned hreturned).mem_iff.mpr hmem

/-- Reservations round-trip, over any sequence of batches whose ids have no
surrogates, the writes of a batch in any order: the lookup of an id of a batch
that returned finds what was written for it last, until that expires, and no
write changes the lookup of an id that differs in more than the blanks around
it. -/
theorem round_trip (extractorGet : ExtractorGet) (formatOther : Option Json → PyStr)
    (room limit : Nat) (basePath : BasePath) (directory : Directory)
    (batches : List (List Write × List Write))
    (hbatches : ∀ batch ∈ batches, AddReservations room basePath batch.1 batch.2)
    (hscalar : ∀ batch ∈ batches, ∀ write ∈ batch.1,
      isScalarText write.reservation.getReservationId = true) :
    (∀ batch ∈ batches,
      (∀ write ∈ batch.1, ∃ file, prepareWrite room basePath write = .ok file) →
      ∀ write ∈ batch.1, ∃ last, LastWritten room basePath (batches.flatMap Prod.snd)
        write.reservation.getReservationId last) ∧
    (∀ id write, LastWritten room basePath (batches.flatMap Prod.snd) id write →
      ∀ now, write.Readable limit extractorGet now →
        ∃ stored network,
          getOneReservation limit basePath (agentNetworkOf extractorGet formatOther)
              (writeAll room basePath directory (batches.flatMap Prod.snd)) now id =
            .ok (some (stored, network)) ∧
          ReadsBack formatOther write stored network) ∧
    (∀ directory, ∀ batch ∈ batches, ∀ write ∈ batch.1, ∀ id, isScalarText id = true →
      strip write.reservation.getReservationId ≠ strip id → ∀ now,
        getOneReservation limit basePath (agentNetworkOf extractorGet formatOther)
            (writeOneReservation room basePath directory write) now id =
          getOneReservation limit basePath (agentNetworkOf extractorGet formatOther) directory now
            id) := by
  have hdone : ∀ write ∈ batches.flatMap Prod.snd,
      isScalarText write.reservation.getReservationId = true := by
    intro write hmem
    obtain ⟨batch, hbatch, hwrite⟩ := List.mem_flatMap.mp hmem
    exact hscalar batch hbatch write ((hbatches batch hbatch).ofBatch.subset hwrite)
  refine ⟨fun batch hbatch hreturned write hwrite => ?_, fun id write hlast now hreadable => ?_,
    fun directory batch hbatch write hwrite id hid hother now => ?_⟩
  · have hmem := (hbatches batch hbatch).mem_done hreturned hwrite
    exact exists_lastWritten ⟨write, List.mem_flatMap.mpr ⟨batch, hbatch, hmem⟩, rfl,
      hreturned write hwrite⟩
  · exact getOneReservation_lastWritten hdone hlast hreadable
  · exact getOneReservation_writeOneReservation _ (hscalar batch hbatch write hwrite) hid hother

end Batches

/-! ## Two ids, one file -/

section TwoIds

/-- A directory without files. -/
def emptyDirectory : Directory := ⟨[], List.nodup_nil⟩

/-- A write of a small network that expires at 100. -/
def smallWrite (id : String) : Write where
  reservation := ⟨str id, [], .int 60, .float (.fin 100)⟩
  agentSpec := [(str "tools", .arr [.obj [(str "name", .str (str "front"))]])]
  storedAt := 81 / 2

/-- Another one, with metadata, that expires at 200. -/
def laterWrite (id : String) : Write where
  reservation := ⟨str id, [], .int 160, .int 200⟩
  agentSpec := [(str "metadata", .obj [(str "tags", .arr [.str (str "new")])]),
    (str "tools", .arr [.obj [(str "name", .str (str "guide"))]])]
  storedAt := 60

theorem exists_prepared {write : Write}
    (h : (prepareWrite 1000 srv write).toOption.isSome = true) :
    ∃ file, prepareWrite 1000 srv write = .ok file := by
  cases hfile : prepareWrite 1000 srv write with
  | ok file => exact ⟨file, rfl⟩
  | error e =>
      rw [hfile] at h
      cases h

/-- Two batches, of which the second has an id of the first again. The writes of
the first are done in another order. -/
def twoBatchesOfWrites : List (List Write × List Write) :=
  [([smallWrite "a", smallWrite "b"], [smallWrite "b", smallWrite "a"]),
    ([laterWrite "a"], [laterWrite "a"])]

/-- The one id reads what the second batch wrote for it, also after what the first
wrote has expired, and the other what the first batch wrote. -/
theorem round_trip_twoBatches :
    (∃ stored network,
      getOneReservation 1000 srv (agentNetworkOf dictionaryGet fun _ => [])
          (writeAll 1000 srv emptyDirectory (twoBatchesOfWrites.flatMap Prod.snd)) 150 (str "a") =
        .ok (some (stored, network)) ∧
      ReadsBack (fun _ => []) (laterWrite "a") stored network) ∧
    ∃ stored network,
      getOneReservation 1000 srv (agentNetworkOf dictionaryGet fun _ => [])
          (writeAll 1000 srv emptyDirectory (twoBatchesOfWrites.flatMap Prod.snd)) 50 (str "b") =
        .ok (some (stored, network)) ∧
      ReadsBack (fun _ => []) (smallWrite "b") stored network := by
  have hround := round_trip dictionaryGet (fun _ => []) 1000 1000 srv emptyDirectory
    twoBatchesOfWrites
    (by
      intro batch hbatch
      rcases List.mem_cons.mp hbatch with rfl | hbatch
      · exact ⟨(List.Perm.swap _ _ _).subperm, fun _ => .swap _ _ _⟩
      · obtain rfl := List.mem_singleton.mp hbatch
        exact ⟨List.Subperm.refl _, fun _ => List.Perm.refl _⟩)
    (by decide)
  refine ⟨hround.2.1 (str "a") (laterWrite "a") ?_ 150 ⟨?_, by decide, ⟨_, rfl⟩, by decide +kernel⟩,
    hround.2.1 (str "b") (smallWrite "b") ?_ 50 ⟨?_, by decide, ⟨_, rfl⟩, by decide +kernel⟩⟩
  · exact ⟨[smallWrite "b", smallWrite "a"], [], rfl, rfl, exists_prepared (by decide +kernel),
      fun later hlater => absurd hlater List.not_mem_nil⟩
  · exact ⟨by decide, rfl, by decide +kernel, by decide, by decide +kernel⟩
  · refine ⟨[], [smallWrite "a", laterWrite "a"], rfl, rfl, exists_prepared (by decide +kernel), ?_⟩
    -- the writes after it are for the other id
    intro later hlater hid
    rcases List.mem_cons.mp hlater with rfl | hlater
    · exact absurd hid (by decide)
    · obtain rfl := List.mem_singleton.mp hlater
      exact absurd hid (by decide)
  · exact ⟨by decide, rfl, by decide +kernel, by decide, by decide +kernel⟩

/-- The id of the reservation a lookup returned. -/
def returnedId : Except Raised (Option (StoredReservation × AgentNetwork)) → Option PyStr
  | .ok (some (⟨some (.str id), _, _⟩, _)) => some id
  | _ => none

/-- A write for an id with a blank in front changes what the id without it
reads. -/
theorem blank_id_overwrites :
    ¬ ∀ (directory : Directory) (write : Write) (id : PyStr),
      (∃ path, pathFor srv write.reservation.getReservationId = .ok path) →
      (∃ path, pathFor srv id = .ok path) → write.reservation.getReservationId ≠ id → ∀ now,
        getOneReservation 1000 srv (agentNetworkOf dictionaryGet fun _ => [])
            (writeOneReservation 1000 srv directory write) now id =
          getOneReservation 1000 srv (agentNetworkOf dictionaryGet fun _ => []) directory now
            id := by
  intro h
  have hframe := h (writeAll 1000 srv emptyDirectory [smallWrite "a"]) (smallWrite " a") (str "a")
    ⟨_, rfl⟩ ⟨_, rfl⟩ (by decide) 50
  have hbefore : returnedId (getOneReservation 1000 srv
      (agentNetworkOf dictionaryGet fun _ => [])
      (writeAll 1000 srv emptyDirectory [smallWrite "a"]) 50 (str "a")) = some (str "a") := by
    decide +kernel
  have hafter : returnedId (getOneReservation 1000 srv
      (agentNetworkOf dictionaryGet fun _ => [])
      (writeOneReservation 1000 srv (writeAll 1000 srv emptyDirectory [smallWrite "a"])
        (smallWrite " a")) 50 (str "a")) = some (str " a") := by
    decide +kernel
  rw [hframe, hbefore] at hafter
  exact absurd hafter (by decide)

end TwoIds

end NoraFleet.LocalStore
