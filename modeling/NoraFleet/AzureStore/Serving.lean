import NoraFleet.AzureStore.Blobs
import NoraFleet.S3Store.Expiration

/-!
# What the Azure store serves and sweeps

The writer stores a reservation without its spec, under its id without its
prefix, and the reader returns the metadata of the blob in place of a network. So
nothing that was stored is ever served. The sweep is right about blobs of the
writer with a positive expiration time, but other shapes make it raise, before it
has deleted anything.

* `readBlob_document` — what is read of a blob that was written;
* `getOneReservation_set_prefixed` — a reservation with a prefix is stored where it
  is not looked up;
* `not_returnsProvider` — no provider is of what the reader returns;
* `sweepsContainer_iff` — when the sweep deletes what it should;
* `azure_store_iff` — both together.
-/

namespace NoraFleet.AzureStore

open Base Stores Networks

/-! ## Reading what was written -/

section Serving

variable {room limit : Nat} {keyPrefix : PyStr} {container : Container}

/-- What is read of a blob that was written: its reservation, but with metadata in
place of a network. -/
theorem readBlob_document {upload : Upload} (hwell : upload.document.wellFormed = true)
    (hdepth : upload.document.depth ≤ limit) {text : PyStr} {blobContent : List UInt8}
    (htext : Json.dumps ⟨1, 1, none⟩ room upload.document = .ok text)
    (hcontent : utf8EncodeText text = some blobContent) (objKey : PyStr) :
    ∃ stored, readBlob limit objKey blobContent =
        (some stored, some (.metadata upload.metadata)) ∧
      stored.id = some (.str upload.reservation.id) ∧
      stored.expirationTimeInSeconds.getD .null = upload.reservation.expirationTimeInSeconds := by
  refine ⟨LocalStore.fromDict (fauxDict objKey upload.metadata), ?_, rfl, ?_⟩
  · unfold readBlob
    rw [utf8Decode_utf8EncodeText hcontent]
    dsimp only
    rw [Json.loads_dumps hwell hdepth htext]
    rfl
  · exact LocalStore.getOrNone_getD _ _

/-- A reservation with a prefix is stored where its id is not looked up. -/
theorem getOneReservation_set_prefixed {upload : Upload} (h : upload.reservation.idPrefix ≠ [])
    (blobContent : List UInt8) :
    getOneReservation limit keyPrefix (container.set (upload.blobName keyPrefix) blobContent)
        upload.reservation.getReservationId =
      getOneReservation limit keyPrefix container upload.reservation.getReservationId := by
  have hother : keyPrefix ++ upload.reservation.getReservationId ++ str ".json" ≠
      upload.blobName keyPrefix := by
    unfold Upload.blobName Reservation.getReservationId
    intro heq
    have hlength := congrArg List.length heq
    have hpos := List.length_pos_iff.mpr h
    simp only [List.length_append] at hlength
    omega
  unfold getOneReservation
  rw [Dict.get?_set, if_neg hother]

/-- A reservation without a prefix is found, with its id and its expiration. -/
theorem getOneReservation_set_unprefixed {upload : Upload}
    (hunprefixed : upload.reservation.idPrefix = []) (hwell : upload.document.wellFormed = true)
    (hdepth : upload.document.depth ≤ limit) {text : PyStr} {blobContent : List UInt8}
    (htext : Json.dumps ⟨1, 1, none⟩ room upload.document = .ok text)
    (hcontent : utf8EncodeText text = some blobContent) :
    ∃ stored,
      getOneReservation limit keyPrefix (container.set (upload.blobName keyPrefix) blobContent)
          upload.reservation.getReservationId =
        (some stored, some (.metadata upload.metadata)) ∧
      stored.id = some (.str upload.reservation.getReservationId) ∧
      stored.expirationTimeInSeconds.getD .null = upload.reservation.expirationTimeInSeconds := by
  have hid : upload.reservation.getReservationId = upload.reservation.id := by
    unfold Reservation.getReservationId
    rw [hunprefixed]
    rfl
  have hname : keyPrefix ++ upload.reservation.id ++ str ".json" = upload.blobName keyPrefix := rfl
  unfold getOneReservation
  rw [hid, Dict.get?_set, if_pos hname]
  exact readBlob_document hwell hdepth htext hcontent _

/-- The lookup of an id returns a network. -/
def ReturnsNetwork (limit : Nat) (keyPrefix : PyStr) (container : Container) (id : PyStr) :
    Prop :=
  ∃ stored agentNetwork,
    getOneReservation limit keyPrefix container id = (stored, some (.network agentNetwork))

/-- The storage that has the reader as its base storage, and no reservation of that
name itself, returns a provider. -/
def ReturnsProvider (limit : Nat) (keyPrefix : PyStr) (container : Container) (id : PyStr) :
    Prop :=
  ∃ getSizeInBytes now tables tables' agentNetwork,
    tables.reservationsTable.get? id = none ∧
    getAgentNetworkProvider getSizeInBytes (getOneReservation limit keyPrefix container) now id
      tables = .ok (tables', some agentNetwork)

theorem not_returnsNetwork (id : PyStr) : ¬ ReturnsNetwork limit keyPrefix container id := by
  rintro ⟨stored, agentNetwork, h⟩
  unfold getOneReservation readBlob at h
  split at h
  · cases h
  · split at h
    · cases h
    · split at h
      · split at h
        · cases h
        · cases h
      · cases h

/-- No provider is of what the reader returns. -/
theorem not_returnsProvider (id : PyStr) : ¬ ReturnsProvider limit keyPrefix container id := by
  rintro ⟨getSizeInBytes, now, tables, tables', agentNetwork, hnone, h⟩
  unfold getAgentNetworkProvider at h
  rw [hnone] at h
  dsimp only at h
  cases hfound : getOneReservation limit keyPrefix container id with
  | mk stored data =>
      rw [hfound] at h
      cases stored with
      | none => cases h
      | some reservation =>
          dsimp only at h
          split at h
          · cases h
          · cases h
          · cases data with
            | none => cases h
            | some data =>
                cases data with
                | network agentNetwork =>
                    exact not_returnsNetwork id ⟨some reservation, agentNetwork, hfound⟩
                | metadata metadata => cases h

end Serving

/-! ## The sweep -/

section Sweeping

/-- Where the sweep finds an expiration time. -/
def expirationPath : List PyStr := [str "metadata", str "expiration_time_in_seconds"]

/-- The blob is a reservation that expired before `t`: its expiration time is a
number below. -/
def Expired (limit : Nat) (t : ℚ) (blobContent : List UInt8) : Prop :=
  ∃ text v e, utf8Decode blobContent = some text ∧ Json.loads limit text = .ok v ∧
    v.atPath expirationPath = some e ∧ e.Below t

/-- The expiration times that the sweep is right about: a positive number, one
that is not below `t`, and a boolean that is not taken for one. -/
def PlainExpiration (t : ℚ) : Json → Prop
  | .int n => n > 0 ∨ t ≤ n
  | .float x => Double.lt (.fin 0) x = true ∨ Double.lt x (.fin t) = false
  | .bool b => b = true → t ≤ 1
  | _ => False

/-- The blobs that the sweep is right about: those that it cannot decode, that are
no JSON or no dictionary, or have an integer with too many digits; and
dictionaries without metadata, or with metadata that are a dictionary and have no
expiration time or a plain one. -/
def Sweepable (limit : Nat) (t : ℚ) (blobContent : List UInt8) : Prop :=
  match utf8Decode blobContent with
  | none => True
  | some text =>
      match Json.loads limit text with
      | .error .recursionError => False
      | .error _ => True
      | .ok (.obj jsonData) =>
          match Json.lookup jsonData (str "metadata") with
          | none => True
          | some (.obj metadata) =>
              match Json.lookup metadata (str "expiration_time_in_seconds") with
              | none => True
              | some e => PlainExpiration t e
          | some _ => False
      | .ok _ => True

variable {limit : Nat} {t : ℚ}

/-- The comparison is right exactly about the plain ones. -/
theorem plainExpiration_iff {e : Json} :
    (∃ exceeds, LocalStore.nowExceeds t (some e) = some exceeds ∧
      ((exceeds && isPositive e) = true ↔ e.Below t)) ↔ PlainExpiration t e := by
  have hnumber : ∀ exceeds positive : Bool, (exceeds = true ↔ e.Below t) →
      (((exceeds && positive) = true ↔ e.Below t) ↔ positive = true ∨ exceeds = false) := by
    intro exceeds positive h
    rw [← h]
    cases exceeds <;> cases positive <;> simp
  cases e with
  | int n =>
      have hint : S3Store.isNumber (.int n) = true := rfl
      have hexceeds : decide (t > n) = true ↔ (Json.int n).Below t := S3Store.exceeds_iff hint
      show (∃ exceeds, some (decide (t > n)) = some exceeds ∧ _) ↔ n > 0 ∨ t ≤ n
      simp only [Option.some.injEq, exists_eq_left']
      rw [hnumber _ _ hexceeds]
      simp [isPositive]
  | float x =>
      have hfloat : S3Store.isNumber (.float x) = true := rfl
      have hexceeds : Double.lt x (.fin t) = true ↔ (Json.float x).Below t :=
        S3Store.exceeds_iff hfloat
      show (∃ exceeds, some (Double.lt x (.fin t)) = some exceeds ∧ _) ↔
        Double.lt (.fin 0) x = true ∨ Double.lt x (.fin t) = false
      simp only [Option.some.injEq, exists_eq_left']
      exact hnumber _ _ hexceeds
  | bool b =>
      show (∃ exceeds, some (decide (t > if b then 1 else 0)) = some exceeds ∧ _) ↔
        (b = true → t ≤ 1)
      cases b <;> simp [isPositive, Json.Below, Json.place]
  | _ =>
      refine iff_of_false ?_ id
      rintro ⟨exceeds, h, -⟩
      cases h

/-- Only what can be parsed is a reservation. -/
theorem expired_iff {blobContent : List UInt8} {text : PyStr} {v : Json}
    (hdecode : utf8Decode blobContent = some text) (hloads : Json.loads limit text = .ok v) :
    Expired limit t blobContent ↔ ∃ e, v.atPath expirationPath = some e ∧ e.Below t := by
  constructor
  · rintro ⟨text', v', e, hdecode', hloads', hpath, hbelow⟩
    obtain rfl := Option.some.inj (hdecode.symm.trans hdecode')
    obtain rfl := Except.ok.inj (hloads.symm.trans hloads')
    exact ⟨e, hpath, hbelow⟩
  · rintro ⟨e, hpath, hbelow⟩
    exact ⟨text, v, e, hdecode, hloads, hpath, hbelow⟩

theorem not_expired_of_loads_error {blobContent : List UInt8} {text : PyStr} {error : LoadError}
    (hdecode : utf8Decode blobContent = some text) (hloads : Json.loads limit text = .error error) :
    ¬ Expired limit t blobContent := by
  rintro ⟨text', v, e, hdecode', hloads', -⟩
  obtain rfl := Option.some.inj (hdecode.symm.trans hdecode')
  rw [hloads] at hloads'
  cases hloads'

/-- The sweep is right exactly about the sweepable blobs. -/
theorem expireOneBlob_right_iff {blobContent : List UInt8} :
    Sweep.RightAbout (expireOneBlob limit t) (Expired limit t) blobContent ↔
      Sweepable limit t blobContent := by
  unfold Sweep.RightAbout expireOneBlob Sweepable
  cases hdecode : utf8Decode blobContent with
  | none =>
      refine iff_of_true ⟨false, rfl, ?_⟩ trivial
      refine iff_of_false Bool.false_ne_true ?_
      rintro ⟨text, v, e, hdecode', -⟩
      rw [hdecode] at hdecode'
      cases hdecode'
  | some text =>
      dsimp only
      cases hloads : Json.loads limit text with
      | error error =>
          have hnot := not_expired_of_loads_error (t := t) hdecode hloads
          cases error with
          | recursionError =>
              refine iff_of_false ?_ id
              rintro ⟨delete, h, -⟩
              cases h
          | _ => exact iff_of_true ⟨false, rfl, iff_of_false Bool.false_ne_true hnot⟩ trivial
      | ok v =>
          have hexpired := expired_iff (t := t) hdecode hloads
          -- what has no expiration time counts as 0, which is not positive
          have hzero : (Except.ok (decide (t > ((0 : ℤ) : ℚ)) && isPositive (.int 0)) :
              Except PyError Bool) = .ok false := congrArg Except.ok (Bool.and_false _)
          have hkept : v.atPath expirationPath = none → ¬ Expired limit t blobContent := by
            intro hnone hyes
            obtain ⟨e, he, -⟩ := hexpired.mp hyes
            rw [hnone] at he
            cases he
          cases v with
          | obj jsonData =>
              have hpath : (Json.obj jsonData).atPath expirationPath = _ :=
                Json.atPath_obj jsonData (str "metadata") [str "expiration_time_in_seconds"]
              dsimp only
              cases hmetadata : Json.lookup jsonData (str "metadata") with
              | none =>
                  rw [hmetadata] at hpath
                  exact iff_of_true ⟨false, hzero, iff_of_false Bool.false_ne_true (hkept hpath)⟩
                    trivial
              | some metadata =>
                  rw [hmetadata, Option.bind_some] at hpath
                  rw [Option.getD_some]
                  cases metadata with
                  | obj members =>
                      rw [Json.atPath_obj] at hpath
                      dsimp only
                      cases he : Json.lookup members (str "expiration_time_in_seconds") with
                      | none =>
                          rw [he] at hpath
                          exact iff_of_true
                            ⟨false, hzero, iff_of_false Bool.false_ne_true (hkept hpath)⟩ trivial
                      | some e =>
                          rw [he, Option.bind_some] at hpath
                          have hhere : (Json.obj jsonData).atPath expirationPath = some e :=
                            hpath.trans (by cases e <;> rfl)
                          rw [Option.getD_some, hexpired, hhere]
                          simp only [Option.some.injEq, exists_eq_left']
                          rw [← plainExpiration_iff]
                          cases LocalStore.nowExceeds t (some e) <;> simp
                  | _ =>
                      refine iff_of_false ?_ id
                      rintro ⟨delete, h, -⟩
                      cases h
          | _ => exact iff_of_true ⟨false, rfl, iff_of_false Bool.false_ne_true (hkept rfl)⟩ trivial

variable {keyPrefix : PyStr} {container : Container}

variable (limit t keyPrefix container) in
/-- What is asked of a sweep: it returns, having deleted exactly the blobs under the
prefix whose reservation has expired. -/
structure SweepsContainer (swept : Container) : Prop where
  returns : expireReservations limit keyPrefix t container = .ok swept
  deletesExactly : ∀ blobName blobContent, container.get? blobName = some blobContent →
    (swept.get? blobName = none ↔
      keyPrefix.isPrefixOf blobName = true ∧ Expired limit t blobContent)
  leavesOthers : ∀ blobName,
    swept.get? blobName = none ∨ swept.get? blobName = container.get? blobName

/-- What is left after the deletions. -/
theorem get?_deleted (blobsToDelete : List PyStr) (blobName : PyStr) :
    ((Sweep.batches batchSize blobsToDelete).foldl Dict.popAll container).get? blobName =
      if blobName ∈ blobsToDelete then none else container.get? blobName := by
  rw [Sweep.foldl_popAll_batches container (by decide : 0 < batchSize) blobsToDelete blobName]
  by_cases hmem : blobName ∈ blobsToDelete
  · rw [if_pos hmem, if_pos hmem]
  · rw [if_neg hmem, if_neg hmem]

/-- A blob is scanned exactly if its name is under the prefix. -/
theorem mem_scanned {blobName : PyStr} {blobContent : List UInt8}
    (h : container.get? blobName = some blobContent) :
    blobName ∈ container.keys.filter (fun blobName => keyPrefix.isPrefixOf blobName) ↔
      keyPrefix.isPrefixOf blobName = true := by
  rw [List.mem_filter]
  exact and_iff_right (Dict.mem_of_get?_eq_some h)

/-- The sweep does what it should exactly when it is right about all blobs under
the prefix. -/
theorem sweepsContainer_iff :
    (∃ swept, SweepsContainer limit t keyPrefix container swept) ↔
      ∀ blobName blobContent, container.get? blobName = some blobContent →
        keyPrefix.isPrefixOf blobName = true → Sweepable limit t blobContent := by
  -- what is collected is right if and only if every blob is judged right
  have hcollect : (∃ blobsToDelete, Sweep.collect (expireOneBlob limit t) container
        (container.keys.filter fun blobName => keyPrefix.isPrefixOf blobName) =
          .ok blobsToDelete ∧ _) ↔
      ∀ blobName ∈ container.keys.filter (fun blobName => keyPrefix.isPrefixOf blobName),
        ∀ blobContent, container.get? blobName = some blobContent →
          Sweep.RightAbout (expireOneBlob limit t) (Expired limit t) blobContent :=
    Sweep.collect_right_iff
  constructor
  · rintro ⟨swept, hreturns, hexactly, -⟩ blobName blobContent hcontent hunder
    unfold expireReservations at hreturns
    cases hfound : Sweep.collect (expireOneBlob limit t) container
        (container.keys.filter fun blobName => keyPrefix.isPrefixOf blobName) with
    | error e =>
        rw [hfound] at hreturns
        cases hreturns
    | ok blobsToDelete =>
        rw [hfound] at hreturns
        cases hreturns
        refine expireOneBlob_right_iff.mp (hcollect.mp ⟨blobsToDelete, hfound, ?_⟩ blobName
          ((mem_scanned hcontent).mpr hunder) blobContent hcontent)
        intro name content hname
        have hgone := hexactly name content hname
        rw [get?_deleted, hname] at hgone
        rw [mem_scanned hname, ← hgone]
        simp
  · intro h
    obtain ⟨blobsToDelete, hfound, hexactly⟩ := hcollect.mpr
      fun blobName hname blobContent hcontent => expireOneBlob_right_iff.mpr
        (h blobName blobContent hcontent ((mem_scanned hcontent).mp hname))
    refine ⟨(Sweep.batches batchSize blobsToDelete).foldl Dict.popAll container, ?_, ?_, ?_⟩
    · unfold expireReservations
      rw [hfound]
    · intro blobName blobContent hcontent
      rw [get?_deleted, hcontent, ← mem_scanned hcontent, ← hexactly blobName blobContent hcontent]
      simp
    · intro blobName
      rw [get?_deleted]
      split
      · exact .inl rfl
      · exact .inr rfl

end Sweeping

/-! ## Both -/

/-- Nothing that was stored is served; and the sweep does what it should exactly
when it is right about all blobs under the prefix. -/
theorem azure_store_iff (room limit : Nat) (keyPrefix : PyStr) :
    (∀ batch container container',
      addReservations room keyPrefix batch container = (container', none) →
      ∀ upload ∈ batch,
        ¬ ReturnsNetwork limit keyPrefix container' upload.reservation.getReservationId ∧
        ¬ ReturnsProvider limit keyPrefix container' upload.reservation.getReservationId) ∧
    ∀ (t : ℚ) (container : Container),
      (∃ swept, SweepsContainer limit t keyPrefix container swept) ↔
        ∀ blobName blobContent, container.get? blobName = some blobContent →
          keyPrefix.isPrefixOf blobName = true → Sweepable limit t blobContent :=
  ⟨fun _ _ _ _ _ _ => ⟨not_returnsNetwork _, not_returnsProvider _⟩,
    fun _ _ => sweepsContainer_iff⟩

/-! ## One reservation -/

section OneReservation

/-- A reservation until 10, with a prefix or without, and a spec, stored at 1. -/
def untilTen (idPrefix : String) : Upload where
  reservation := ⟨str "u", str idPrefix, .float (.fin 9), .float (.fin 10)⟩
  agentSpec := [(str "tools", .arr [])]
  storedAt := 1
  attempt _ := .uploaded

/-- A container with metadata that are null, and an expired reservation. -/
def nullMetadata : Container :=
  ⟨[(str "reservations/a.json", (str "\x7b\"metadata\":null\x7d").map UInt8.ofNat),
    (str "reservations/b.json",
      (str "\x7b\"metadata\":\x7b\"expiration_time_in_seconds\":5\x7d\x7d").map UInt8.ofNat)],
    by simp; decide⟩

/-- The container after one reservation. -/
def oneStored (idPrefix : String) : Container × Option PyError :=
  addReservations 1000 (str "reservations/") [untilTen idPrefix] .empty

/-- A reservation with a prefix is not found; one without is, but what is found
breaks the storage. And metadata that are null end the sweep. -/
theorem stored_not_served :
    ((oneStored "p-").2 = none ∧
      ¬ ReturnsNetwork 1000 (str "reservations/") (oneStored "p-").1 (str "p-u") ∧
      ¬ ReturnsProvider 1000 (str "reservations/") (oneStored "p-").1 (str "p-u")) ∧
    ((oneStored "").2 = none ∧
      ¬ ReturnsNetwork 1000 (str "reservations/") (oneStored "").1 (str "u") ∧
      ¬ ReturnsProvider 1000 (str "reservations/") (oneStored "").1 (str "u")) ∧
    ¬ ∃ swept, SweepsContainer 1000 100 (str "reservations/") nullMetadata swept := by
  refine ⟨⟨?_, not_returnsNetwork _, not_returnsProvider _⟩,
    ⟨?_, not_returnsNetwork _, not_returnsProvider _⟩, ?_⟩
  · decide +kernel
  · decide +kernel
  · rintro ⟨swept, hreturns, -, -⟩
    have hraises : (match expireReservations 1000 (str "reservations/") 100 nullMetadata with
        | .ok _ => none
        | .error e => some e) = some PyError.attributeError := by
      decide +kernel
    rw [hreturns] at hraises
    cases hraises

/-- What the lookups find: nothing, or metadata on which the storage raises. -/
example :
    (getOneReservation 1000 (str "reservations/") (oneStored "p-").1 (str "p-u")).1.isSome = false ∧
      (match getAgentNetworkProvider (fun _ => 0)
          (getOneReservation 1000 (str "reservations/") (oneStored "").1) 5 (str "u")
          ⟨.empty, .empty, .empty, .empty⟩ with
        | .ok _ => none
        | .error e => some e) = some PyError.attributeError := by
  decide +kernel

end OneReservation

end NoraFleet.AzureStore
