import NoraFleet.S3Store.Objects

/-!
# What the S3 sweep does

A body that is no JSON is caught where the object is expired, before the branch
that looks at its age, so such an object stays however old it is. A body that is
no UTF-8, an integer with too many digits or too deep a nesting are not caught:
they end the sweep, and the keys after the object are not visited.

* `expireAnyReservations_pages` — over the pages of a listing, the sweep is one
  loop over the keys of all pages;
* `expireOneReservation_eq` — the verdict on an object in terms of the value
  found under `metadata.reservation.expiration_time_in_seconds`;
* `sweepsBucket_iff` — the sweep is complete, selective and bounded exactly when
  every object under the prefix can be decoded and parsed, or is young and no
  JSON.
-/

namespace NoraFleet.S3Store

open Base

/-! ## Pages -/

/-- The pages that the listing serves from a token on. -/
inductive Serves (listObjectsV2 : Option PyStr → ListResponse) :
    Option PyStr → List (List PyStr) → Prop
  | last {token} : (listObjectsV2 token).isTruncated = false →
      Serves listObjectsV2 token [(listObjectsV2 token).contents]
  | more {token c next pages} : (listObjectsV2 token).isTruncated = true →
      (listObjectsV2 token).nextContinuationToken = some (c :: next) →
      Serves listObjectsV2 (some (c :: next)) pages →
      Serves listObjectsV2 token ((listObjectsV2 token).contents :: pages)

/-- The pages are a division of the keys of the bucket under a prefix. Keys are
not empty. -/
structure Listing (listObjectsV2 : Option PyStr → ListResponse) (bucket : Bucket)
    (keyPrefix : PyStr) (pages : List (List PyStr)) : Prop where
  serves : Serves listObjectsV2 none pages
  complete : ∀ key, key ∈ pages.flatten ↔ key ∈ bucket ∧ keyPrefix.isPrefixOf key = true
  named : ∀ key ∈ bucket, key ≠ []

/-- An object is listed exactly if its key is under the prefix. -/
theorem Listing.mem_pages {listObjectsV2 : Option PyStr → ListResponse} {bucket : Bucket}
    {keyPrefix : PyStr} {pages : List (List PyStr)}
    (h : Listing listObjectsV2 bucket keyPrefix pages) {key : PyStr} {object : S3Object}
    (hobject : bucket.get? key = some object) :
    key ∈ pages.flatten ↔ keyPrefix.isPrefixOf key = true := by
  rw [h.complete]
  exact and_iff_right (Dict.mem_of_get?_eq_some hobject)

section Pages

variable {limit : Nat} {extractorGet : List (PyStr × Json) → PyStr → Option Json} {t : ℚ}
  {listObjectsV2 : Option PyStr → ListResponse}

/-- Over the pages of a listing, the sweep is one loop over the keys of all
pages; as many pages as there are is enough. -/
theorem expireAnyReservations_pages {token : Option PyStr} {pages : List (List PyStr)}
    (hserves : Serves listObjectsV2 token pages) {fuel : Nat} (hfuel : pages.length ≤ fuel)
    {sweep : Sweep PyStr S3Object Raised} (hstart : sweep.raised = none) :
    expireAnyReservations limit extractorGet listObjectsV2 t fuel token sweep =
      some (sweep.loop (expireKey limit extractorGet t) pages.flatten) := by
  induction hserves generalizing fuel sweep with
  | last htruncated =>
      cases fuel with
      | zero => exact absurd hfuel (Nat.not_succ_le_zero _)
      | succ fuel =>
          unfold expireAnyReservations
          dsimp only
          rw [List.flatten_singleton, if_pos htruncated, ite_self]
  | @more token c next pages htruncated htoken _ ih =>
      cases fuel with
      | zero => exact absurd hfuel (Nat.not_succ_le_zero _)
      | succ fuel =>
          unfold expireAnyReservations
          dsimp only
          rw [List.flatten_cons, Sweep.loop_append _ hstart]
          by_cases hraised :
              (sweep.loop (expireKey limit extractorGet t) (listObjectsV2 token).contents).raised =
                none
          · have hmore : ¬ (listObjectsV2 token).isTruncated = false := by
              rw [htruncated]
              exact Bool.noConfusion
            rw [if_neg (not_not.mpr hraised), if_neg hmore, htoken, if_pos hraised]
            exact ih (Nat.le_of_succ_le_succ hfuel) hraised
          · rw [if_pos hraised, if_neg hraised]

end Pages

/-! ## One object -/

/-- Where the reservation of a stored agent spec is. -/
def reservationPath : List PyStr := [str "metadata", str "reservation"]

/-- The object is a reservation that expires at `e`: a dictionary under
`metadata.reservation` with a number as its expiration time. -/
def ParsesAs (limit : Nat) (object : S3Object) (e : Json) : Prop :=
  ∃ text v data, utf8Decode object.body = some text ∧ Json.loads limit text = .ok v ∧
    v.atPath reservationPath = some (.obj data) ∧
    Json.lookup data (str "expiration_time_in_seconds") = some e ∧ isNumber e = true

/-- The object is a reservation that expired before `t`. -/
def Expired (limit : Nat) (t : ℚ) (object : S3Object) : Prop :=
  ∃ e, ParsesAs limit object e ∧ e.Below t

/-- The object is no reservation. -/
def Malformed (limit : Nat) (object : S3Object) : Prop := ¬ ∃ e, ParsesAs limit object e

/-- What the sweep is to delete. -/
def ToDelete (limit : Nat) (t : ℚ) (object : S3Object) : Prop :=
  Expired limit t object ∨ Malformed limit object ∧ overdue t object = true

/-- The number that a document has as its expiration time, if it is a
reservation. -/
def numericExpiration (v : Json) : Option Json :=
  match v.atPath reservationPath with
  | some (.obj data) => (Json.lookup data (str "expiration_time_in_seconds")).filter isNumber
  | _ => none

/-- The verdict on an object. -/
def verdict (limit : Nat) (t : ℚ) (object : S3Object) : Except Raised Bool :=
  match retrieveObject limit object with
  | .error .jsonDecodeError => .ok false
  | .error e => .error e
  | .ok v =>
      match numericExpiration v with
      | some e => .ok (exceeds t e)
      | none => .ok (overdue t object)

/-- The objects the sweep is right about: those that can be decoded and parsed,
and those that are no JSON and not overdue. -/
def Sweepable (limit : Nat) (t : ℚ) (object : S3Object) : Prop :=
  match retrieveObject limit object with
  | .ok _ => True
  | .error .jsonDecodeError => overdue t object = false
  | .error _ => False

theorem exceeds_iff {t : ℚ} {e : Json} (h : isNumber e = true) :
    exceeds t e = true ↔ e.Below t := by
  cases e with
  | int n => simp [exceeds, Json.Below, Json.place]
  | float x =>
      cases x with
      | nan => simp [exceeds, Json.Below, Json.place, Double.lt, Double.place]
      | inf negative =>
          cases negative <;> simp [exceeds, Json.Below, Json.place, Double.lt, Double.place]
      | fin q => simp [exceeds, Json.Below, Json.place, Double.lt, Double.place]
  | _ => cases h

theorem numericExpiration_eq_some {v e : Json} :
    numericExpiration v = some e ↔
      ∃ data, v.atPath reservationPath = some (.obj data) ∧
        Json.lookup data (str "expiration_time_in_seconds") = some e ∧ isNumber e = true := by
  unfold numericExpiration
  constructor
  · intro h
    split at h
    · rename_i data hdata
      obtain ⟨he, hnumber⟩ := Option.filter_eq_some_iff.mp h
      exact ⟨data, hdata, he, hnumber⟩
    · cases h
  · rintro ⟨data, hdata, he, hnumber⟩
    rw [hdata]
    exact Option.filter_eq_some_iff.mpr ⟨he, hnumber⟩

/-- Without a reservation in it, an object is to be deleted when it is
overdue. -/
theorem toDelete_of_malformed {limit : Nat} {t : ℚ} {object : S3Object}
    (h : Malformed limit object) : ToDelete limit t object ↔ overdue t object = true := by
  constructor
  · rintro (⟨e, hparses, -⟩ | ⟨-, hoverdue⟩)
    · exact absurd ⟨e, hparses⟩ h
    · exact hoverdue
  · intro hoverdue
    exact .inr ⟨h, hoverdue⟩

/-- With a reservation in it, an object is to be deleted when that has
expired. -/
theorem toDelete_of_parsesAs {limit : Nat} {t : ℚ} {object : S3Object} {e : Json}
    (h : ParsesAs limit object e) : ToDelete limit t object ↔ e.Below t := by
  constructor
  · rintro (⟨e', hparses, hbelow⟩ | ⟨hmalformed, -⟩)
    · obtain ⟨text, v, data, htext, hloads, hdata, he, -⟩ := h
      obtain ⟨text', v', data', htext', hloads', hdata', he', -⟩ := hparses
      obtain rfl := Option.some.inj (htext.symm.trans htext')
      obtain rfl := Except.ok.inj (hloads.symm.trans hloads')
      obtain rfl := Json.obj.inj (Option.some.inj (hdata.symm.trans hdata'))
      obtain rfl := Option.some.inj (he.symm.trans he')
      exact hbelow
    · exact absurd ⟨e, h⟩ hmalformed
  · intro hbelow
    exact .inl ⟨e, h, hbelow⟩

/-- What a retrieval comes from. -/
theorem retrieveObject_ok {limit : Nat} {object : S3Object} {v : Json}
    (h : retrieveObject limit object = .ok v) :
    ∃ text, utf8Decode object.body = some text ∧ Json.loads limit text = .ok v := by
  unfold retrieveObject at h
  split at h
  · cases h
  · rename_i text htext
    split at h
    · rename_i v' hloads
      cases h
      exact ⟨text, htext, hloads⟩
    all_goals cases h

theorem malformed_of_error {limit : Nat} {object : S3Object} {error : Raised}
    (h : retrieveObject limit object = .error error) : Malformed limit object := by
  rintro ⟨e, text, v, data, htext, hloads, -⟩
  unfold retrieveObject at h
  rw [htext] at h
  dsimp only at h
  rw [hloads] at h
  cases h

/-- The verdict on a document is right. -/
theorem verdict_of_retrieved {limit : Nat} {t : ℚ} {object : S3Object} {v : Json}
    (h : retrieveObject limit object = .ok v) :
    Sweep.RightAbout (verdict limit t) (ToDelete limit t) object := by
  obtain ⟨text, htext, hloads⟩ := retrieveObject_ok h
  unfold Sweep.RightAbout verdict
  rw [h]
  dsimp only
  cases he : numericExpiration v with
  | some e =>
      obtain ⟨data, hdata, hlookup, hnumber⟩ := numericExpiration_eq_some.mp he
      have hparses : ParsesAs limit object e :=
        ⟨text, v, data, htext, hloads, hdata, hlookup, hnumber⟩
      exact ⟨_, rfl, (exceeds_iff hnumber).trans (toDelete_of_parsesAs hparses).symm⟩
  | none =>
      have hmalformed : Malformed limit object := by
        rintro ⟨e, text', v', data, htext', hloads', hdata, hlookup, hnumber⟩
        obtain rfl := Option.some.inj (htext.symm.trans htext')
        obtain rfl := Except.ok.inj (hloads.symm.trans hloads')
        rw [numericExpiration_eq_some.mpr ⟨data, hdata, hlookup, hnumber⟩] at he
        cases he
      exact ⟨_, rfl, (toDelete_of_malformed hmalformed).symm⟩

/-- The verdict is there and right exactly for the objects the sweep can
handle. -/
theorem verdict_right_iff {limit : Nat} {t : ℚ} {object : S3Object} :
    Sweep.RightAbout (verdict limit t) (ToDelete limit t) object ↔ Sweepable limit t object := by
  unfold Sweep.RightAbout Sweepable
  cases h : retrieveObject limit object with
  | ok v => exact iff_of_true (verdict_of_retrieved h) trivial
  | error error =>
      have hright := toDelete_of_malformed (t := t) (malformed_of_error h)
      unfold verdict
      rw [h, hright]
      cases error with
      | jsonDecodeError => simp
      | _ => simp

section Sweeps

variable {limit : Nat} {extractorGet : List (PyStr × Json) → PyStr → Option Json} {t : ℚ}
  {listObjectsV2 : Option PyStr → ListResponse} {bucket : Bucket} {keyPrefix : PyStr}
  {pages : List (List PyStr)}

/-- The extraction finds the dictionary with the number in it, or nothing. -/
theorem extractReservationData_cases
    (hget : ∀ members, extractorGet members (str "metadata.reservation") =
      (Json.obj members).atPath reservationPath) (v : Json) :
    (extractReservationData extractorGet v = none ∧ numericExpiration v = none) ∨
      ∃ data e, extractReservationData extractorGet v = some data ∧
        Json.lookup data (str "expiration_time_in_seconds") = some e ∧
        numericExpiration v = some e := by
  cases v with
  | obj members =>
      unfold extractReservationData numericExpiration
      dsimp only
      rw [hget]
      cases (Json.obj members).atPath reservationPath with
      | none => exact .inl ⟨rfl, rfl⟩
      | some reservation =>
          cases reservation with
          | obj data =>
              dsimp only
              cases he : Json.lookup data (str "expiration_time_in_seconds") with
              | none => exact .inl ⟨rfl, rfl⟩
              | some e =>
                  dsimp only
                  rw [Option.filter_some]
                  cases isNumber e with
                  | false => exact .inl ⟨rfl, rfl⟩
                  | true => exact .inr ⟨data, e, rfl, he, rfl⟩
          | _ => exact .inl ⟨rfl, rfl⟩
  | _ => exact .inl ⟨rfl, rfl⟩

/-- Expiring one object is removing it on its verdict, when the extractor finds
what is at a dotted path. -/
theorem expireOneReservation_eq
    (hget : ∀ members, extractorGet members (str "metadata.reservation") =
      (Json.obj members).atPath reservationPath) (objKey : PyStr) (bucket : Bucket) :
    expireOneReservation limit extractorGet t objKey bucket =
      Sweep.removing (verdict limit t) true objKey bucket := by
  unfold expireOneReservation Sweep.removing verdict
  cases bucket.get? objKey with
  | none => rfl
  | some object =>
      dsimp only
      cases retrieveObject limit object with
      | error error => cases error <;> rfl
      | ok v =>
          dsimp only
          rcases extractReservationData_cases hget v with
            ⟨hnone, hnumber⟩ | ⟨data, e, hdata, he, hnumber⟩
          · rw [hnone, hnumber]
            unfold handleMalformedObject
            cases overdue t object <;> rfl
          · rw [hdata, hnumber]
            dsimp only
            rw [he]
            dsimp only
            cases exceeds t e <;> rfl

variable (limit extractorGet t listObjectsV2 bucket keyPrefix pages) in
/-- What is asked of a sweep: it ends, having visited every key under the
prefix, and it has deleted exactly the expired reservations and the overdue
objects that are none. -/
structure SweepsBucket (sweep : Sweep PyStr S3Object Raised) : Prop where
  ends : ∀ fuel, pages.length ≤ fuel →
    expireAnyReservations limit extractorGet listObjectsV2 t fuel none (.start bucket) =
      some sweep
  returns : sweep.raised = none
  visitsAll : ∀ key ∈ bucket, keyPrefix.isPrefixOf key = true → key ∈ sweep.visited
  deletesExactly : ∀ key object, bucket.get? key = some object →
    (sweep.entries.get? key = none ↔
      keyPrefix.isPrefixOf key = true ∧ ToDelete limit t object)
  leavesOthers : ∀ key,
    sweep.entries.get? key = none ∨ sweep.entries.get? key = bucket.get? key

/-- Over the pages of a listing, the sweep removes each object on its verdict. -/
theorem expireAnyReservations_eq
    (hget : ∀ members, extractorGet members (str "metadata.reservation") =
      (Json.obj members).atPath reservationPath)
    (hlisting : Listing listObjectsV2 bucket keyPrefix pages) {fuel : Nat}
    (hfuel : pages.length ≤ fuel) :
    expireAnyReservations limit extractorGet listObjectsV2 t fuel none (.start bucket) =
      some ((Sweep.start bucket).loop (Sweep.removing (verdict limit t) true)
        pages.flatten) := by
  rw [expireAnyReservations_pages hlisting.serves hfuel rfl]
  refine congrArg some (Sweep.loop_congr fun key hkey entries => ?_)
  have hnamed : key ≠ [] := hlisting.named key ((hlisting.complete key).mp hkey).1
  unfold expireKey
  rw [if_neg hnamed, expireOneReservation_eq hget]

/-- The sweep is complete, selective and bounded exactly when every object under
the prefix can be decoded and parsed, or is no JSON and not overdue. -/
theorem sweepsBucket_iff
    (hget : ∀ members, extractorGet members (str "metadata.reservation") =
      (Json.obj members).atPath reservationPath)
    (hlisting : Listing listObjectsV2 bucket keyPrefix pages) :
    (∃ sweep, SweepsBucket limit extractorGet t listObjectsV2 bucket keyPrefix pages sweep) ↔
      ∀ key object, bucket.get? key = some object → keyPrefix.isPrefixOf key = true →
        Sweepable limit t object := by
  have hruns : ∀ fuel, pages.length ≤ fuel → expireAnyReservations limit extractorGet
      listObjectsV2 t fuel none (.start bucket) = some ((Sweep.start bucket).loop
        (Sweep.removing (verdict limit t) true) pages.flatten) :=
    fun fuel hfuel => expireAnyReservations_eq hget hlisting hfuel
  constructor
  · rintro ⟨sweep, h⟩ key object hobject hunder
    obtain rfl := Option.some.inj ((h.ends _ le_rfl).symm.trans (hruns _ le_rfl))
    have hright := (Sweep.right_iff true).mp ⟨h.returns, fun key object hobject =>
      (h.deletesExactly key object hobject).trans
        (and_congr_left' (hlisting.mem_pages hobject).symm)⟩
    exact verdict_right_iff.mp
      (hright key ((hlisting.mem_pages hobject).mpr hunder) object hobject)
  · intro h
    obtain ⟨hraised, hexactly⟩ := (Sweep.right_iff true).mpr fun key hkey object hobject =>
      verdict_right_iff.mpr (h key object hobject ((hlisting.mem_pages hobject).mp hkey))
    refine ⟨_, hruns, hraised, fun key hmem hunder => ?_, fun key object hobject => ?_, ?_⟩
    · rw [Sweep.visited_of_returns hraised]
      exact (hlisting.complete key).mpr ⟨hmem, hunder⟩
    · exact (hexactly key object hobject).trans (and_congr_left' (hlisting.mem_pages hobject))
    · exact Sweep.leaves_of_returns hraised

end Sweeps

/-! ## Two buckets -/

/-- A dotted path looked up key by key. -/
def dottedGet (members : List (PyStr × Json)) (path : PyStr) : Option Json :=
  (Json.obj members).atPath (path.splitOn 46)

/-- A listing in one page. -/
def onePage (keys : List PyStr) (_ : Option PyStr) : ListResponse := ⟨keys, false, none⟩

/-- Two listed keys. -/
def twoKeys : List PyStr := [str "reservations/a.json", str "reservations/b.json"]

/-- Two objects, the second one a reservation that expired at 5. -/
def twoObjects (first : List UInt8) : Bucket :=
  ⟨[(str "reservations/a.json", ⟨first, some 0⟩),
    (str "reservations/b.json",
      ⟨(str ("\x7b\"metadata\":\x7b\"reservation\":" ++
        "\x7b\"expiration_time_in_seconds\":5.0\x7d\x7d\x7d")).map UInt8.ofNat, some 0⟩)],
    by simp; decide⟩

theorem listing_twoObjects (first : List UInt8) :
    Listing (onePage twoKeys) (twoObjects first) (str "reservations/") [twoKeys] where
  serves := .last rfl
  complete key := by
    constructor
    · intro hkey
      rcases List.mem_cons.mp hkey with rfl | hkey
      · exact ⟨List.mem_cons_self, by decide⟩
      · rw [List.mem_singleton.mp hkey]
        exact ⟨List.mem_cons_of_mem _ List.mem_cons_self, by decide⟩
    · exact fun h => h.1
  named := by
    have hnamed : ∀ key ∈ twoKeys, key ≠ [] := by decide
    exact hnamed

/-- With an object of another shape in front, the sweep does all it should. -/
theorem sweepsBucket_otherShape :
    ∃ sweep, SweepsBucket 1000 dottedGet 100 (onePage twoKeys) (twoObjects [91, 93])
      (str "reservations/") [twoKeys] sweep :=
  (sweepsBucket_iff (fun _ => rfl) (listing_twoObjects [91, 93])).mpr (by
    intro key object hobject _
    have hitem := Dict.get?_eq_some_iff.mp hobject
    rcases List.mem_cons.mp hitem with heq | hitem
    · obtain ⟨-, rfl⟩ := Prod.mk.inj heq
      exact trivial
    · obtain ⟨-, rfl⟩ := Prod.mk.inj (List.mem_singleton.mp hitem)
      exact trivial)

/-- A byte that is no UTF-8 in front: the sweep ends there, and the expired
reservation behind it stays. -/
theorem invalid_utf8_ends_sweep :
    ¬ ∃ sweep, SweepsBucket 1000 dottedGet 100 (onePage twoKeys) (twoObjects [255])
      (str "reservations/") [twoKeys] sweep := by
  rintro ⟨sweep, h⟩
  have hraised : (expireAnyReservations 1000 dottedGet (onePage twoKeys) 100 1 none
      (.start (twoObjects [255]))).map Sweep.raised = some (some .unicodeDecodeError) := by
    decide +kernel
  rw [h.ends 1 le_rfl, Option.map_some, h.returns] at hraised
  cases hraised

end NoraFleet.S3Store
