import NoraFleet.Base.Json
import NoraFleet.Base.Sweep

/-!
# Reservations in an S3 bucket

`S3ReservationsExpiration` lists the objects under a prefix page by page and
expires each in turn. This module has what it does with an object, whatever its
bytes, and the loop over the pages.

The calls to S3 do not fail, except that an object may be gone. Looking a dotted
path up in a dictionary is a parameter (`DictionaryExtractor`), as are the
responses to the listing.
-/

namespace NoraFleet.S3Store

open Base

/-- An exception. -/
inductive Raised where
  | unicodeDecodeError
  | jsonDecodeError
  | valueError
  | recursionError
  | runtimeError
  deriving DecidableEq, Repr

/-- An object: its bytes, and when it was last modified, if the service says
so. -/
structure S3Object where
  body : List UInt8
  lastModified : Option ℚ

/-- The objects by their keys. -/
abbrev Bucket := Dict PyStr S3Object

/-! ## One object -/

section Objects

variable (limit : Nat) (extractorGet : List (PyStr × Json) → PyStr → Option Json)

/-- `retrieve_object_with_retries`, from the response on. -/
def retrieveObject (object : S3Object) : Except Raised Json :=
  match utf8Decode object.body with
  | none => .error .unicodeDecodeError
  | some text =>
      match Json.loads limit text with
      | .ok v => .ok v
      | .error .jsonDecodeError => .error .jsonDecodeError
      | .error .valueError => .error .valueError
      | .error .recursionError => .error .recursionError

/-- Whether a value is an `int` or a `float`; booleans are excluded. -/
def isNumber : Json → Bool
  | .int _ => true
  | .float _ => true
  | _ => false

/-- `extract_reservation_data(agent_spec)`. -/
def extractReservationData (agentSpec : Json) : Option (List (PyStr × Json)) :=
  match agentSpec with
  | .obj members =>
      match extractorGet members (str "metadata.reservation") with
      | some (.obj reservationData) =>
          match Json.lookup reservationData (str "expiration_time_in_seconds") with
          | some expirationTime => if isNumber expirationTime then some reservationData else none
          | none => none
      | _ => none
  | _ => none

/-- `current_time > expiration_time`, of a number. -/
def exceeds (currentTime : ℚ) : Json → Bool
  | .int n => decide (currentTime > n)
  | .float x => Double.lt x (.fin currentTime)
  | _ => false

/-- `Reservationist.DEFAULT_LIFETIME`. -/
def defaultLifetime : ℚ := 24 * 60 * 60

/-- `MALFORMED_OBJECT_GRACE_SECONDS`. -/
def malformedObjectGraceSeconds : ℚ := 2 * defaultLifetime

/-- The age of an object; without a time of modification, none. -/
def ageInSeconds (currentTime : ℚ) (object : S3Object) : Double :=
  match object.lastModified with
  | none => .fin 0
  | some lastModified => Double.sub (.fin currentTime) (.fin lastModified)

/-- The age of an object exceeds the grace period. -/
def overdue (currentTime : ℚ) (object : S3Object) : Bool :=
  !Double.le (ageInSeconds currentTime object) (.fin malformedObjectGraceSeconds)

/-- `handle_malformed_object(obj_key, current_time)`, for the object under the
key. -/
def handleMalformedObject (currentTime : ℚ) (objKey : PyStr) (object : S3Object)
    (bucket : Bucket) : Bucket × Bool :=
  if overdue currentTime object then (bucket.pop objKey, true) else (bucket, false)

/-- `expire_one_reservation(obj_key, current_time)`. -/
def expireOneReservation (currentTime : ℚ) (objKey : PyStr) (bucket : Bucket) :
    Except Raised (Bucket × Bool) :=
  match bucket.get? objKey with
  | none => .ok (bucket, true)  -- `NoSuchKey`
  | some object =>
      match retrieveObject limit object with
      | .error .jsonDecodeError => .ok (bucket, false)
      | .error e => .error e
      | .ok agentSpec =>
          match extractReservationData extractorGet agentSpec with
          | none => .ok (handleMalformedObject currentTime objKey object bucket)
          | some reservationData =>
              match Json.lookup reservationData (str "expiration_time_in_seconds") with
              | some expirationTime =>
                  if exceeds currentTime expirationTime then .ok (bucket.pop objKey, true)
                  else .ok (bucket, false)
              | none => .ok (bucket, false)

/-! ## The sweep -/

/-- A response of `list_objects_v2`. -/
structure ListResponse where
  contents : List PyStr
  isTruncated : Bool
  nextContinuationToken : Option PyStr

/-- What the loop does with a key that was listed. -/
def expireKey (currentTime : ℚ) (reservationKey : PyStr) (bucket : Bucket) :
    Except Raised (Bucket × Bool) :=
  if reservationKey = [] then .ok (bucket, false)
  else expireOneReservation limit extractorGet currentTime reservationKey bucket

variable (listObjectsV2 : Option PyStr → ListResponse)

/-- `expire_any_reservations()` from a page on, with the pages it takes from
`iter_reservation_keys`. `none`: more pages than `fuel`. -/
def expireAnyReservations (currentTime : ℚ) :
    Nat → Option PyStr → Sweep PyStr S3Object Raised → Option (Sweep PyStr S3Object Raised)
  | 0, _, _ => none
  | fuel + 1, continuationToken, sweep =>
      let response := listObjectsV2 continuationToken
      let sweep := sweep.loop (expireKey limit extractorGet currentTime) response.contents
      if sweep.raised ≠ none then some sweep
      else if response.isTruncated = false then some sweep
      else
        match response.nextContinuationToken with
        | some (c :: token) => expireAnyReservations currentTime fuel (some (c :: token)) sweep
        | _ => some { sweep with raised := some .runtimeError }

end Objects

end NoraFleet.S3Store
