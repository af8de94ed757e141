import NoraFleet.Base.Json
import NoraFleet.Base.Sweep

/-!
# Reservations in local files

`LocalReservationsStorage` keeps every reservation in a JSON file of its own.
This module has what the storage does with a directory of such files, whatever
bytes they hold: the path of a reservation id, the shared reading of a file, the
lookup of one reservation and the sweep that deletes the expired ones.

File names are the bytes the operating system has them under. Reading a file
gives its bytes or says that it is missing; other failures of the disk are left
out.
-/

namespace NoraFleet.LocalStore

open Base

/-- An exception that escapes. -/
inductive Raised where
  | unicodeDecodeError
  | valueError
  | recursionError
  | overflowError
  deriving DecidableEq, Repr

/-- The name of a file. -/
abbrev FileName := List UInt8

/-- The files directly under the base path. -/
abbrev Directory := Dict FileName (List UInt8)

/-! ## Paths -/

/-- The parts of a path between separators. -/
def splitPath : PyStr → List PyStr
  | [] => [[]]
  | c :: rest =>
      if c = 47 then [] :: splitPath rest
      else match splitPath rest with
        | part :: parts => (c :: part) :: parts
        | [] => [[c]]

/-- `os.path.abspath` of an absolute path, by its parts. -/
def normParts (parts : List PyStr) : List PyStr :=
  parts.foldl (fun done part =>
    if part = [] ∨ part = str "." then done
    else if part = str ".." then done.dropLast
    else done ++ [part]) []

/-- `os.path.commonpath` of two paths. -/
def commonPath : List PyStr → List PyStr → List PyStr
  | p :: ps, q :: qs => if p = q then p :: commonPath ps qs else []
  | _, _ => []

/-- The base path, as `os.path.abspath` leaves it. -/
structure BasePath where
  parts : List PyStr
  normal : ∀ part ∈ parts, part ≠ [] ∧ part ≠ str "." ∧ part ≠ str ".."

/-- `RESERVATION_FILE_SUFFIX`. -/
def reservationFileSuffix : PyStr := str ".json"

/-- The same, in the bytes of a file name. -/
def suffixBytes : FileName := [46, 106, 115, 111, 110]

/-- `_path_for(reservation_id)`, with the text of the `ValueError` (short of the
id it quotes). -/
def pathFor (basePath : BasePath) (reservationId : PyStr) : Except String (List PyStr) :=
  if strip reservationId = [] then .error "reservation_id must be a non-empty string"
  else
    let reservationId := strip reservationId
    if 47 ∈ reservationId then .error "reservation_id must not contain path separators"
    else
      let base := normParts basePath.parts
      let candidate := normParts (base ++ splitPath (reservationId ++ reservationFileSuffix))
      if commonPath base candidate ≠ base then
        .error "Invalid reservation_id: resolves outside base_path"
      else .ok candidate

/-! ## Reading a file -/

section Reading

variable (limit : Nat)

/-- `json.load` of a file with these bytes, in `_read_reservation_file`: only a
`JSONDecodeError` becomes `None`. `limit` is the room left for nested
containers. -/
def parseBody (body : List UInt8) : Except Raised (Option Json) :=
  match utf8Decode body with
  | none => .error .unicodeDecodeError
  | some text =>
      match Json.loads limit (universalNewlines text) with
      | .ok v => .ok (some v)
      | .error .jsonDecodeError => .ok none
      | .error .valueError => .error .valueError
      | .error .recursionError => .error .recursionError

/-- `_read_reservation_file(path)`. A path that is no file name raises in
`open`; a missing file gives `None`. -/
def readReservationFile (directory : Directory) (path : List PyStr) :
    Except Raised (Option Json) :=
  match fsencode (path.getLastD []) with
  | none => .error .valueError
  | some fileName =>
      match directory.get? fileName with
      | none => .ok none
      | some body => parseBody limit body

/-! ## Looking one reservation up -/

/-- `float(value)` of a member that may be missing: a double, an exception the
sweep handles (`none`), or the `OverflowError` it does not. -/
def toFloat : Option Json → Except Raised (Option Double)
  | some (.bool b) => .ok (some (.fin (if b then 1 else 0)))
  | some (.int n) =>
      match Double.ofInt n with
      | some x => .ok (some x)
      | none => .error .overflowError
  | some (.float x) => .ok (some x)
  | some (.str s) => .ok (floatOfStr s)
  | some .null => .ok none
  | some (.arr _) => .ok none
  | some (.obj _) => .ok none
  | none => .ok none

/-- `now > value`; `none` is the `TypeError`. -/
def nowExceeds (now : ℚ) : Option Json → Option Bool
  | some (.bool b) => some (decide (now > if b then 1 else 0))
  | some (.int n) => some (decide (now > n))
  | some (.float x) => some (Double.lt x (.fin now))
  | _ => none

/-- `spec.get(key) or {}` of a dictionary. -/
def getOrEmpty (members : List (PyStr × Json)) (key : PyStr) : Json :=
  match Json.lookup members key with
  | some v => if v.truthy then v else .obj []
  | none => .obj []

/-- What `ReservationDictionaryConverter.from_dict` makes of a dictionary. -/
structure StoredReservation where
  id : Option Json
  lifetimeInSeconds : Option Json
  expirationTimeInSeconds : Option Json

/-- A member that is `None` when it is missing or null. -/
def getOrNone (members : List (PyStr × Json)) (key : PyStr) : Option Json :=
  match Json.lookup members key with
  | some .null => none
  | found => found

theorem getOrNone_getD (members : List (PyStr × Json)) (key : PyStr) :
    (getOrNone members key).getD .null = (Json.lookup members key).getD .null := by
  unfold getOrNone
  split
  · rename_i h
    rw [h]
    rfl
  · rfl

/-- `from_dict(obj_dict)`. -/
def fromDict (members : List (PyStr × Json)) : StoredReservation where
  id := (getOrNone members (str "id")).or (getOrNone members (str "reservation_id"))
  lifetimeInSeconds := getOrNone members (str "lifetime_in_seconds")
  expirationTimeInSeconds := getOrNone members (str "expiration_time_in_seconds")

variable {Network : Type*}

/-- The reconstruction in `get_one_reservation`, where any exception means that
there is no reservation. `agentNetwork` is the constructor of the network from
the spec and the id, `none` when it raises. -/
def reconstruct (agentNetwork : Json → Option Json → Option Network) (now : ℚ)
    (agentSpec : Json) : Option (StoredReservation × Network) :=
  match agentSpec with
  | .obj members =>
      match getOrEmpty members (str "metadata") with
      | .obj metadata =>
          match Json.lookup metadata (str "reservation") with
          | some (.obj reservationDict) =>
              let reservation := fromDict reservationDict
              match nowExceeds now reservation.expirationTimeInSeconds with
              | some false =>
                  (agentNetwork agentSpec reservation.id).map fun network => (reservation, network)
              | _ => none
          | _ => none
      | _ => none
  | _ => none

/-- `get_one_reservation(obj_key)`: the pair, `none` for `(None, None)`. -/
def getOneReservation (basePath : BasePath) (agentNetwork : Json → Option Json → Option Network)
    (directory : Directory) (now : ℚ) (objKey : PyStr) :
    Except Raised (Option (StoredReservation × Network)) :=
  match pathFor basePath objKey with
  | .error _ => .ok none
  | .ok path =>
      match readReservationFile limit directory path with
      | .error e => .error e
      | .ok none => .ok none
      | .ok (some .null) => .ok none
      | .ok (some agentSpec) => .ok (reconstruct agentNetwork now agentSpec)

/-! ## The sweep -/

/-- `_expire_one_file`, up to the removal: whether the file with this body is to
be deleted. -/
def expireOneFile (currentTime : ℚ) (body : List UInt8) : Except Raised Bool :=
  match parseBody limit body with
  | .error e => .error e
  | .ok (some (.obj members)) =>
      match getOrEmpty members (str "metadata") with
      | .obj metadata =>
          match Json.lookup metadata (str "reservation") with
          | some (.obj reservationData) =>
              match toFloat (Json.lookup reservationData (str "expiration_time_in_seconds")) with
              | .error e => .error e
              | .ok none => .ok false
              | .ok (some expirationTime) => .ok (!Double.le (.fin currentTime) expirationTime)
          | _ => .ok false
      | _ => .ok false
  | .ok _ => .ok false

/-- Whether a file is one of ours. -/
def isReservationFile (fileName : FileName) : Bool := suffixBytes.isSuffixOf fileName

/-- `expire_reservations()`: `_expire_one_file` for every file of ours; a file
that is gone when it is read is none that was deleted. -/
def expireReservations (directory : Directory) (currentTime : ℚ) :
    Sweep FileName (List UInt8) Raised :=
  Sweep.loop (Sweep.removing (expireOneFile limit currentTime) false)
    (directory.keys.filter isReservationFile) (.start directory)

end Reading

end NoraFleet.LocalStore
