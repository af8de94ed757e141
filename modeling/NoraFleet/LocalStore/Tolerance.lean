import NoraFleet.LocalStore.Files

/-!
# What the local store tolerates

The sweep and the lookup read the same file with one helper, which handles a
missing file and text that is no JSON. Text that is no UTF-8, an integer with
too many digits and too deep a nesting escape it, and end the sweep. The sweep
then converts the expiration time with `float`, which takes more than numbers:
booleans and numeric strings pass, a huge integer escapes, and not-a-number is
never at or after the current time, so its file is deleted while the lookup
still hands it out.

* `pathFor_eq` — the ids that have a path, and what it is;
* `expireOneFile_eq` — the verdict on a file in terms of the value found under
  `metadata.reservation.expiration_time_in_seconds`;
* `fileRight_iff` — the verdict is right exactly about the well-behaved files;
* `sweep_right_iff` — the sweep is right exactly when all files of ours are
  well-behaved;
* `tolerates_iff` — sweep and lookup do what they should, and agree, exactly
  when no file is one of the kinds above and the key can be a file name.
-/

namespace NoraFleet.LocalStore

open Base

/-! ## Paths -/

theorem splitPath_of_not_mem {path : PyStr} (h : 47 ∉ path) : splitPath path = [path] := by
  induction path with
  | nil => rfl
  | cons c rest ih =>
      have hc : c ≠ 47 := fun heq => h (heq ▸ List.mem_cons_self)
      have hrest : 47 ∉ rest := fun hmem => h (List.mem_cons_of_mem _ hmem)
      unfold splitPath
      rw [if_neg hc, ih hrest]

/-- Normal parts stay as they are. -/
theorem normParts_of_normal {parts : List PyStr}
    (h : ∀ part ∈ parts, part ≠ [] ∧ part ≠ str "." ∧ part ≠ str "..") :
    normParts parts = parts := by
  have hfold : ∀ done : List PyStr, parts.foldl (fun done part =>
      if part = [] ∨ part = str "." then done
      else if part = str ".." then done.dropLast
      else done ++ [part]) done = done ++ parts := by
    induction parts with
    | nil =>
        intro done
        exact (List.append_nil done).symm
    | cons part rest ih =>
        intro done
        obtain ⟨hne, hdot, hdots⟩ := h part List.mem_cons_self
        rw [List.foldl_cons, if_neg (not_or.mpr ⟨hne, hdot⟩), if_neg hdots,
          ih fun p hp => h p (List.mem_cons_of_mem _ hp)]
        simp
  exact hfold []

theorem commonPath_append (ps qs : List PyStr) : commonPath ps (ps ++ qs) = ps := by
  induction ps with
  | nil => cases qs <;> rfl
  | cons p ps ih =>
      show (if p = p then p :: commonPath ps (ps ++ qs) else []) = _
      rw [if_pos rfl, ih]

/-- A name that ends in `.json` is neither `.` nor `..`. -/
theorem name_normal (id : PyStr) :
    id ++ reservationFileSuffix ≠ [] ∧ id ++ reservationFileSuffix ≠ str "." ∧
      id ++ reservationFileSuffix ≠ str ".." := by
  have hlong : (id ++ reservationFileSuffix).length ≥ 5 := by
    rw [List.length_append]
    exact Nat.le_add_left 5 id.length
  refine ⟨fun heq => ?_, fun heq => ?_, fun heq => ?_⟩ <;>
  · rw [heq] at hlong
    exact absurd hlong (by decide)

/-- An id has a path unless it is blank or has a separator; the path is then
the base path with one more part. -/
theorem pathFor_eq {basePath : BasePath} {reservationId : PyStr} {path : List PyStr} :
    pathFor basePath reservationId = .ok path ↔
      strip reservationId ≠ [] ∧ 47 ∉ strip reservationId ∧
        path = basePath.parts ++ [strip reservationId ++ reservationFileSuffix] := by
  unfold pathFor
  by_cases hblank : strip reservationId = []
  · rw [if_pos hblank]
    exact ⟨fun h => (nomatch h), fun h => absurd hblank h.1⟩
  · rw [if_neg hblank]
    dsimp only
    by_cases hsep : 47 ∈ strip reservationId
    · rw [if_pos hsep]
      exact ⟨fun h => (nomatch h), fun h => absurd hsep h.2.1⟩
    · rw [if_neg hsep]
      have hname : 47 ∉ strip reservationId ++ reservationFileSuffix := by
        intro hmem
        rcases List.mem_append.mp hmem with hmem | hmem
        · exact hsep hmem
        · exact absurd hmem (by decide)
      have hnormal : ∀ part ∈ basePath.parts ++ [strip reservationId ++ reservationFileSuffix],
          part ≠ [] ∧ part ≠ str "." ∧ part ≠ str ".." := by
        intro part hmem
        rcases List.mem_append.mp hmem with hmem | hmem
        · exact basePath.normal part hmem
        · rw [List.mem_singleton.mp hmem]
          exact name_normal _
      rw [normParts_of_normal basePath.normal, splitPath_of_not_mem hname,
        normParts_of_normal hnormal, if_neg (not_not.mpr (commonPath_append _ _))]
      constructor
      · intro h
        exact ⟨hblank, hsep, (Except.ok.inj h).symm⟩
      · rintro ⟨-, -, rfl⟩
        rfl

theorem fsencode_of_append {a b : PyStr} {x : FileName} (h : fsencode (a ++ b) = some x) :
    ∃ y z, fsencode a = some y ∧ fsencode b = some z ∧ x = y ++ z := by
  induction a generalizing x with
  | nil => exact ⟨[], x, rfl, h, rfl⟩
  | cons c rest ih =>
      rw [List.cons_append] at h
      unfold fsencode at h
      split at h
      · cases h
      · rename_i hc
        split at h
        · rename_i bytes others hbytes hothers
          obtain rfl := Option.some.inj h
          obtain ⟨y, z, hy, hz, rfl⟩ := ih hothers
          refine ⟨bytes ++ y, z, ?_, hz, by simp⟩
          unfold fsencode
          rw [if_neg hc, hbytes, hy]
        · cases h

/-- The file of an id is one of ours. -/
theorem isReservationFile_path {id : PyStr} {fileName : FileName}
    (h : fsencode (id ++ reservationFileSuffix) = some fileName) :
    isReservationFile fileName = true := by
  obtain ⟨y, z, -, hz, rfl⟩ := fsencode_of_append h
  have hsuffix : fsencode reservationFileSuffix = some suffixBytes := by decide
  rw [hsuffix] at hz
  obtain rfl := Option.some.inj hz
  unfold isReservationFile
  rw [List.isSuffixOf_iff_suffix]
  exact List.suffix_append y suffixBytes

/-! ## One file -/

/-- Where the reservation of a stored document is. -/
def reservationPath : List PyStr := [str "metadata", str "reservation"]

/-- Where its expiration time is. -/
def expirationPath : List PyStr := reservationPath ++ [str "expiration_time_in_seconds"]

/-- The body is a document whose expiration time is a number below `t`. -/
def ExpiredNumber (limit : Nat) (t : ℚ) (body : List UInt8) : Prop :=
  ∃ v e, parseBody limit body = .ok (some v) ∧ v.atPath expirationPath = some e ∧ e.Below t

/-- The verdict on an expiration time: `float` first, then the comparison. -/
def verdict (t : ℚ) (e : Json) : Except Raised Bool :=
  match toFloat (some e) with
  | .error error => .error error
  | .ok none => .ok false
  | .ok (some x) => .ok (!Double.le (.fin t) x)

/-- The sweep is right about an expiration time: no exception, and it deletes
exactly for a number below `t`. -/
def RightAbout (t : ℚ) (e : Json) : Prop :=
  ∃ delete, verdict t e = .ok delete ∧ (delete = true ↔ e.Below t)

/-- The expiration times the sweep is right about: none at all in a list, an
object or null; a boolean or a numeric string that is not below `t` as a number;
an integer that becomes a double on the same side of `t`; any float but
not-a-number. -/
def PlainExpiration (t : ℚ) : Json → Prop
  | .null => True
  | .arr _ => True
  | .obj _ => True
  | .bool b => t ≤ if b then 1 else 0
  | .str s => ∀ x, floatOfStr s = some x → Double.le (.fin t) x = true
  | .int n => ∃ x, Double.ofInt n = some x ∧ (Double.le (.fin t) x = true ↔ t ≤ n)
  | .float x => x ≠ .nan

theorem le_fin {t q : ℚ} : Double.le (.fin t) (.fin q) = true ↔ t ≤ q := by
  simp [Double.le, Double.place]

theorem rightAbout_iff {t : ℚ} {e : Json} : RightAbout t e ↔ PlainExpiration t e := by
  unfold RightAbout verdict
  cases e with
  | null => simp [toFloat, PlainExpiration, Json.Below, Json.place]
  | arr items => simp [toFloat, PlainExpiration, Json.Below, Json.place]
  | obj members => simp [toFloat, PlainExpiration, Json.Below, Json.place]
  | bool b =>
      simp only [toFloat, PlainExpiration, Json.Below, Json.place, Except.ok.injEq]
      rw [← le_fin]
      simp
  | str s =>
      simp only [toFloat, PlainExpiration, Json.Below, Json.place]
      cases floatOfStr s <;> simp
  | int n =>
      simp only [toFloat, PlainExpiration, Json.Below, Json.place]
      cases Double.ofInt n with
      | none => simp
      | some x =>
          simp only [Except.ok.injEq, exists_eq_left', Option.some.injEq, Bool.not_eq_true',
            WithBot.coe_lt_coe, WithTop.coe_lt_coe]
          cases Double.le (.fin t) x <;> simp
  | float x =>
      simp only [toFloat, PlainExpiration, Json.Below, Json.place, Except.ok.injEq,
        exists_eq_left']
      cases x with
      | nan => simp [Double.le, Double.place]
      | inf negative => cases negative <;> simp [Double.le, Double.place]
      | fin q => simp [Double.le, Double.place]

/-- The files the sweep is right about: text that is no JSON, and JSON with a
plain expiration time or none. -/
def WellBehaved (limit : Nat) (t : ℚ) (body : List UInt8) : Prop :=
  match parseBody limit body with
  | .error _ => False
  | .ok none => True
  | .ok (some v) => ∀ e, v.atPath expirationPath = some e → PlainExpiration t e

/-- `spec.get(key) or {}` of an object is that object; of anything else it is
empty or no object. -/
theorem getOrEmpty_cases (members : List (PyStr × Json)) (key : PyStr) :
    (∃ inner, Json.lookup members key = some (.obj inner) ∧
      getOrEmpty members key = .obj inner) ∨
    ((∀ inner, Json.lookup members key ≠ some (.obj inner)) ∧
      (getOrEmpty members key = .obj [] ∨
        ∀ inner, getOrEmpty members key ≠ .obj inner)) := by
  unfold getOrEmpty
  cases Json.lookup members key with
  | none =>
      right
      exact ⟨fun inner h => (nomatch h), .inl rfl⟩
  | some v =>
      dsimp only
      by_cases hobj : ∃ inner, v = .obj inner
      · obtain ⟨inner, rfl⟩ := hobj
        left
        refine ⟨inner, rfl, ?_⟩
        cases inner <;> rfl
      · right
        have hne : ∀ inner, v ≠ .obj inner := fun inner heq => hobj ⟨inner, heq⟩
        refine ⟨fun inner heq => hne inner (Option.some.inj heq), ?_⟩
        cases v.truthy with
        | true => exact .inr hne
        | false => exact .inl rfl

/-- Both the sweep and the lookup find what is under `metadata.reservation`, or
something under `metadata` that is no object. -/
theorem metadata_cases (members : List (PyStr × Json)) :
    (∃ metadata, getOrEmpty members (str "metadata") = .obj metadata ∧
      Json.lookup metadata (str "reservation") = (Json.obj members).atPath reservationPath) ∨
    ((∀ metadata, getOrEmpty members (str "metadata") ≠ .obj metadata) ∧
      (Json.obj members).atPath reservationPath = none) := by
  unfold reservationPath
  rw [Json.atPath_obj]
  rcases getOrEmpty_cases members (str "metadata") with
    ⟨metadata, hlookup, hget⟩ | ⟨hlookup, hget⟩
  · refine .inl ⟨metadata, hget, ?_⟩
    rw [hlookup, Option.bind_some, Json.atPath_obj]
    cases Json.lookup metadata (str "reservation") with
    | none => rfl
    | some reservation => cases reservation <;> rfl
  · have hnone : ((Json.lookup members (str "metadata")).bind fun v =>
        v.atPath [str "reservation"]) = none := by
      cases hmeta : Json.lookup members (str "metadata") with
      | none => rfl
      | some v => exact Json.atPath_of_ne_obj (fun inner heq => hlookup inner (heq ▸ hmeta)) _ _
    rcases hget with hget | hget
    · exact .inl ⟨[], hget, hnone.symm⟩
    · exact .inr ⟨hget, hnone⟩

/-- The verdict on a document is the one on its expiration time; without one it
stays. -/
theorem expireOneFile_eq (limit : Nat) (t : ℚ) (body : List UInt8) :
    expireOneFile limit t body =
      match parseBody limit body with
      | .error e => .error e
      | .ok none => .ok false
      | .ok (some v) =>
          match v.atPath expirationPath with
          | none => .ok false
          | some e => verdict t e := by
  unfold expireOneFile
  cases parseBody limit body with
  | error e => rfl
  | ok parsed =>
      cases parsed with
      | none => rfl
      | some v =>
          cases v with
          | obj members =>
              unfold expirationPath
              dsimp only
              rw [Json.atPath_append]
              rcases metadata_cases members with ⟨metadata, hget, hlookup⟩ | ⟨hget, hnone⟩
              · rw [hget, ← hlookup]
                dsimp only
                cases Json.lookup metadata (str "reservation") with
                | none => rfl
                | some reservation =>
                    cases reservation with
                    | obj data =>
                        rw [Option.bind_some, Json.atPath_obj]
                        dsimp only
                        cases Json.lookup data (str "expiration_time_in_seconds") with
                        | none => rfl
                        | some e => cases e <;> rfl
                    | _ => rfl
              · rw [hnone]
                cases hv : getOrEmpty members (str "metadata") with
                | obj metadata => exact absurd hv (hget metadata)
                | _ => rfl
          | _ => rfl

/-- The sweep is right exactly about the well-behaved files. -/
theorem fileRight_iff {limit : Nat} {t : ℚ} {body : List UInt8} :
    Sweep.RightAbout (expireOneFile limit t) (ExpiredNumber limit t) body ↔
      WellBehaved limit t body := by
  unfold Sweep.RightAbout WellBehaved ExpiredNumber
  rw [expireOneFile_eq]
  cases parseBody limit body with
  | error e => simp
  | ok parsed =>
      cases parsed with
      | none => simp
      | some v =>
          dsimp only
          cases he : v.atPath expirationPath with
          | none => simp [he]
          | some e =>
              have hright := rightAbout_iff (t := t) (e := e)
              unfold RightAbout at hright
              simpa [he] using hright

/-! ## Sweep and lookup together -/

section Together

variable {Network : Type*} {limit : Nat} {basePath : BasePath}
  {agentNetwork : Json → Option Json → Option Network} {directory : Directory} {t : ℚ}
  {key : PyStr}

/-- A dictionary that is not expired at `now` has an expiration time that `now`
does not exceed. -/
theorem nowExceeds_fromDict {data : List (PyStr × Json)}
    (h : nowExceeds t (fromDict data).expirationTimeInSeconds = some false) :
    ∃ e, Json.lookup data (str "expiration_time_in_seconds") = some e ∧
      nowExceeds t (some e) = some false := by
  simp only [fromDict, getOrNone] at h
  cases he : Json.lookup data (str "expiration_time_in_seconds") with
  | none =>
      rw [he] at h
      cases h
  | some e =>
      rw [he] at h
      cases e with
      | null => cases h
      | _ => exact ⟨_, rfl, h⟩

/-- A reservation that is handed out has an expiration time that `now` does not
exceed. -/
theorem alive_of_reconstruct {v : Json} {pair : StoredReservation × Network}
    (h : reconstruct agentNetwork t v = some pair) :
    ∃ e, v.atPath expirationPath = some e ∧ nowExceeds t (some e) = some false := by
  unfold reconstruct at h
  cases v with
  | obj members =>
      dsimp only at h
      rcases metadata_cases members with ⟨metadata, hget, hlookup⟩ | ⟨hget, -⟩
      · rw [hget] at h
        dsimp only at h
        rw [hlookup] at h
        split at h
        · rename_i data hdata
          split at h
          · rename_i halive
            obtain ⟨e, he, halive⟩ := nowExceeds_fromDict halive
            refine ⟨e, ?_, halive⟩
            unfold expirationPath
            rw [Json.atPath_append, hdata, Option.bind_some, Json.atPath_obj, he, Option.bind_some]
            cases e <;> rfl
          · cases h
        · cases h
      · revert h
        cases hv : getOrEmpty members (str "metadata") with
        | obj metadata => exact absurd hv (hget metadata)
        | _ =>
            intro h
            cases h
  | _ => cases h

/-- The sweep leaves a plain expiration time that `now` does not exceed. -/
theorem verdict_of_alive {e : Json} (hplain : PlainExpiration t e)
    (halive : nowExceeds t (some e) = some false) : verdict t e = .ok false := by
  obtain ⟨delete, hdelete, hbelow⟩ := rightAbout_iff.mpr hplain
  rw [hdelete]
  cases delete with
  | false => rfl
  | true =>
      exfalso
      obtain ⟨p, hp, hlt⟩ := hbelow.mp rfl
      cases e with
      | int n =>
          obtain rfl := Option.some.inj hp
          have hlt' : (n : ℚ) < t := WithTop.coe_lt_coe.mp (WithBot.coe_lt_coe.mp hlt)
          simp [nowExceeds, hlt'] at halive
      | float x =>
          have hlt' : Double.lt x (.fin t) = true := by
            have hx : x.place = some p := hp
            unfold Double.lt
            rw [hx]
            exact decide_eq_true hlt
          simp [nowExceeds, hlt'] at halive
      | _ => cases hp

variable (limit basePath agentNetwork directory t key) in
/-- What is asked of a directory, a key and a time: the sweep returns after
every file and takes away exactly the expired ones, the lookup returns, and what
it hands out is not swept away. -/
structure Tolerates : Prop where
  sweepReturns : (expireReservations limit directory t).raised = none
  visitsAll : ∀ fileName ∈ directory, isReservationFile fileName = true →
    fileName ∈ (expireReservations limit directory t).visited
  deletesExactly : ∀ fileName body, directory.get? fileName = some body →
    ((expireReservations limit directory t).entries.get? fileName = none ↔
      isReservationFile fileName = true ∧ ExpiredNumber limit t body)
  leavesOthers : ∀ fileName,
    (expireReservations limit directory t).entries.get? fileName = none ∨
      (expireReservations limit directory t).entries.get? fileName = directory.get? fileName
  lookupReturns : ∃ pair,
    getOneReservation limit basePath agentNetwork directory t key = .ok pair
  agree : ∀ pair path fileName,
    getOneReservation limit basePath agentNetwork directory t key = .ok (some pair) →
    pathFor basePath key = .ok path → fsencode (path.getLastD []) = some fileName →
    (expireReservations limit directory t).entries.get? fileName ≠ none

variable (limit basePath directory t key) in
/-- The directories, keys and times that are tolerated. -/
structure Tolerable : Prop where
  files : ∀ fileName body, directory.get? fileName = some body →
    isReservationFile fileName = true → WellBehaved limit t body
  key : ∀ path, pathFor basePath key = .ok path → fsencode (path.getLastD []) ≠ none

/-- The file the lookup of a key reads is one of ours. -/
theorem isReservationFile_of_pathFor {path : List PyStr} {fileName : FileName}
    (hpath : pathFor basePath key = .ok path)
    (hname : fsencode (path.getLastD []) = some fileName) :
    isReservationFile fileName = true := by
  obtain ⟨-, -, rfl⟩ := pathFor_eq.mp hpath
  rw [List.getLastD_concat] at hname
  exact isReservationFile_path hname

/-- What the lookup hands out from a well-behaved file the sweep leaves. -/
theorem stays_of_reconstruct {body : List UInt8} {v : Json}
    (hwell : WellBehaved limit t body) (hparse : parseBody limit body = .ok (some v))
    {pair : StoredReservation × Network} (h : reconstruct agentNetwork t v = some pair) :
    expireOneFile limit t body = .ok false := by
  obtain ⟨e, he, halive⟩ := alive_of_reconstruct h
  unfold WellBehaved at hwell
  rw [hparse] at hwell
  rw [expireOneFile_eq, hparse]
  dsimp only
  rw [he]
  exact verdict_of_alive (hwell e he) halive

variable (agentNetwork) in
/-- The lookup of a key returns when its file is well-behaved; what it hands out
has a file that the sweep leaves. -/
theorem lookup_spec (h : Tolerable limit basePath directory t key) :
    ∃ found, getOneReservation limit basePath agentNetwork directory t key = .ok found ∧
      ∀ pair path fileName, found = some pair → pathFor basePath key = .ok path →
        fsencode (path.getLastD []) = some fileName →
        ∃ body, directory.get? fileName = some body ∧ expireOneFile limit t body = .ok false := by
  unfold getOneReservation
  cases hpath : pathFor basePath key with
  | error message => exact ⟨none, rfl, fun _ _ _ hfound => (nomatch hfound)⟩
  | ok path =>
      dsimp only
      unfold readReservationFile
      cases hname : fsencode (path.getLastD []) with
      | none => exact absurd hname (h.key path hpath)
      | some fileName =>
          dsimp only
          cases hbody : directory.get? fileName with
          | none => exact ⟨none, rfl, fun _ _ _ hfound => (nomatch hfound)⟩
          | some body =>
              have hwell := h.files fileName body hbody (isReservationFile_of_pathFor hpath hname)
              dsimp only
              cases hparse : parseBody limit body with
              | error e =>
                  unfold WellBehaved at hwell
                  rw [hparse] at hwell
                  exact hwell.elim
              | ok parsed =>
                  cases parsed with
                  | none => exact ⟨none, rfl, fun _ _ _ hfound => (nomatch hfound)⟩
                  | some v =>
                      cases v with
                      | null => exact ⟨none, rfl, fun _ _ _ hfound => (nomatch hfound)⟩
                      | _ =>
                          refine ⟨_, rfl, fun pair path' fileName' hpair hpath' hname' => ?_⟩
                          obtain rfl := Except.ok.inj hpath'
                          obtain rfl := Option.some.inj (hname.symm.trans hname')
                          exact ⟨body, hbody, stays_of_reconstruct hwell hparse hpair⟩

/-- A file is swept exactly if it is one of ours. -/
theorem mem_swept {fileName : FileName} {body : List UInt8}
    (hbody : directory.get? fileName = some body) :
    fileName ∈ directory.keys.filter isReservationFile ↔ isReservationFile fileName = true := by
  rw [List.mem_filter]
  exact and_iff_right (Dict.mem_of_get?_eq_some hbody)

/-- The sweep returns, having deleted exactly the expired files of ours, if and
only if these are all well-behaved. -/
theorem sweep_right_iff :
    ((expireReservations limit directory t).raised = none ∧
      ∀ fileName body, directory.get? fileName = some body →
        ((expireReservations limit directory t).entries.get? fileName = none ↔
          isReservationFile fileName = true ∧ ExpiredNumber limit t body)) ↔
      ∀ fileName body, directory.get? fileName = some body →
        isReservationFile fileName = true → WellBehaved limit t body := by
  unfold expireReservations
  constructor
  · rintro ⟨hraised, hexactly⟩ fileName body hbody hours
    have hright := (Sweep.right_iff false).mp ⟨hraised, fun name found hfound =>
      (hexactly name found hfound).trans (and_congr_left' (mem_swept hfound).symm)⟩
    exact fileRight_iff.mp (hright fileName ((mem_swept hbody).mpr hours) body hbody)
  · intro h
    have hright := (Sweep.right_iff false).mpr fun fileName hmem body hbody =>
      fileRight_iff.mpr (h fileName body hbody ((mem_swept hbody).mp hmem))
    exact ⟨hright.1, fun fileName body hbody =>
      (hright.2 fileName body hbody).trans (and_congr_left' (mem_swept hbody))⟩

/-- Sweep and lookup do what they should, and agree, exactly when every file is
well-behaved and the key can be a file name. -/
theorem tolerates_iff :
    Tolerates limit basePath agentNetwork directory t key ↔
      Tolerable limit basePath directory t key := by
  constructor
  · intro h
    refine ⟨sweep_right_iff.mp ⟨h.sweepReturns, h.deletesExactly⟩, fun path hpath hname => ?_⟩
    obtain ⟨pair, hpair⟩ := h.lookupReturns
    unfold getOneReservation readReservationFile at hpair
    rw [hpath] at hpair
    dsimp only at hpair
    rw [hname] at hpair
    cases hpair
  · intro h
    obtain ⟨hraised, hexactly⟩ := sweep_right_iff.mpr h.files
    obtain ⟨found, hlookup, hleft⟩ := lookup_spec agentNetwork h
    constructor
    · exact hraised
    · intro fileName hmem hours
      have hvisited := Sweep.visited_of_returns hraised
      unfold expireReservations
      rw [hvisited]
      exact List.mem_filter.mpr ⟨hmem, hours⟩
    · exact hexactly
    · exact Sweep.leaves_of_returns hraised
    · exact ⟨found, hlookup⟩
    · intro pair path fileName hpair hpath hname
      obtain rfl := Except.ok.inj (hlookup.symm.trans hpair)
      obtain ⟨body, hbody, hstays⟩ := hleft pair path fileName rfl hpath hname
      intro hgone
      have hdeleted := ((Sweep.removed_iff hraised hbody).mp hgone).2
      rw [hstays] at hdeleted
      cases hdeleted

end Together

/-! ## Intolerable files -/

section Intolerable

/-- `/srv`. -/
def srv : BasePath := ⟨[str "srv"], by decide⟩

/-- `x.json`. -/
def xJson : FileName := [120, 46, 106, 115, 111, 110]

/-- A directory with one file. -/
def oneFile (body : List UInt8) : Directory := ⟨[(xJson, body)], by simp⟩

/-- What the storage writes for the reservation `x`, with this expiration
time. -/
def storedBody (expirationTime : String) : List UInt8 :=
  (str ("\x7b\"metadata\":\x7b\"reservation\":\x7b\"id\":\"x\",\"lifetime_in_seconds\":5.0," ++
    "\"expiration_time_in_seconds\":" ++ expirationTime ++
    "\x7d,\"stored_at\":0.5\x7d\x7d")).map UInt8.ofNat

/-- One byte that is no UTF-8 ends the sweep, and the lookup as well. -/
theorem invalid_utf8_escapes :
    ¬ Tolerates 1000 srv (fun _ _ => some ()) (oneFile [255]) 100 (str "x") := by
  intro h
  have hraised : (expireReservations 1000 (oneFile [255]) 100).raised =
      some .unicodeDecodeError := by decide
  rw [h.sweepReturns] at hraised
  cases hraised

/-- Not-a-number as the expiration time: the lookup hands out what the sweep
deletes. -/
example :
    (match getOneReservation 1000 srv (fun _ _ => some ()) (oneFile (storedBody "NaN")) 100
        (str "x") with
      | .ok found => found.isSome
      | .error _ => false) = true ∧
      (expireReservations 1000 (oneFile (storedBody "NaN")) 100).entries.get? xJson =
        none := by
  decide +kernel

end Intolerable

end NoraFleet.LocalStore
