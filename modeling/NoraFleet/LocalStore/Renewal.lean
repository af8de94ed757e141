import NoraFleet.Base.Interleaving
import NoraFleet.LocalStore.Tolerance

/-!
# A sweep among writes

The sweep decides on what it read, and then removes by path. A write puts its
body into a temp file and moves that onto the path in one step. Nothing holds
the two apart, so a write can move a renewed reservation onto a path between the
sweep's read and its removal.

The calls are interleaved step by step. What every path was last written with,
and what the sweeps have removed, is recorded beside the directory.

* `judged_outline` — what a sweep is about to remove it has read, and judged;
* `sweep_spares_renewed` — in every run whose removals find no reservation that
  expires later than the one judged, all that was removed was expired, and what
  was written and is not expired can still be read;
* `renewed_file_removed` — a run in which a renewal slips in between.
-/

namespace NoraFleet.LocalStore

open Base Base.Program

/-! ## The calls -/

/-- The directory, with a record of what was last written under every name and
of what the sweeps have removed. -/
structure Store where
  directory : Directory
  written : Directory
  removed : List (FileName × List UInt8)

/-- A call: a sweep, or the write of one reservation, its document already
dumped. A batch is one call for each of its reservations. -/
inductive StoreOp where
  | expireReservations
  | writeOneReservation (reservationId : PyStr) (body : List UInt8)

/-- Where a call stands. -/
inductive StoreCall where
  | nextFile
  | readFile (fileName : FileName)
  | removeFile (fileName : FileName) (judged : List UInt8)
  | writeTemp (reservationId : PyStr) (body : List UInt8)
  -- the temp file has a name of its own and holds `body`
  | replaceFile (fileName : FileName) (body : List UInt8)
  | returned
  | raised

/-- What comes from outside: the next entry of the scan, or that there is none,
and whether the file operation of the step fails with an `OSError`. -/
structure DiskAnswer where
  entry : Option FileName
  fails : Bool

def startStore : StoreOp → StoreCall
  | .expireReservations => .nextFile
  | .writeOneReservation reservationId body => .writeTemp reservationId body

section Calls

variable (limit : Nat) (basePath : BasePath) (t : ℚ)

/-- One step of a call; `t` is the `current_time` of the sweeps. -/
def stepStore (answer : DiskAnswer) (s : Store) : StoreCall → Option (Store × StoreCall)
  | .nextFile =>
      match answer.entry with
      | none => some (s, .returned)
      | some fileName =>
          if isReservationFile fileName then some (s, .readFile fileName) else none
  | .readFile fileName =>
      if answer.fails then some (s, .nextFile)
      else
        match s.directory.get? fileName with
        | none => some (s, .nextFile)
        | some body =>
            match expireOneFile limit t body with
            | .error _ => some (s, .raised)
            | .ok true => some (s, .removeFile fileName body)
            | .ok false => some (s, .nextFile)
  | .removeFile fileName _ =>
      if answer.fails then some (s, .nextFile)
      else
        match s.directory.get? fileName with
        | none => some (s, .nextFile)
        | some body =>
            some ({ s with
              directory := s.directory.pop fileName
              removed := s.removed ++ [(fileName, body)] }, .nextFile)
  | .writeTemp reservationId body =>
      match pathFor basePath reservationId with
      | .error _ => some (s, .raised)
      | .ok path =>
          match fsencode (path.getLastD []) with
          | none => some (s, .raised)
          | some fileName =>
              if answer.fails then some (s, .raised)
              else some (s, .replaceFile fileName body)
  | .replaceFile fileName body =>
      if answer.fails then some (s, .raised)
      else
        some ({ s with
          directory := s.directory.set fileName body
          written := s.written.set fileName body }, .returned)
  | .returned => none
  | .raised => none

/-- Sweeps and writes over one directory. -/
def storeProgram : Program Store StoreOp StoreCall DiskAnswer Empty where
  start := startStore
  step := stepStore limit basePath t
  env e _ := nomatch e

end Calls

/-- Before any call: what is in the directory counts as written. -/
def initialStore (directory : Directory) : Store := ⟨directory, directory, []⟩

/-! ## Expiration times -/

/-- The place of the expiration time of a body, if it is a number. -/
def expirationOf (limit : Nat) (body : List UInt8) : Option (WithBot (WithTop ℚ)) :=
  match parseBody limit body with
  | .ok (some v) => (v.atPath expirationPath).bind Json.place
  | _ => none

theorem expiredNumber_iff {limit : Nat} {t : ℚ} {body : List UInt8} :
    ExpiredNumber limit t body ↔
      ∃ p, expirationOf limit body = some p ∧ p < ((t : WithTop ℚ) : WithBot (WithTop ℚ)) := by
  unfold ExpiredNumber expirationOf
  constructor
  · rintro ⟨v, e, hparse, he, p, hp, hlt⟩
    rw [hparse]
    dsimp only
    rw [he]
    exact ⟨p, hp, hlt⟩
  · rintro ⟨p, hp, hlt⟩
    cases hparse : parseBody limit body with
    | error e =>
        rw [hparse] at hp
        cases hp
    | ok parsed =>
        rw [hparse] at hp
        cases parsed with
        | none => cases hp
        | some v =>
            obtain ⟨e, he, hplace⟩ := Option.bind_eq_some_iff.mp hp
            exact ⟨v, e, rfl, he, p, hplace, hlt⟩

instance (limit : Nat) (t : ℚ) (body : List UInt8) : Decidable (ExpiredNumber limit t body) :=
  decidable_of_iff
    (∃ p ∈ expirationOf limit body, p < ((t : WithTop ℚ) : WithBot (WithTop ℚ)))
    expiredNumber_iff.symm

instance (t : ℚ) : (e : Json) → Decidable (PlainExpiration t e)
  | .null => isTrue trivial
  | .arr _ => isTrue trivial
  | .obj _ => isTrue trivial
  | .bool b => inferInstanceAs (Decidable (t ≤ if b then 1 else 0))
  | .str s => inferInstanceAs (Decidable (∀ x ∈ floatOfStr s, Double.le (.fin t) x = true))
  | .int n =>
      inferInstanceAs
        (Decidable (∃ x ∈ Double.ofInt n, (Double.le (.fin t) x = true ↔ t ≤ n)))
  | .float x => inferInstanceAs (Decidable (x ≠ .nan))

instance (limit : Nat) (t : ℚ) (body : List UInt8) : Decidable (WellBehaved limit t body) := by
  unfold WellBehaved
  split
  · exact isFalse not_false
  · exact isTrue trivial
  · rename_i v _
    exact inferInstanceAs (Decidable (∀ e ∈ v.atPath expirationPath, PlainExpiration t e))

/-- The reservation in `found` does not expire later than the one in
`judged`. -/
def NotLater (limit : Nat) (found judged : List UInt8) : Prop :=
  ∃ p ∈ expirationOf limit found, ∃ q ∈ expirationOf limit judged, p ≤ q

instance (limit : Nat) (found judged : List UInt8) : Decidable (NotLater limit found judged) :=
  inferInstanceAs (Decidable (∃ p ∈ expirationOf limit found, ∃ q ∈ expirationOf limit judged,
    p ≤ q))

/-- A removal finds no reservation that expires later than the one judged,
which was well-behaved. -/
def FindsJudged (limit : Nat) (t : ℚ) (_ : DiskAnswer) (s : Store) : StoreCall → Prop
  | .removeFile fileName judged =>
      WellBehaved limit t judged ∧
        ∀ found ∈ s.directory.get? fileName, NotLater limit found judged
  | _ => True

instance (limit : Nat) (t : ℚ) (answer : DiskAnswer) (s : Store) :
    (l : StoreCall) → Decidable (FindsJudged limit t answer s l)
  | .removeFile fileName judged =>
      inferInstanceAs (Decidable (WellBehaved limit t judged ∧
        ∀ found ∈ s.directory.get? fileName, NotLater limit found judged))
  | .nextFile | .readFile .. | .writeTemp .. | .replaceFile .. | .returned | .raised =>
      isTrue trivial

/-! ## Runs -/

section Runs

variable {limit : Nat} {basePath : BasePath} {t : ℚ} {directory : Directory}

/-- What a sweep is about to remove it has read and judged expired. -/
def JudgedFile (limit : Nat) (t : ℚ) : StoreCall → Prop
  | .removeFile _ judged => expireOneFile limit t judged = .ok true
  | _ => True

/-- What is written under a name is there, or a sweep removed it and it was
expired. -/
def KeptOrExpired (limit : Nat) (t : ℚ) (s : Store) : Prop :=
  (∀ entry ∈ s.removed, ExpiredNumber limit t entry.2) ∧
    ∀ fileName, s.directory.get? fileName = s.written.get? fileName ∨
      s.directory.get? fileName = none ∧
        ∀ body ∈ s.written.get? fileName, ExpiredNumber limit t body

/-- A step leaves its own call with a right judgement. -/
theorem JudgedFile.step {answer : DiskAnswer} {s s' : Store} {l l' : StoreCall}
    (hs : stepStore limit basePath t answer s l = some (s', l')) : JudgedFile limit t l' := by
  cases l with
  | readFile fileName =>
      simp only [stepStore] at hs
      split at hs
      · obtain ⟨-, rfl⟩ := Prod.mk.inj (Option.some.inj hs)
        trivial
      · split at hs
        · obtain ⟨-, rfl⟩ := Prod.mk.inj (Option.some.inj hs)
          trivial
        · split at hs
          · obtain ⟨-, rfl⟩ := Prod.mk.inj (Option.some.inj hs)
            trivial
          · rename_i hjudged
            obtain ⟨-, rfl⟩ := Prod.mk.inj (Option.some.inj hs)
            exact hjudged
          · obtain ⟨-, rfl⟩ := Prod.mk.inj (Option.some.inj hs)
            trivial
  | _ =>
      -- no other step enters a removal
      simp only [stepStore] at hs
      repeat' split at hs
      all_goals
        cases hs
        try trivial

/-- What a step can do to the store: nothing, remove the file it was about to,
or move a written body into place. -/
theorem stepStore_cases {answer : DiskAnswer} {s s' : Store} {l l' : StoreCall}
    (hs : stepStore limit basePath t answer s l = some (s', l')) :
    s' = s ∨
    (∃ fileName judged found, l = .removeFile fileName judged ∧
      s.directory.get? fileName = some found ∧
      s' = ⟨s.directory.pop fileName, s.written, s.removed ++ [(fileName, found)]⟩) ∨
    (∃ fileName body, l = .replaceFile fileName body ∧
      s' = ⟨s.directory.set fileName body, s.written.set fileName body, s.removed⟩) := by
  cases l with
  | removeFile fileName judged =>
      simp only [stepStore] at hs
      split at hs
      · exact .inl (Prod.mk.inj (Option.some.inj hs)).1.symm
      · split at hs
        · exact .inl (Prod.mk.inj (Option.some.inj hs)).1.symm
        · rename_i found hfound
          obtain ⟨rfl, -⟩ := Prod.mk.inj (Option.some.inj hs)
          exact .inr (.inl ⟨fileName, judged, found, rfl, hfound, rfl⟩)
  | replaceFile fileName body =>
      simp only [stepStore] at hs
      split at hs
      · exact .inl (Prod.mk.inj (Option.some.inj hs)).1.symm
      · obtain ⟨rfl, -⟩ := Prod.mk.inj (Option.some.inj hs)
        exact .inr (.inr ⟨fileName, body, rfl, rfl⟩)
  | _ =>
      -- the other steps do not touch the store
      left
      simp only [stepStore] at hs
      repeat' split at hs
      all_goals
        cases hs
        try rfl

/-- A removal that finds what was judged removes what is expired. -/
theorem expired_of_findsJudged {answer : DiskAnswer} {s : Store} {fileName : FileName}
    {judged found : List UInt8} (hjudged : JudgedFile limit t (.removeFile fileName judged))
    (hok : FindsJudged limit t answer s (.removeFile fileName judged))
    (hfound : s.directory.get? fileName = some found) : ExpiredNumber limit t found := by
  obtain ⟨hwell, hlater⟩ := hok
  -- the verdict on the judged body was right
  obtain ⟨delete, hdelete, hexpired⟩ := fileRight_iff.mpr hwell
  have htrue : delete = true := Except.ok.inj (hdelete.symm.trans hjudged)
  obtain ⟨q', hq', hlt⟩ := expiredNumber_iff.mp (hexpired.mp htrue)
  obtain ⟨p, hp, q, hq, hle⟩ := hlater found hfound
  obtain rfl := Option.some.inj (hq.symm.trans hq')
  exact expiredNumber_iff.mpr ⟨p, hp, hle.trans_lt hlt⟩

/-- One step keeps what the sweeps must not break. -/
theorem KeptOrExpired.step {answer : DiskAnswer} {s s' : Store} {l l' : StoreCall}
    (h : KeptOrExpired limit t s) (hjudged : JudgedFile limit t l)
    (hok : FindsJudged limit t answer s l)
    (hs : stepStore limit basePath t answer s l = some (s', l')) :
    KeptOrExpired limit t s' := by
  obtain ⟨hremoved, hkept⟩ := h
  obtain rfl | ⟨fileName, judged, found, rfl, hfound, rfl⟩ | ⟨fileName, body, rfl, rfl⟩ :=
    stepStore_cases hs
  · exact ⟨hremoved, hkept⟩
  · have hexpired := expired_of_findsJudged hjudged hok hfound
    constructor
    · intro entry hmem
      rcases List.mem_append.mp hmem with hmem | hmem
      · exact hremoved entry hmem
      · rw [List.mem_singleton.mp hmem]
        exact hexpired
    · intro name
      dsimp only
      rw [Dict.get?_pop]
      by_cases hname : name = fileName
      · subst hname
        right
        refine ⟨if_pos rfl, fun body hbody => ?_⟩
        -- what was found is what was last written
        rcases hkept name with heq | ⟨hnone, -⟩
        · rw [heq] at hfound
          rw [hfound] at hbody
          exact Option.some.inj hbody ▸ hexpired
        · rw [hnone] at hfound
          cases hfound
      · rw [if_neg hname]
        exact hkept name
  · refine ⟨hremoved, fun name => ?_⟩
    dsimp only
    rw [Dict.get?_set, Dict.get?_set]
    by_cases hname : name = fileName
    · rw [if_pos hname, if_pos hname]
      exact .inl rfl
    · rw [if_neg hname, if_neg hname]
      exact hkept name

theorem judged_outline :
    Outline (storeProgram limit basePath t) (FindsJudged limit t) (initialStore directory)
      (KeptOrExpired limit t) (fun _ l => JudgedFile limit t l) where
  init := ⟨fun _ hmem => absurd hmem List.not_mem_nil, fun _ => .inl rfl⟩
  start s op _ := by cases op <;> trivial
  step h hjudged hok hs := ⟨h.step hjudged hok hs, JudgedFile.step hs⟩
  interfere _ _ hk _ _ := hk
  env := fun {e} => nomatch e
  envStable := fun {e} => nomatch e

/-- What was written last under a name, and is not expired, is there, and the
lookup of any key that leads to the name reads it. -/
def StillReadable (limit : Nat) (basePath : BasePath) (t : ℚ) (s : Store) : Prop :=
  ∀ fileName body, s.written.get? fileName = some body → ¬ ExpiredNumber limit t body →
    s.directory.get? fileName = some body ∧
      ∀ key path, pathFor basePath key = .ok path →
        fsencode (path.getLastD []) = some fileName →
        readReservationFile limit s.directory path = parseBody limit body

/-- In every run whose removals find no reservation that expires later than the
one judged, every file a sweep removed held an expired reservation, and what was
written and is not expired can still be read. -/
theorem sweep_spares_renewed {c : Config Store StoreCall}
    (hr : Reach (storeProgram limit basePath t) (FindsJudged limit t) (initialStore directory)
      c) :
    (∀ entry ∈ c.shared.removed, ExpiredNumber limit t entry.2) ∧
      StillReadable limit basePath t c.shared := by
  obtain ⟨hremoved, hkept⟩ := (judged_outline.sound hr).1
  refine ⟨hremoved, fun fileName body hwritten halive => ?_⟩
  have hthere : c.shared.directory.get? fileName = some body := by
    rcases hkept fileName with heq | ⟨-, hexpired⟩
    · exact heq.trans hwritten
    · exact absurd (hexpired body hwritten) halive
  refine ⟨hthere, fun key path _ hname => ?_⟩
  unfold readReservationFile
  rw [hname]
  dsimp only
  rw [hthere]

end Runs

/-! ## Two runs -/

/-- The scan comes to `x.json`; no file operation fails. -/
def scanX : DiskAnswer := ⟨some xJson, false⟩

/-- The scan ends; no file operation fails. -/
def scanEnds : DiskAnswer := ⟨none, false⟩

/-- A sweep at 100 that has judged `x`, which expires at 5. -/
def sweepJudged : List (Action StoreOp DiskAnswer Empty) :=
  [.call .expireReservations, .run 0 scanX, .run 0 scanX]

/-- `x` is renewed until 200, from start to end. -/
def renewX : List (Action StoreOp DiskAnswer Empty) :=
  [.call (.writeOneReservation (str "x") (storedBody "200.0")),
    .run 1 scanEnds, .run 1 scanEnds]

/-- The sweep removes what it judged, and a later write stays. -/
theorem sweep_spares_renewed_afterwards :
    ∃ c, Reach (storeProgram 1000 srv 100) (FindsJudged 1000 100)
        (initialStore (oneFile (storedBody "5.0"))) c ∧
      c.shared.removed = [(xJson, storedBody "5.0")] ∧
      c.shared.directory.get? xJson = some (storedBody "200.0") ∧
      (∀ entry ∈ c.shared.removed, ExpiredNumber 1000 100 entry.2) ∧
      StillReadable 1000 srv 100 c.shared := by
  have hrun := reach_get (storeProgram 1000 srv 100) (FindsJudged 1000 100)
    (initialStore (oneFile (storedBody "5.0")))
    (sweepJudged ++ [.run 0 scanEnds] ++ renewX) (by decide +kernel)
  exact ⟨_, hrun, by decide +kernel, by decide +kernel, sweep_spares_renewed hrun⟩

/-- `x` is renewed between the sweep's read and its removal: the sweep at 100
removes a reservation that expires at 200. -/
theorem renewed_file_removed :
    ¬ ∀ c, Reach (storeProgram 1000 srv 100) anyStep
        (initialStore (oneFile (storedBody "5.0"))) c →
      (∀ entry ∈ c.shared.removed, ExpiredNumber 1000 100 entry.2) ∧
        StillReadable 1000 srv 100 c.shared := by
  intro h
  have hrun := reach_get (storeProgram 1000 srv 100) anyStep
    (initialStore (oneFile (storedBody "5.0")))
    (sweepJudged ++ renewX ++ [.run 0 scanEnds]) (by decide +kernel)
  have hexpired := (h _ hrun).1 (xJson, storedBody "200.0") (by decide +kernel)
  exact absurd hexpired (by decide +kernel)

end NoraFleet.LocalStore
