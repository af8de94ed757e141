import NoraFleet.Base.Dict

/-!
# Sweeps

A sweep goes through a list of keys and does one step for each, which may change
the entries, counts as a removal or not, and may raise, which ends the sweep.
The steps here remove an entry on the verdict about its value (`removing`).

* `loop_spec` — a sweep whose verdicts are all there goes through every key and
  takes away exactly what its verdict condemns;
* `verdict_of_loop` — a sweep from which nothing escapes had a verdict on every
  value;
* `loop_append` — a sweep can be cut anywhere;
* `right_iff` — a sweep removes exactly what it should if and only if it is right
  about every single value;
* `collect_right_iff` — the same of a sweep that first collects what to remove;
* `mem_flatten_batches` — what is removed in batches is removed.
-/

namespace Base

/-- Where a sweep stands: the entries, the keys visited, how many steps counted
as a removal, and what escaped, if anything. -/
structure Sweep (κ ν ε : Type*) where
  entries : Dict κ ν
  visited : List κ
  removedCount : Nat
  raised : Option ε

namespace Sweep

variable {κ ν ε : Type*} [DecidableEq κ]

/-- Before the first step. -/
def start (entries : Dict κ ν) : Sweep κ ν ε := ⟨entries, [], 0, none⟩

/-- One step after the other, up to the first that raises. -/
def loop (step : κ → Dict κ ν → Except ε (Dict κ ν × Bool)) : List κ → Sweep κ ν ε → Sweep κ ν ε
  | [], sweep => sweep
  | key :: rest, sweep =>
      match step key sweep.entries with
      | .error e => { sweep with visited := sweep.visited ++ [key], raised := some e }
      | .ok (entries, removed) =>
          loop step rest
            { sweep with
              entries := entries
              visited := sweep.visited ++ [key]
              removedCount := if removed then sweep.removedCount + 1 else sweep.removedCount }

/-- The step that removes an entry on the verdict about its value; `gone` is
whether a key that is not there counts as removed. -/
def removing (verdict : ν → Except ε Bool) (gone : Bool) (key : κ) (entries : Dict κ ν) :
    Except ε (Dict κ ν × Bool) :=
  match entries.get? key with
  | none => .ok (entries, gone)
  | some value =>
      match verdict value with
      | .error e => .error e
      | .ok true => .ok (entries.pop key, true)
      | .ok false => .ok (entries, false)

/-- The verdict is there, and condemns the value. -/
def condemns (verdict : ν → Except ε Bool) (value : ν) : Bool :=
  match verdict value with
  | .ok delete => delete
  | .error _ => false

variable {verdict : ν → Except ε Bool} (gone : Bool)

omit [DecidableEq κ] in
theorem condemns_of_verdict {value : ν} {delete : Bool} (h : verdict value = .ok delete) :
    condemns verdict value = delete := by
  unfold condemns
  rw [h]

section Loop

variable {step : κ → Dict κ ν → Except ε (Dict κ ν × Bool)} {key : κ} {rest : List κ}
  {sweep : Sweep κ ν ε}

omit [DecidableEq κ]

/-- A step that raises ends the sweep. -/
theorem loop_cons_error {e : ε} (h : step key sweep.entries = .error e) :
    loop step (key :: rest) sweep =
      { sweep with visited := sweep.visited ++ [key], raised := some e } := by
  unfold loop
  rw [h]

/-- After a step that returns, the sweep goes on. -/
theorem loop_cons_ok {entries : Dict κ ν} {removed : Bool}
    (h : step key sweep.entries = .ok (entries, removed)) :
    loop step (key :: rest) sweep =
      loop step rest
        { sweep with
          entries := entries
          visited := sweep.visited ++ [key]
          removedCount := if removed then sweep.removedCount + 1 else sweep.removedCount } := by
  show (match step key sweep.entries with
    | .error e => { sweep with visited := sweep.visited ++ [key], raised := some e }
    | .ok (entries, removed) => loop step rest _) = _
  rw [h]

/-- A sweep can be cut anywhere. -/
theorem loop_append (first : List κ) (hstart : sweep.raised = none) :
    loop step (first ++ rest) sweep =
      if (loop step first sweep).raised = none then loop step rest (loop step first sweep)
      else loop step first sweep := by
  induction first generalizing sweep with
  | nil =>
      show loop step rest sweep = if sweep.raised = none then _ else _
      rw [if_pos hstart]
      rfl
  | cons key keys ih =>
      rw [List.cons_append]
      cases hstep : step key sweep.entries with
      | error e =>
          rw [loop_cons_error hstep, loop_cons_error hstep, if_neg (fun h => (nomatch h))]
      | ok next =>
          rw [loop_cons_ok hstep, loop_cons_ok hstep]
          exact ih hstart

/-- Steps that do the same on the keys of a sweep make the same of it. -/
theorem loop_congr {other : κ → Dict κ ν → Except ε (Dict κ ν × Bool)} {keys : List κ}
    (h : ∀ key ∈ keys, ∀ entries, step key entries = other key entries) :
    loop step keys sweep = loop other keys sweep := by
  induction keys generalizing sweep with
  | nil => rfl
  | cons key keys ih =>
      have hkey := h key List.mem_cons_self sweep.entries
      cases hstep : step key sweep.entries with
      | error e => rw [loop_cons_error hstep, loop_cons_error (hkey ▸ hstep)]
      | ok next =>
          rw [loop_cons_ok hstep, loop_cons_ok (hkey ▸ hstep)]
          exact ih fun k hk => h k (List.mem_cons_of_mem _ hk)

end Loop

/-- One step with a verdict: the entry under the key is gone if it was
condemned, the others stay. -/
theorem removing_spec {key : κ} {entries : Dict κ ν}
    (hverdict : ∀ value, entries.get? key = some value → ∃ delete, verdict value = .ok delete) :
    ∃ next removed, removing verdict gone key entries = .ok (next, removed) ∧
      ∀ k, next.get? k =
        if k = key then (entries.get? k).filter fun value => !condemns verdict value
        else entries.get? k := by
  unfold removing
  cases hget : entries.get? key with
  | none =>
      refine ⟨entries, gone, rfl, fun k => ?_⟩
      by_cases hk : k = key
      · rw [if_pos hk, hk, hget]
        rfl
      · rw [if_neg hk]
  | some value =>
      obtain ⟨delete, hdelete⟩ := hverdict value hget
      have hcondemns := condemns_of_verdict hdelete
      dsimp only
      rw [hdelete]
      cases delete with
      | true =>
          refine ⟨entries.pop key, true, rfl, fun k => ?_⟩
          rw [Dict.get?_pop]
          by_cases hk : k = key
          · rw [if_pos hk, if_pos hk, hk, hget, Option.filter_some, hcondemns]
            rfl
          · rw [if_neg hk, if_neg hk]
      | false =>
          refine ⟨entries, false, rfl, fun k => ?_⟩
          by_cases hk : k = key
          · rw [if_pos hk, hk, hget, Option.filter_some, hcondemns]
            rfl
          · rw [if_neg hk]

/-- A sweep whose verdicts are all there goes through every key and takes away
exactly what its verdict condemns. -/
theorem loop_spec (keys : List κ) (sweep : Sweep κ ν ε)
    (hverdict : ∀ key ∈ keys, ∀ value, sweep.entries.get? key = some value →
      ∃ delete, verdict value = .ok delete) :
    (loop (removing verdict gone) keys sweep).raised = sweep.raised ∧
      (loop (removing verdict gone) keys sweep).visited = sweep.visited ++ keys ∧
      ∀ k, (loop (removing verdict gone) keys sweep).entries.get? k =
        if k ∈ keys then (sweep.entries.get? k).filter fun value => !condemns verdict value
        else sweep.entries.get? k := by
  induction keys generalizing sweep with
  | nil => exact ⟨rfl, (List.append_nil _).symm, fun k => (if_neg List.not_mem_nil).symm⟩
  | cons key rest ih =>
      obtain ⟨next, removed, hstep, hnext⟩ := removing_spec gone
        (hverdict key List.mem_cons_self)
      rw [loop_cons_ok hstep]
      obtain ⟨hraised, hvisited, hget⟩ := ih
        { sweep with
          entries := next
          visited := sweep.visited ++ [key]
          removedCount := if removed then sweep.removedCount + 1 else sweep.removedCount }
        (by
          intro k hmem value hvalue
          dsimp only at hvalue
          rw [hnext] at hvalue
          by_cases hk : k = key
          · rw [if_pos hk, Option.filter_eq_some_iff] at hvalue
            exact hverdict k (List.mem_cons_of_mem _ hmem) value hvalue.1
          · rw [if_neg hk] at hvalue
            exact hverdict k (List.mem_cons_of_mem _ hmem) value hvalue)
      refine ⟨hraised, by rw [hvisited]; simp, fun k => ?_⟩
      rw [hget]
      dsimp only
      rw [hnext]
      by_cases hk : k = key
      · rw [if_pos hk, if_pos (List.mem_cons.mpr (.inl hk))]
        split
        · rw [Option.filter_filter]
          simp
        · rfl
      · simp [hk]

variable {gone} in
/-- A sweep from which nothing escapes had a verdict on every value. -/
theorem verdict_of_loop (keys : List κ) (sweep : Sweep κ ν ε)
    (hraised : (loop (removing verdict gone) keys sweep).raised = none) :
    ∀ key ∈ keys, ∀ value, sweep.entries.get? key = some value →
      ∃ delete, verdict value = .ok delete := by
  induction keys generalizing sweep with
  | nil => exact fun key hmem => absurd hmem List.not_mem_nil
  | cons key rest ih =>
      have hfirst : ∀ value, sweep.entries.get? key = some value →
          ∃ delete, verdict value = .ok delete := by
        intro value hvalue
        cases hjudge : verdict value with
        | ok delete => exact ⟨delete, rfl⟩
        | error e =>
            have hstep : removing verdict gone key sweep.entries = .error e := by
              simp only [removing, hvalue, hjudge]
            rw [loop_cons_error hstep] at hraised
            cases hraised
      obtain ⟨next, removed, hstep, hnext⟩ := removing_spec gone hfirst
      rw [loop_cons_ok hstep] at hraised
      intro k hmem value hvalue
      by_cases hk : k = key
      · exact hfirst value (hk ▸ hvalue)
      · refine ih _ hraised k ((List.mem_cons.mp hmem).resolve_left hk) value ?_
        dsimp only
        rw [hnext, if_neg hk]
        exact hvalue

/-! ### Sweeps from the start -/

variable (verdict) in
/-- A sweep is right about a value: its verdict is there, and is that of `P`. -/
def RightAbout (P : ν → Prop) (value : ν) : Prop :=
  ∃ delete, verdict value = .ok delete ∧ (delete = true ↔ P value)

section Whole

variable {gone} {keys : List κ} {entries : Dict κ ν}

/-- A sweep that returns has visited its keys. -/
theorem visited_of_returns
    (hraised : (loop (removing verdict gone) keys (start entries)).raised = none) :
    (loop (removing verdict gone) keys (start entries)).visited = keys :=
  (loop_spec gone keys (start entries) (verdict_of_loop keys _ hraised)).2.1

/-- A sweep that returns changes nothing but what it removes. -/
theorem leaves_of_returns
    (hraised : (loop (removing verdict gone) keys (start entries)).raised = none) (k : κ) :
    (loop (removing verdict gone) keys (start entries)).entries.get? k = none ∨
      (loop (removing verdict gone) keys (start entries)).entries.get? k = entries.get? k := by
  obtain ⟨-, -, hget⟩ := loop_spec gone keys (start entries) (verdict_of_loop keys _ hraised)
  rw [hget k]
  unfold start
  split
  · cases entries.get? k with
    | none => exact .inl rfl
    | some value =>
        rw [Option.filter_some]
        split
        · exact .inr rfl
        · exact .inl rfl
  · exact .inr rfl

/-- A sweep that returns removes an entry exactly if its key is swept and its
verdict is to. -/
theorem removed_iff
    (hraised : (loop (removing verdict gone) keys (start entries)).raised = none) {k : κ}
    {value : ν} (hvalue : entries.get? k = some value) :
    (loop (removing verdict gone) keys (start entries)).entries.get? k = none ↔
      k ∈ keys ∧ verdict value = .ok true := by
  have hverdict := verdict_of_loop keys _ hraised
  obtain ⟨-, -, hget⟩ := loop_spec gone keys (start entries) hverdict
  rw [hget k]
  have hentry : (start entries : Sweep κ ν ε).entries.get? k = some value := hvalue
  rw [hentry]
  by_cases hk : k ∈ keys
  · obtain ⟨delete, hdelete⟩ := hverdict k hk value hvalue
    rw [if_pos hk, Option.filter_some, condemns_of_verdict hdelete, hdelete]
    cases delete <;> simp [hk]
  · rw [if_neg hk]
    exact iff_of_false (fun hsome => (nomatch hsome)) (fun hboth => hk hboth.1)

variable (gone) in
/-- A sweep returns, having removed exactly what `P` says of the swept keys, if
and only if it is right about every value under them. -/
theorem right_iff {P : ν → Prop} :
    ((loop (removing verdict gone) keys (start entries)).raised = none ∧
      ∀ k value, entries.get? k = some value →
        ((loop (removing verdict gone) keys (start entries)).entries.get? k = none ↔
          k ∈ keys ∧ P value)) ↔
      ∀ k ∈ keys, ∀ value, entries.get? k = some value → RightAbout verdict P value := by
  constructor
  · rintro ⟨hraised, hexactly⟩ k hk value hvalue
    obtain ⟨delete, hdelete⟩ := verdict_of_loop keys _ hraised k hk value hvalue
    have hremoved := (removed_iff hraised hvalue).symm.trans (hexactly k value hvalue)
    rw [hdelete, and_congr_right_iff] at hremoved
    refine ⟨delete, hdelete, ?_⟩
    cases delete <;> simpa using hremoved hk
  · intro h
    have hverdict : ∀ k ∈ keys, ∀ value, entries.get? k = some value →
        ∃ delete, verdict value = .ok delete := by
      intro k hk value hvalue
      obtain ⟨delete, hdelete, -⟩ := h k hk value hvalue
      exact ⟨delete, hdelete⟩
    have hraised := (loop_spec gone keys (start entries) hverdict).1
    refine ⟨hraised, fun k value hvalue => (removed_iff hraised hvalue).trans ?_⟩
    refine and_congr_right fun hk => ?_
    obtain ⟨delete, hdelete, hright⟩ := h k hk value hvalue
    rw [hdelete, ← hright]
    cases delete <;> simp

end Whole

/-! ### Sweeps that collect first -/

section Collecting

variable (verdict) (entries : Dict κ ν) in
/-- The keys whose values are condemned, unless a verdict raises. -/
def collect : List κ → Except ε (List κ)
  | [] => .ok []
  | key :: rest =>
      match entries.get? key with
      | none => collect rest
      | some value =>
          match verdict value with
          | .error e => .error e
          | .ok delete =>
              match collect rest with
              | .error e => .error e
              | .ok found => .ok (if delete then key :: found else found)

variable {entries : Dict κ ν}

theorem collect_cons_of_none {key : κ} (h : entries.get? key = none) (rest : List κ) :
    collect verdict entries (key :: rest) = collect verdict entries rest := by
  simp only [collect, h]

/-- With a verdict on all values, the condemned keys are collected. -/
theorem collect_spec (keys : List κ)
    (hverdict : ∀ key ∈ keys, ∀ value, entries.get? key = some value →
      ∃ delete, verdict value = .ok delete) :
    ∃ found, collect verdict entries keys = .ok found ∧
      ∀ k, k ∈ found ↔
        k ∈ keys ∧ ∃ value, entries.get? k = some value ∧ verdict value = .ok true := by
  induction keys with
  | nil => exact ⟨[], rfl, by simp⟩
  | cons key rest ih =>
      obtain ⟨found, hfound, hmem⟩ := ih fun k hk => hverdict k (List.mem_cons_of_mem _ hk)
      cases hkey : entries.get? key with
      | none =>
          refine ⟨found, (collect_cons_of_none hkey rest).trans hfound, fun k => ?_⟩
          rw [hmem, List.mem_cons]
          constructor
          · rintro ⟨hk, hvalue⟩
            exact ⟨.inr hk, hvalue⟩
          · rintro ⟨rfl | hk, value, hvalue, hdelete⟩
            · rw [hkey] at hvalue
              cases hvalue
            · exact ⟨hk, value, hvalue, hdelete⟩
      | some value =>
          obtain ⟨delete, hdelete⟩ := hverdict key List.mem_cons_self value hkey
          refine ⟨if delete then key :: found else found, ?_, fun k => ?_⟩
          · simp only [collect, hkey, hdelete, hfound]
          · have hother : k ≠ key → (k ∈ (if delete then key :: found else found) ↔ k ∈ found) := by
              intro hk
              cases delete <;> simp [hk]
            by_cases hk : k = key
            · subst hk
              cases delete with
              | true => simp [hkey, hdelete]
              | false =>
                  have hnot : k ∉ found := by
                    intro hin
                    obtain ⟨-, value', hvalue', hdelete'⟩ := (hmem k).mp hin
                    obtain rfl := Option.some.inj (hkey.symm.trans hvalue')
                    rw [hdelete] at hdelete'
                    cases hdelete'
                  simp [hnot, hkey, hdelete]
            · rw [hother hk, hmem, List.mem_cons, or_iff_right hk]

/-- What was collected had a verdict on every value. -/
theorem verdict_of_collect (keys : List κ) {found : List κ}
    (h : collect verdict entries keys = .ok found) :
    ∀ key ∈ keys, ∀ value, entries.get? key = some value →
      ∃ delete, verdict value = .ok delete := by
  induction keys generalizing found with
  | nil => exact fun key hmem => absurd hmem List.not_mem_nil
  | cons key rest ih =>
      intro k hk value hvalue
      cases hkey : entries.get? key with
      | none =>
          rw [collect_cons_of_none hkey] at h
          rcases List.mem_cons.mp hk with rfl | hk
          · rw [hkey] at hvalue
            cases hvalue
          · exact ih h k hk value hvalue
      | some first =>
          simp only [collect, hkey] at h
          cases hfirst : verdict first with
          | error e =>
              rw [hfirst] at h
              cases h
          | ok delete =>
              rw [hfirst] at h
              dsimp only at h
              rcases List.mem_cons.mp hk with rfl | hk
              · obtain rfl := Option.some.inj (hkey.symm.trans hvalue)
                exact ⟨delete, hfirst⟩
              · cases hrest : collect verdict entries rest with
                | error e =>
                    rw [hrest] at h
                    cases h
                | ok others => exact ih hrest k hk value hvalue

/-- A sweep collects exactly what `P` says of the swept keys if and only if it is
right about every value under them. -/
theorem collect_right_iff {keys : List κ} {P : ν → Prop} :
    (∃ found, collect verdict entries keys = .ok found ∧
      ∀ k value, entries.get? k = some value → (k ∈ found ↔ k ∈ keys ∧ P value)) ↔
      ∀ k ∈ keys, ∀ value, entries.get? k = some value → RightAbout verdict P value := by
  constructor
  · rintro ⟨found, hfound, hexactly⟩ k hk value hvalue
    have hverdict := verdict_of_collect keys hfound
    obtain ⟨found', hfound', hmem⟩ := collect_spec keys hverdict
    obtain rfl := Except.ok.inj (hfound.symm.trans hfound')
    obtain ⟨delete, hdelete⟩ := hverdict k hk value hvalue
    have hcollected := (hmem k).symm.trans (hexactly k value hvalue)
    simp only [hvalue, Option.some.injEq, exists_eq_left', hdelete, hk, true_and,
      Except.ok.injEq] at hcollected
    exact ⟨delete, hdelete, hcollected⟩
  · intro h
    have hverdict : ∀ k ∈ keys, ∀ value, entries.get? k = some value →
        ∃ delete, verdict value = .ok delete := by
      intro k hk value hvalue
      obtain ⟨delete, hdelete, -⟩ := h k hk value hvalue
      exact ⟨delete, hdelete⟩
    obtain ⟨found, hfound, hmem⟩ := collect_spec keys hverdict
    refine ⟨found, hfound, fun k value hvalue => (hmem k).trans (and_congr_right fun hk => ?_)⟩
    obtain ⟨delete, hdelete, hright⟩ := h k hk value hvalue
    simp only [hvalue, Option.some.injEq, exists_eq_left', hdelete, Except.ok.injEq]
    exact hright

end Collecting

/-! ### Batches -/

/-- A list, cut into batches of a size. -/
def batches {α : Type*} (size : Nat) (l : List α) : List (List α) :=
  (List.range ((l.length + size - 1) / size)).map fun i => (l.drop (size * i)).take size

/-- Every item is in some batch. -/
theorem mem_flatten_batches {α : Type*} {size : Nat} (hsize : 0 < size) {l : List α} {x : α} :
    x ∈ (batches size l).flatten ↔ x ∈ l := by
  unfold batches
  rw [List.mem_flatten]
  constructor
  · rintro ⟨batch, hbatch, hx⟩
    obtain ⟨i, -, rfl⟩ := List.mem_map.mp hbatch
    exact List.mem_of_mem_drop (List.mem_of_mem_take hx)
  · intro hx
    obtain ⟨j, hj, rfl⟩ := List.mem_iff_getElem.mp hx
    have hlast : j / size < (l.length + size - 1) / size := by
      have hle : (j + size) / size ≤ (l.length + size - 1) / size :=
        Nat.div_le_div_right (by omega)
      rw [Nat.add_div_right j hsize] at hle
      exact hle
    have hparts : size * (j / size) + j % size = j := Nat.div_add_mod j size
    refine ⟨_, List.mem_map.mpr ⟨j / size, List.mem_range.mpr hlast, rfl⟩, ?_⟩
    have hmod : j % size < size := Nat.mod_lt j hsize
    refine List.mem_iff_getElem.mpr ⟨j % size, ?_, ?_⟩
    · rw [List.length_take, List.length_drop]
      omega
    · rw [List.getElem_take, List.getElem_drop]
      simp only [hparts]

/-- Removing batch after batch is removing all. -/
theorem foldl_popAll_batches (entries : Dict κ ν) {size : Nat} (hsize : 0 < size)
    (keys : List κ) (k : κ) :
    ((batches size keys).foldl Dict.popAll entries).get? k =
      if k ∈ keys then none else entries.get? k := by
  have hall : (batches size keys).foldl Dict.popAll entries =
      entries.popAll (batches size keys).flatten := List.foldl_flatten.symm
  rw [hall, Dict.get?_popAll]
  simp only [mem_flatten_batches hsize]

end Sweep

end Base
