import Mathlib
import NoraFleet.TempNetworks.Alignment

/-!
# One call after the other

In a run of calls one after the other, the storage holds no more networks than its limit and the
threshold allow, an eviction leaves as many as the limit says and takes those that were accessed
first, and a network that was just fetched stays. Only a call that raises can leave more: it does
not evict.

* `Newest.not_evicted` — what was stored last is not evicted;
* `good_of_sequential` — what holds of the tables in every such run;
* `lru_law` — the law, in every run whose steps leave room where a call raises;
* `crowded_of_step` — a step that does not breaks it.
-/

namespace NoraFleet.TempNetworks

open Base Base.Program

variable {Name Spec Network Time : Type*}

section Sorting

variable [LinearOrder Time]

/-! ## Sorting by access time -/

/-- What is not later than the last is sorted in before it. -/
theorem orderedInsert_concat {item last : Name × Time} (hle : item.2 ≤ last.2)
    (items : List (Name × Time)) :
    (items ++ [last]).orderedInsert (fun a b => a.2 ≤ b.2) item =
      items.orderedInsert (fun a b => a.2 ≤ b.2) item ++ [last] := by
  induction items with
  | nil => exact if_pos hle
  | cons first rest ih =>
      rw [List.cons_append, List.orderedInsert_cons, List.orderedInsert_cons]
      by_cases hfirst : item.2 ≤ first.2
      · rw [if_pos hfirst, if_pos hfirst]
        rfl
      · rw [if_neg hfirst, if_neg hfirst, ih]
        rfl

/-- The sort is stable: what comes last and is not earlier than the others stays last. -/
theorem insertionSort_concat {items : List (Name × Time)} {last : Name × Time}
    (hle : ∀ item ∈ items, item.2 ≤ last.2) :
    (items ++ [last]).insertionSort (fun a b => a.2 ≤ b.2) =
      items.insertionSort (fun a b => a.2 ≤ b.2) ++ [last] := by
  induction items with
  | nil => rfl
  | cons first rest ih =>
      rw [List.forall_mem_cons] at hle
      rw [List.cons_append, List.insertionSort_cons, List.insertionSort_cons, ih hle.2,
        orderedInsert_concat hle.1]

end Sorting

variable [DecidableEq Name]

/-! ## How many networks there are -/

theorem length_eq_card (table : Dict Name Network) :
    table.length = table.keys.toFinset.card := by
  have hcard : table.keys.toFinset.card = table.keys.length :=
    List.toFinset_card_of_nodup table.nodup
  rw [hcard]
  exact (List.length_map _).symm

theorem length_popAll_le (table : Dict Name Network) (names : List Name) :
    (table.popAll names).length ≤ table.length := by
  rw [length_eq_card, length_eq_card]
  refine Finset.card_le_card fun name hname => ?_
  rw [List.mem_toFinset, ← Dict.mem_iff_keys, Dict.mem_popAll] at hname
  exact List.mem_toFinset.mpr hname.2

/-- Names that are there, each once, are as many fewer. -/
theorem length_popAll {table : Dict Name Network} {names : List Name} (hnodup : names.Nodup)
    (hthere : ∀ name ∈ names, name ∈ table) :
    (table.popAll names).length + names.length = table.length := by
  have hsdiff : (table.popAll names).keys.toFinset = table.keys.toFinset \ names.toFinset := by
    ext name
    rw [List.mem_toFinset, ← Dict.mem_iff_keys, Dict.mem_popAll, Finset.mem_sdiff,
      List.mem_toFinset, List.mem_toFinset, ← Dict.mem_iff_keys, and_comm]
  have hsubset : names.toFinset ⊆ table.keys.toFinset := by
    intro name hname
    exact List.mem_toFinset.mpr (hthere name (List.mem_toFinset.mp hname))
  rw [length_eq_card, hsdiff, length_eq_card, ← List.toFinset_card_of_nodup hnodup,
    Finset.card_sdiff_add_card_eq_card hsubset]

theorem Aligned.length_eq {s : Storage Name Network Time} (h : Aligned s) :
    s.accessTimes.length = s.agentsTable.length := by
  rw [length_eq_card, length_eq_card]
  refine congrArg Finset.card ?_
  ext name
  rw [List.mem_toFinset, List.mem_toFinset, ← Dict.mem_iff_keys, ← Dict.mem_iff_keys]
  exact h.accessTimes name

variable [LinearOrder Time]

/-! ## Evictions -/

section Evictions

variable {s : Storage Name Network Time}

/-- The names that are evicted, if any are: as many as there are networks beyond the limit. -/
theorem lruOverflow_spec (h : Aligned s) (hmax : 0 < s.maxItems) :
    ((s.agentsTable.length : Int) ≤ s.maxItems + s.itemsOverflowThreshold ∧ s.lruOverflow = []) ∨
      (s.lruOverflow.Nodup ∧ (∀ name ∈ s.lruOverflow, name ∈ s.agentsTable) ∧
        (s.lruOverflow.length : Int) = s.agentsTable.length - s.maxItems) := by
  unfold Storage.lruOverflow
  dsimp only
  split
  · rename_i hle
    exact .inl ⟨by omega, rfl⟩
  · rename_i hover
    have hperm := List.perm_insertionSort (fun a b : Name × Time => a.2 ≤ b.2) s.accessTimes.items
    have htaken := List.take_sublist (s.agentsTable.length - s.maxItems : Int).toNat
      (s.accessTimes.items.insertionSort fun a b => a.2 ≤ b.2)
    refine .inr ⟨?_, fun name hname => ?_, ?_⟩
    · refine List.Nodup.sublist (htaken.map Prod.fst) ?_
      exact (hperm.map Prod.fst).nodup_iff.mpr s.accessTimes.nodup
    · refine (h.accessTimes name).mp ?_
      exact (hperm.map Prod.fst).subset ((htaken.map Prod.fst).subset hname)
    · have hlength := h.length_eq
      have hitems : (s.accessTimes.items.insertionSort fun a b => a.2 ≤ b.2).length =
          s.agentsTable.length := (List.length_insertionSort _ _).trans hlength
      rw [List.length_map, List.length_take, hitems]
      omega

/-- The storage holds no more networks than the limit and the threshold allow, if there is a
limit. -/
def WithinLimit (s : Storage Name Network Time) : Prop :=
  0 < s.maxItems → (s.agentsTable.length : Int) ≤ s.maxItems + s.itemsOverflowThreshold

theorem length_evicted (h : Aligned s) (hmax : 0 < s.maxItems) (hany : s.lruOverflow ≠ []) :
    ((s.removeAll s.lruOverflow).agentsTable.length : Int) = s.maxItems := by
  rcases lruOverflow_spec h hmax with ⟨-, hnil⟩ | ⟨hnodup, hthere, hlength⟩
  · exact absurd hnil hany
  · have hcount := length_popAll hnodup hthere
    rw [Storage.removeAll_eq]
    dsimp only
    omega

theorem withinLimit_evicted (h : Aligned s) (hmax : 0 < s.maxItems) :
    WithinLimit (s.removeAll s.lruOverflow) := by
  have hlimits : (s.removeAll s.lruOverflow).maxItems = s.maxItems ∧
      (s.removeAll s.lruOverflow).itemsOverflowThreshold = s.itemsOverflowThreshold := by
    rw [Storage.removeAll_eq]
    exact ⟨rfl, rfl⟩
  intro _
  rw [hlimits.1, hlimits.2]
  rcases lruOverflow_spec h hmax with ⟨hle, hnil⟩ | ⟨hnodup, hthere, hlength⟩
  · rw [hnil]
    exact hle
  · have hcount := length_popAll hnodup hthere
    rw [Storage.removeAll_eq]
    dsimp only
    omega

/-- The network that was stored last, and not before another was accessed. -/
structure Newest (agentName : Name) (s : Storage Name Network Time) : Prop where
  aligned : Aligned s
  last : ∃ items time, s.accessTimes.items = items ++ [(agentName, time)] ∧
    ∀ item ∈ items, item.2 ≤ time

/-- What was stored last is not evicted. -/
theorem Newest.not_evicted {agentName : Name} (h : Newest agentName s) (hmax : 0 < s.maxItems) :
    agentName ∉ s.lruOverflow := by
  obtain ⟨items, time, hitems, hle⟩ := h.last
  have hnodup := s.accessTimes.nodup
  have hcount : items.length + 1 = s.agentsTable.length := by
    rw [← h.aligned.length_eq]
    show _ = s.accessTimes.items.length
    rw [hitems, List.length_append, List.length_singleton]
  unfold Storage.lruOverflow
  dsimp only
  split
  · exact List.not_mem_nil
  · intro hmem
    have hroom : (s.agentsTable.length - s.maxItems : Int).toNat ≤
        (items.insertionSort fun a b => a.2 ≤ b.2).length := by
      rw [List.length_insertionSort]
      omega
    rw [hitems, insertionSort_concat hle, List.take_append_of_le_length hroom] at hmem
    obtain ⟨⟨name, earlier⟩, htaken, rfl⟩ := List.mem_map.mp hmem
    have hold : (name, earlier) ∈ items :=
      (List.mem_insertionSort _).mp (List.mem_of_mem_take htaken)
    rw [hitems, List.map_append, List.nodup_append] at hnodup
    exact hnodup.2.2 _ (List.mem_map_of_mem hold) _ List.mem_cons_self rfl

end Evictions

/-! ## Runs -/

/-- Whether a call has returned or raised. -/
def Call.ended : Call Name Spec Network Time → Bool
  | .returned _ => true
  | .raised => true
  | _ => false

/-- A step of a call that meets a condition, or a tick of the clock. -/
inductive Moves (kind : NetworkKind Name Spec Network) (hasBase : Bool)
    (ok : Answer Name Network Time → World Name Network Time → Call Name Spec Network Time → Prop) :
    World Name Network Time × Call Name Spec Network Time →
      World Name Network Time × Call Name Spec Network Time → Prop
  | step {answer w l w' l'} (hok : ok answer w l)
      (h : step kind hasBase answer w l = some (w', l')) :
      Moves kind hasBase ok (w, l) (w', l')
  | tick {w l t} (h : w.clock ≤ t) : Moves kind hasBase ok (w, l) ({ w with clock := t }, l)

/-- The storage and the call that runs or ran last, in a run of calls one after the other. -/
inductive Sequential (kind : NetworkKind Name Spec Network) (hasBase : Bool)
    (ok : Answer Name Network Time → World Name Network Time → Call Name Spec Network Time → Prop) :
    World Name Network Time × Call Name Spec Network Time → Prop
  | first (clock : Time) (op : Op Name Spec Time) :
      Sequential kind hasBase ok (initialWorld clock, start op)
  | move {c c'} (h : Sequential kind hasBase ok c) (hmove : Moves kind hasBase ok c c') :
      Sequential kind hasBase ok c'
  | next {w l} (op : Op Name Spec Time) (h : Sequential kind hasBase ok (w, l))
      (hended : l.ended = true) : Sequential kind hasBase ok (w, start op)

/-! ## The tables in such a run -/

/-- The tables have the same names, and no access is later than the clock. -/
structure Kept (s : Storage Name Network Time) (clock : Time) : Prop where
  aligned : Aligned s
  past : ∀ name time, s.accessTimes.get? name = some time → time ≤ clock

namespace Kept

variable {s s' : Storage Name Network Time} {clock now : Time}

theorem of_sameTables (h : Kept s clock) (same : SameTables s s') : Kept s' clock where
  aligned := h.aligned.of_sameTables same
  past := by
    rw [same.accessTimes]
    exact h.past

theorem set_past (h : Kept s clock) (hnow : now ≤ clock) (agentName : Name) :
    ∀ name time, (s.accessTimes.set agentName now).get? name = some time → time ≤ clock := by
  intro name time htime
  rw [Dict.get?_set] at htime
  split at htime
  · rw [← Option.some.inj htime]
    exact hnow
  · exact h.past name time htime

theorem store (h : Kept s clock) (hnow : now ≤ clock) (agentName : Name)
    (reservation : Reservation Name Time) (agentNetwork : Network) (size : Nat) :
    Kept (s.store agentName reservation agentNetwork size now) clock where
  aligned := h.aligned.store agentName reservation agentNetwork size now
  past := h.set_past hnow agentName

theorem touch (h : Kept s clock) {agentName : Name} (hthere : agentName ∈ s.agentsTable) :
    Kept (s.touch agentName clock) clock where
  aligned := (aligned_touch_iff h.aligned agentName clock).mpr hthere
  past := h.set_past le_rfl agentName

theorem removeAll (h : Kept s clock) (names : List Name) : Kept (s.removeAll names) clock where
  aligned := h.aligned.removeAll names
  past name time htime := by
    rw [Storage.removeAll_eq, Dict.get?_popAll] at htime
    split at htime
    · cases htime
    · exact h.past name time htime

theorem later {later : Time} (h : Kept s clock) (hle : clock ≤ later) : Kept s later :=
  ⟨h.aligned, fun name time htime => (h.past name time htime).trans hle⟩

end Kept

/-- What holds where a call stands that nothing else gets in the way of. -/
def Standing (w : World Name Network Time) : Call Name Spec Network Time → Prop
  | .addLock _ now => now ≤ w.clock
  | .getTouch agentName _ => agentName ∈ w.storage.agentsTable
  | .getBase agentName => agentName ∉ w.storage.agentsTable
  | .getBaseCheck agentName _ _ => agentName ∉ w.storage.agentsTable
  | .getBaseNow agentName _ _ => agentName ∉ w.storage.agentsTable
  | .getBaseLock agentName _ _ now => agentName ∉ w.storage.agentsTable ∧ now ≤ w.clock ∧
      Kept w.storage now
  | .setThresholdZero maxItems => w.storage.maxItems = maxItems
  | .setThreshold maxItems => w.storage.maxItems = maxItems ∧ w.storage.itemsOverflowThreshold = 0
  | .evictLock _ => 0 < w.storage.maxItems
  | _ => True

/-- The tables are kept, and the call stands where it may. -/
structure Good (c : World Name Network Time × Call Name Spec Network Time) : Prop where
  kept : Kept c.1.storage c.1.clock
  standing : Standing c.1 c.2

variable {kind : NetworkKind Name Spec Network} {hasBase : Bool} {answer : Answer Name Network Time}
  {w w' : World Name Network Time} {l l' : Call Name Spec Network Time}

/-- A name without reservation has no network. -/
theorem Kept.not_mem_of_reservation {s : Storage Name Network Time} {clock : Time}
    (h : Kept s clock) {agentName : Name} (hnone : s.reservationsTable.get? agentName = none) :
    agentName ∉ s.agentsTable := by
  intro hmem
  obtain ⟨reservation, hsome⟩ :=
    Dict.exists_get?_of_mem ((h.aligned.paired.reservations agentName).mpr hmem)
  rw [hnone] at hsome
  cases hsome

theorem kept_of_step (h : Good (w, l)) (hstep : step kind hasBase answer w l = some (w', l')) :
    Kept w'.storage w'.clock := by
  obtain ⟨hclock, hcases⟩ := step_storage hstep
  obtain ⟨hkept, hstanding⟩ := h
  rw [hclock]
  rcases hcases with same | ⟨batch, now, rfl, heq⟩ |
    ⟨agentName, reservation, agentNetwork, now, rfl, heq⟩ | ⟨agentName, agentNetwork, rfl, heq⟩ |
    ⟨result, -, heq⟩ | heq
  · exact hkept.of_sameTables same
  · rw [heq]
    exact Storage.addLoop_invariant (I := fun s => Kept s w.clock) kind now
      (fun s agentName reservation agentNetwork size hs =>
        hs.store hstanding agentName reservation agentNetwork size) batch _ [] [] hkept
  · rw [heq]
    exact hkept.store hstanding.2.1 agentName reservation agentNetwork _
  · rw [heq]
    exact hkept.touch hstanding
  · rw [heq]
    exact hkept.removeAll _
  · rw [heq]
    exact hkept.removeAll _

theorem standing_of_step (h : Good (w, l))
    (hstep : step kind hasBase answer w l = some (w', l')) : Standing w' l' := by
  obtain ⟨hkept, hstanding⟩ := h
  cases l with
  | addNow batch => cases hstep; exact le_refl w.clock
  | getReservation agentName =>
      simp only [step] at hstep
      split at hstep
      · cases hstep; trivial
      · rename_i hnone
        cases hstep; exact hkept.not_mem_of_reservation hnone
  | getNetwork agentName =>
      simp only [step] at hstep
      split at hstep
      · rename_i agentNetwork hsome
        cases hstep; exact Dict.mem_of_get?_eq_some hsome
      · cases hstep; trivial
  | getBase agentName =>
      simp only [step] at hstep
      -- what the base storage gives is not in the tables
      repeat' split at hstep
      all_goals cases hstep
      · trivial
      · trivial
      · exact hstanding
      · trivial
  | getBaseCheck agentName reservation agentNetwork =>
      simp only [step] at hstep
      split at hstep
      · cases hstep; trivial
      · cases hstep; exact hstanding
  | getBaseNow agentName reservation agentNetwork =>
      cases hstep; exact ⟨hstanding, le_refl w.clock, hkept⟩
  | setMax maxItems => cases hstep; exact rfl
  | setThresholdZero maxItems => cases hstep; exact ⟨hstanding, rfl⟩
  | evictCheck result =>
      simp only [step] at hstep
      split at hstep
      · cases hstep; trivial
      · rename_i hpositive
        -- without a positive limit nothing is evicted
        cases hstep; exact Int.not_le.mp hpositive
  | expireScan snapshot rest expired =>
      cases rest with
      | nil =>
          cases hstep
          show Standing w (if expired.isEmpty then .returned none else .expireLock snapshot expired)
          split <;> trivial
      | cons entry rest => cases hstep; trivial
  | notify owed result thenEvict =>
      cases owed with
      | nil =>
          cases hstep
          show Standing w (if thenEvict then .evictCheck result else .returned result)
          split <;> trivial
      | cons notice owed => cases hstep; trivial
  | addLock batch now =>
      cases hstep
      split <;> trivial
  | returned result => cases hstep
  | raised => cases hstep
  | _ =>
      simp only [step] at hstep
      repeat' split at hstep
      all_goals cases hstep
      all_goals trivial

theorem standing_start (w : World Name Network Time) (op : Op Name Spec Time) :
    Standing w (start op : Call Name Spec Network Time) := by
  cases op with
  | addReservations batch =>
      show Standing w (if batch.isEmpty then .returned none else .addBase batch)
      split <;> trivial
  | _ => trivial

theorem standing_of_tick {t : Time} (hstanding : Standing w l) (ht : w.clock ≤ t) :
    Standing { w with clock := t } l := by
  cases l with
  | addLock batch now => exact le_trans (show now ≤ w.clock from hstanding) ht
  | getBaseLock agentName reservation agentNetwork now =>
      exact ⟨hstanding.1, hstanding.2.1.trans ht, hstanding.2.2⟩
  | _ => exact hstanding

theorem Good.of_moves {ok : Answer Name Network Time → World Name Network Time →
    Call Name Spec Network Time → Prop}
    {c c' : World Name Network Time × Call Name Spec Network Time}
    (h : Good c) (hmove : Moves kind hasBase ok c c') : Good c' := by
  cases hmove with
  | step _ hstep => exact ⟨kept_of_step h hstep, standing_of_step h hstep⟩
  | tick ht => exact ⟨h.kept.later ht, standing_of_tick h.standing ht⟩

/-- One more step of a run. -/
theorem Sequential.step {ok : Answer Name Network Time → World Name Network Time →
    Call Name Spec Network Time → Prop} (h : Sequential kind hasBase ok (w, l))
    (answer : Answer Name Network Time) (hok : ok answer w l)
    (hstep : TempNetworks.step kind hasBase answer w l = some (w', l')) :
    Sequential kind hasBase ok (w', l') := h.move (.step hok hstep)

/-- What holds of the tables in every such run. -/
theorem good_of_sequential {ok : Answer Name Network Time → World Name Network Time →
    Call Name Spec Network Time → Prop} {c : World Name Network Time × Call Name Spec Network Time}
    (h : Sequential kind hasBase ok c) : Good c := by
  induction h with
  | first clock op =>
      exact ⟨⟨Aligned.empty, fun _ _ htime => by cases htime⟩, standing_start _ op⟩
  | move _ hmove ih => exact ih.of_moves hmove
  | next op _ _ ih => exact ⟨ih.kept, standing_start _ op⟩

/-! ## How many networks a call leaves -/

/-- The names of the entries before the first one whose constructor raises. -/
def storedNames (kind : NetworkKind Name Spec Network)
    (batch : List (Reservation Name Time × Spec)) : List Name :=
  (batch.takeWhile fun entry => (kind.agentNetwork entry.2 entry.1.id).isSome).map
    fun entry => entry.1.id

/-- Whether all constructors return. -/
def Constructs (kind : NetworkKind Name Spec Network)
    (batch : List (Reservation Name Time × Spec)) : Prop :=
  ∀ entry ∈ batch, (kind.agentNetwork entry.2 entry.1.id).isSome = true

/-- Where a step raises there is room: for the networks that were stored before a constructor
raised, and for those that are there when a limit that is no double is set. -/
def LeavesRoom (kind : NetworkKind Name Spec Network) (_ : Answer Name Network Time)
    (w : World Name Network Time) : Call Name Spec Network Time → Prop
  | .addLock batch _ => ¬ Constructs kind batch → 0 < w.storage.maxItems →
      ((w.storage.agentsTable.keys ++ storedNames kind batch).toFinset.card : Int) ≤
        w.storage.maxItems + w.storage.itemsOverflowThreshold
  | .setThreshold maxItems => Storage.overflowThreshold maxItems = none → 0 < maxItems →
      (w.storage.agentsTable.length : Int) ≤ maxItems
  | _ => True

/-- An eviction is still to come. -/
def Call.evicts : Call Name Spec Network Time → Bool
  | .notify _ _ thenEvict => thenEvict
  | .setThresholdZero _ => true
  | .setThreshold _ => true
  | .evictCheck _ => true
  | .evictLock _ => true
  | _ => false

omit [LinearOrder Time] in
/-- The loop of `add_reservations` raises if a constructor does, and stores what comes before. -/
theorem addLoop_keys (kind : NetworkKind Name Spec Network) (now : Time)
    (batch : List (Reservation Name Time × Spec)) (s : Storage Name Network Time)
    (added replaced : List Name) :
    ((Storage.addLoop kind now batch s added replaced).raised = true ↔ ¬ Constructs kind batch) ∧
      (Storage.addLoop kind now batch s added replaced).storage.maxItems = s.maxItems ∧
      (Storage.addLoop kind now batch s added replaced).storage.itemsOverflowThreshold =
        s.itemsOverflowThreshold ∧
      ∀ name, name ∈ (Storage.addLoop kind now batch s added replaced).storage.agentsTable ↔
        name ∈ s.agentsTable ∨ name ∈ storedNames kind batch := by
  induction batch generalizing s added replaced with
  | nil =>
      refine ⟨iff_of_false Bool.false_ne_true ?_, rfl, rfl, fun name => ?_⟩
      · exact not_not_intro fun entry hentry => absurd hentry List.not_mem_nil
      · exact (or_iff_left List.not_mem_nil).symm
  | cons entry rest ih =>
      obtain ⟨reservation, agentSpec⟩ := entry
      unfold Constructs storedNames
      rw [List.forall_mem_cons, List.takeWhile_cons]
      cases hnet : kind.agentNetwork agentSpec reservation.id with
      | none =>
          rw [Storage.addLoop_raise kind now hnet]
          refine ⟨iff_of_true rfl fun h => ?_, rfl, rfl, fun name => ?_⟩
          · exact Bool.false_ne_true h.1
          · exact (or_iff_left List.not_mem_nil).symm
      | some agentNetwork =>
          rw [Storage.addLoop_store kind now hnet]
          obtain ⟨hraised, hmax, hthreshold, hkeys⟩ := ih
            (s.store reservation.id reservation agentNetwork (kind.getSizeInBytes agentNetwork) now)
            (if (s.agentsTable.get? reservation.id).isNone then added ++ [reservation.id]
              else added)
            (if (s.agentsTable.get? reservation.id).isNone then replaced
              else replaced ++ [reservation.id])
          refine ⟨?_, hmax, hthreshold, fun name => ?_⟩
          · rw [hraised]
            exact not_congr (and_iff_right rfl).symm
          · rw [hkeys name]
            show name ∈ s.agentsTable.set _ _ ∨ _ ↔ name ∈ s.agentsTable ∨ name ∈ _ :: _
            rw [Dict.mem_set, List.mem_cons, or_assoc, or_left_comm]
            rfl

omit [LinearOrder Time] in
/-- How many networks there are after the loop. -/
theorem length_addLoop (kind : NetworkKind Name Spec Network) (now : Time)
    (batch : List (Reservation Name Time × Spec)) (s : Storage Name Network Time) :
    (s.addReservationsLocked kind now batch).storage.agentsTable.length =
      (s.agentsTable.keys ++ storedNames kind batch).toFinset.card := by
  rw [length_eq_card]
  refine congrArg Finset.card ?_
  ext name
  rw [List.mem_toFinset, List.mem_toFinset, ← Dict.mem_iff_keys, List.mem_append,
    ← Dict.mem_iff_keys]
  exact (addLoop_keys kind now batch s [] []).2.2.2 name

/-- What a call that has no eviction before it keeps: the storage is within its limit. -/
def Bounded (c : World Name Network Time × Call Name Spec Network Time) : Prop :=
  c.2.evicts = false → WithinLimit c.1.storage

omit [LinearOrder Time] in
theorem WithinLimit.removeAll {s : Storage Name Network Time} (h : WithinLimit s)
    (names : List Name) : WithinLimit (s.removeAll names) := by
  rw [Storage.removeAll_eq]
  intro hmax
  have hfewer := length_popAll_le s.agentsTable names
  have hwithin := h hmax
  dsimp only
  omega

theorem bounded_of_step (hgood : Good (w, l)) (h : Bounded (w, l))
    (hok : LeavesRoom kind answer w l)
    (hstep : step kind hasBase answer w l = some (w', l')) : Bounded (w', l') := by
  have hstanding := hgood.standing
  cases l with
  | addLock batch now =>
      cases hstep
      intro hevicts hmax
      obtain ⟨hraised, hmaxItems, hthreshold, -⟩ := addLoop_keys kind now batch w.storage [] []
      -- only a raising constructor keeps the call from evicting
      have hnot : ¬ Constructs kind batch := by
        rw [← hraised]
        by_contra hfalse
        rw [Bool.not_eq_true] at hfalse
        have hnotify : (if (w.storage.addReservationsLocked kind now batch).raised then Call.raised
            else Call.notify ((w.storage.addReservationsLocked kind now batch).added.map
                Notice.agentAdded ++
              (w.storage.addReservationsLocked kind now batch).replaced.map Notice.agentModified)
              none true : Call Name Spec Network Time).evicts = true := by
          rw [if_neg]
          · rfl
          · exact Bool.eq_false_iff.mp hfalse
        exact Bool.false_ne_true (hevicts.symm.trans hnotify)
      have hroom := hok hnot (hmaxItems ▸ hmax)
      show ((w.storage.addReservationsLocked kind now batch).storage.agentsTable.length : Int) ≤
        (w.storage.addReservationsLocked kind now batch).storage.maxItems +
          (w.storage.addReservationsLocked kind now batch).storage.itemsOverflowThreshold
      rw [length_addLoop]
      unfold Storage.addReservationsLocked
      rw [hmaxItems, hthreshold]
      exact hroom
  | expireLock snapshot expired => cases hstep; exact fun _ => (h rfl).removeAll expired
  | getExpiredLock agentName reservation =>
      cases hstep
      exact fun _ => (h rfl).removeAll [agentName]
  | getTouch agentName agentNetwork => cases hstep; exact fun _ => h rfl
  | getBaseLock agentName reservation agentNetwork now =>
      cases hstep
      intro hevicts
      cases hevicts
  | setMax maxItems =>
      cases hstep
      intro hevicts
      cases hevicts
  | setThresholdZero maxItems =>
      cases hstep
      intro hevicts
      cases hevicts
  | setThreshold maxItems =>
      obtain ⟨hmaxItems, hthreshold⟩ := hstanding
      simp only [step] at hstep
      split at hstep
      · rename_i hpositive
        split at hstep
        · rename_i hnone
          cases hstep
          intro _ hmax
          have hroom := hok hnone hpositive
          show (w.storage.agentsTable.length : Int) ≤
            w.storage.maxItems + w.storage.itemsOverflowThreshold
          rw [hmaxItems, hthreshold]
          omega
        · cases hstep
          intro hevicts
          cases hevicts
      · cases hstep
        intro hevicts
        cases hevicts
  | evictCheck result =>
      simp only [step] at hstep
      split at hstep
      · rename_i hunlimited
        cases hstep
        exact fun _ hmax => absurd hunlimited (Int.not_le.mpr hmax)
      · cases hstep
        intro hevicts
        cases hevicts
  | evictLock result => cases hstep; exact fun _ => withinLimit_evicted hgood.kept.aligned hstanding
  | notify owed result thenEvict =>
      cases owed with
      | nil =>
          cases hstep
          cases thenEvict with
          | true =>
              intro hevicts
              cases hevicts
          | false => exact fun _ => h rfl
      | cons notice owed => cases hstep; exact h
  | expireScan snapshot rest expired =>
      cases rest <;> cases hstep <;> exact fun _ => h rfl
  | returned result => cases hstep
  | raised => cases hstep
  | _ =>
      -- the step leaves the storage alone
      simp only [step] at hstep
      repeat' split at hstep
      all_goals cases hstep
      all_goals exact fun _ => h rfl

theorem bounded_of_sequential {c : World Name Network Time × Call Name Spec Network Time}
    (h : Sequential kind hasBase (LeavesRoom kind) c) : Bounded c := by
  induction h with
  | first clock op => exact fun _ hmax => absurd hmax (lt_irrefl _)
  | move hrun hmove ih =>
      cases hmove with
      | step hok hstep => exact bounded_of_step (good_of_sequential hrun) ih hok hstep
      | tick _ => exact ih
  | @next w l op _ hended ih =>
      refine fun _ => ih ?_
      cases l with
      | returned result => rfl
      | raised => rfl
      | _ => cases hended

/-- A step that does not leave room leaves too many networks, and the call has ended. -/
theorem crowded_of_step (hgood : Good (w, l)) (hok : ¬ LeavesRoom kind answer w l)
    (hstep : step kind hasBase answer w l = some (w', l')) :
    l'.ended = true ∧ ¬ WithinLimit w'.storage := by
  have hstanding := hgood.standing
  cases l with
  | addLock batch now =>
      obtain ⟨hraised, hmaxItems, hthreshold, -⟩ := addLoop_keys kind now batch w.storage [] []
      obtain ⟨hnot, hmax, hcrowded⟩ : ¬ Constructs kind batch ∧ 0 < w.storage.maxItems ∧
          ¬ ((w.storage.agentsTable.keys ++ storedNames kind batch).toFinset.card : Int) ≤
            w.storage.maxItems + w.storage.itemsOverflowThreshold := by
        unfold LeavesRoom at hok
        push Not at hok
        exact ⟨hok.1, hok.2.1, Int.not_le.mpr hok.2.2⟩
      have hresult : (w.storage.addReservationsLocked kind now batch).raised = true :=
        hraised.mpr hnot
      cases hstep
      refine ⟨?_, fun hwithin => hcrowded ?_⟩
      · rw [if_pos hresult]
        rfl
      · rw [← length_addLoop kind now batch w.storage, ← hmaxItems, ← hthreshold]
        exact hwithin (hmaxItems.symm ▸ hmax)
  | setThreshold maxItems =>
      obtain ⟨hmaxItems, hthreshold⟩ := hstanding
      obtain ⟨hnone, hpositive, hcrowded⟩ : Storage.overflowThreshold maxItems = none ∧
          0 < maxItems ∧ maxItems < (w.storage.agentsTable.length : Int) := by
        unfold LeavesRoom at hok
        push Not at hok
        exact hok
      simp only [step] at hstep
      rw [if_pos hpositive, hnone] at hstep
      cases hstep
      refine ⟨rfl, fun hwithin => ?_⟩
      have hle := hwithin (hmaxItems.symm ▸ hpositive)
      rw [hmaxItems, hthreshold] at hle
      omega
  | _ => exact absurd trivial hok

/-! ## What is evicted, and what is fetched -/

/-- When a call evicts networks, as many stay as the limit says, and none that stays was last
accessed before one that goes. -/
def EvictsLeastRecent (c : World Name Network Time × Call Name Spec Network Time) : Prop :=
  ∀ result, c.2 = .evictLock result → c.1.storage.lruOverflow ≠ [] →
    ((c.1.storage.removeAll c.1.storage.lruOverflow).agentsTable.length : Int) =
      c.1.storage.maxItems ∧
    ∀ evicted ∈ c.1.storage.lruOverflow,
      ∀ kept ∈ (c.1.storage.removeAll c.1.storage.lruOverflow).agentsTable,
        ∃ earlier later, c.1.storage.accessTimes.get? evicted = some earlier ∧
          c.1.storage.accessTimes.get? kept = some later ∧ earlier ≤ later

theorem evictsLeastRecent {c : World Name Network Time × Call Name Spec Network Time}
    (h : Good c) : EvictsLeastRecent c := by
  intro result hcall hany
  have haligned := h.kept.aligned
  have hmax : 0 < c.1.storage.maxItems := by
    have hstanding := h.standing
    rw [hcall] at hstanding
    exact hstanding
  refine ⟨length_evicted haligned hmax hany, fun evicted hevicted kept hkept => ?_⟩
  rw [Storage.removeAll_eq, Dict.mem_popAll] at hkept
  obtain ⟨later, hlater⟩ := Dict.exists_get?_of_mem ((haligned.accessTimes kept).mpr hkept.2)
  obtain ⟨earlier, hearlier, hle⟩ := Storage.accessTimes_le_of_evicted hevicted hkept.1 hlater
  exact ⟨earlier, later, hearlier, hlater, hle⟩

/-- A network that was fetched is the newest until the call evicts, and is there from then on. -/
def Fetched (agentName : Name) (c : World Name Network Time × Call Name Spec Network Time) : Prop :=
  (c.2.evicts = true ∧ Newest agentName c.1.storage ∨
      c.2.evicts = false ∧ Aligned c.1.storage ∧ agentName ∈ c.1.storage.agentsTable) ∧
    ((∃ owed result thenEvict, c.2 = .notify owed result thenEvict) ∨
      (∃ result, c.2 = .evictCheck result) ∨ (∃ result, c.2 = .evictLock result) ∨
      ∃ result, c.2 = .returned result)

omit [DecidableEq Name] in
theorem Newest.mem {s : Storage Name Network Time} {agentName : Name} (h : Newest agentName s) :
    agentName ∈ s.agentsTable := by
  obtain ⟨items, time, hitems, -⟩ := h.last
  refine (h.aligned.accessTimes agentName).mp ?_
  show agentName ∈ s.accessTimes.items.map Prod.fst
  rw [hitems, List.map_append]
  exact List.mem_append_right _ List.mem_cons_self

theorem newest_of_store (hgood : Good (w, l)) {agentName : Name}
    {reservation : Reservation Name Time} {agentNetwork : Network} {now : Time}
    (hl : l = .getBaseLock agentName reservation agentNetwork now)
    (hstep : step kind hasBase answer w l = some (w', l')) : Fetched agentName (w', l') := by
  subst hl
  cases hstep
  obtain ⟨habsent, -, hkept⟩ := hgood.standing
  refine ⟨.inl ⟨rfl, hkept.aligned.store agentName reservation agentNetwork _ now,
    w.storage.accessTimes.items, now, ?_, ?_⟩, .inl ⟨_, _, _, rfl⟩⟩
  · exact Dict.items_set_of_not_mem
      (fun hmem => habsent ((hkept.aligned.accessTimes agentName).mp hmem)) now
  · rintro ⟨name, time⟩ hitem
    exact hkept.past name time (Dict.get?_eq_some_iff.mpr hitem)

theorem Fetched.of_step {agentName : Name} (hgood : Good (w, l)) (h : Fetched agentName (w, l))
    (hstep : step kind hasBase answer w l = some (w', l')) : Fetched agentName (w', l') := by
  obtain ⟨hthere,
    ⟨owed, result, thenEvict, rfl⟩ | ⟨result, rfl⟩ | ⟨result, rfl⟩ | ⟨result, rfl⟩⟩ := h
  · cases owed with
    | nil =>
        cases hstep
        cases thenEvict with
        | true => exact ⟨hthere, .inr (.inl ⟨result, rfl⟩)⟩
        | false => exact ⟨hthere, .inr (.inr (.inr ⟨result, rfl⟩))⟩
    | cons notice owed => cases hstep; exact ⟨hthere, .inl ⟨owed, result, thenEvict, rfl⟩⟩
  · have hnewest : Newest agentName w.storage := by
      rcases hthere with ⟨-, hnewest⟩ | ⟨hended, -⟩
      · exact hnewest
      · cases hended
    simp only [step] at hstep
    split at hstep
    · cases hstep
      exact ⟨.inr ⟨rfl, hnewest.aligned, hnewest.mem⟩, .inr (.inr (.inr ⟨result, rfl⟩))⟩
    · cases hstep
      exact ⟨.inl ⟨rfl, hnewest⟩, .inr (.inr (.inl ⟨result, rfl⟩))⟩
  · have hnewest : Newest agentName w.storage := by
      rcases hthere with ⟨-, hnewest⟩ | ⟨hended, -⟩
      · exact hnewest
      · cases hended
    cases hstep
    refine ⟨.inr ⟨rfl, hnewest.aligned.removeAll _, ?_⟩, .inl ⟨_, _, _, rfl⟩⟩
    rw [Storage.removeAll_eq]
    exact Dict.mem_popAll.mpr ⟨hnewest.not_evicted hgood.standing, hnewest.mem⟩
  · cases hstep

/-- A network that was fetched from the base storage and stored is in all tables when the call
ends. -/
def KeepsFetched (kind : NetworkKind Name Spec Network) (hasBase : Bool)
    (c : World Name Network Time × Call Name Spec Network Time) : Prop :=
  ∀ agentName reservation agentNetwork now answer c' last,
    c.2 = .getBaseLock agentName reservation agentNetwork now →
    step kind hasBase answer c.1 c.2 = some c' →
    Relation.ReflTransGen (Moves kind hasBase anyStep) c' last → last.2.ended = true →
    Aligned last.1.storage ∧ agentName ∈ last.1.storage.agentsTable

theorem keepsFetched {c : World Name Network Time × Call Name Spec Network Time}
    (h : Good c) : KeepsFetched kind hasBase c := by
  intro agentName reservation agentNetwork now answer c' last hcall hstep hruns hended
  have hgood' : Good c' := ⟨kept_of_step h hstep, standing_of_step h hstep⟩
  have hlast : Good last ∧ Fetched agentName last := by
    clear hended
    induction hruns with
    | refl => exact ⟨hgood', newest_of_store h hcall hstep⟩
    | tail _ hmove ih =>
        refine ⟨ih.1.of_moves hmove, ?_⟩
        cases hmove with
        | step _ hstep => exact ih.2.of_step ih.1 hstep
        | tick _ => exact ih.2
  obtain ⟨hgood, hfetched, -⟩ := hlast
  refine ⟨hgood.kept.aligned, hfetched.elim (fun h => h.2.mem) fun h => h.2.2⟩

/-- **Least recently used.** In every run of calls one after the other whose steps leave room where
they raise: when a call has ended the storage is within its limit, an eviction takes what was
accessed first and leaves as many networks as the limit says, and what was fetched stays. -/
theorem lru_law (kind : NetworkKind Name Spec Network) (hasBase : Bool)
    (c : World Name Network Time × Call Name Spec Network Time)
    (h : Sequential kind hasBase (LeavesRoom kind) c) :
    (c.2.ended = true → WithinLimit c.1.storage) ∧ EvictsLeastRecent c ∧
      KeepsFetched kind hasBase c := by
  have hgood := good_of_sequential h
  refine ⟨fun hended => bounded_of_sequential h ?_, evictsLeastRecent hgood, keepsFetched hgood⟩
  obtain ⟨w, l⟩ := c
  cases l with
  | returned result => rfl
  | raised => rfl
  | _ => cases hended

/-- A base storage that has one network. -/
def holding : Answer String Nat Nat := ⟨false, some (⟨"d", 9, 9⟩, 4)⟩

/-- With a limit of two, three networks are stored and one of them is accessed again. Then a fourth
is fetched: the call evicts the two that were not accessed. -/
theorem lru_law_fetched :
    ∃ fetching evicting ended : World String Nat Nat × Call String Nat Nat Nat,
      (fetching.2 = .getBaseLock "d" ⟨"d", 9, 9⟩ 4 3 ∧ KeepsFetched plainKind true fetching) ∧
      (evicting.2 = .evictLock (some 4) ∧ evicting.1.storage.lruOverflow = ["b", "c"] ∧
        EvictsLeastRecent evicting) ∧
      (ended.2 = .returned (some 4) ∧ ended.1.storage.agentsTable.keys = ["a", "d"] ∧
        ended.1.storage.maxItems = 2 ∧ (ended.2.ended = true → WithinLimit ended.1.storage)) := by
  have hthreshold : Storage.overflowThreshold 2 = some 1 := by decide +kernel
  have hstart : Sequential plainKind true (LeavesRoom plainKind)
      (initialWorld 0, start (.setMaxAgentNetworks 2)) := .first 0 _
  have hset := ((hstart.step silent trivial rfl).step silent trivial rfl).step silent
    (fun hnone => absurd (hthreshold.symm.trans hnone) (by simp))
    (show _ = some (⟨{ (Storage.empty : Storage String Nat Nat) with
      maxItems := 2, itemsOverflowThreshold := 1 }, 0, []⟩, .evictCheck none) by
      simp only [step, hthreshold]
      rfl)
  have hlimited := (((hset.step silent trivial rfl).step silent trivial rfl).step silent trivial
    rfl)
  -- three networks are stored at 1, and "a" is accessed at 2
  have hadd := (hlimited.next (.addReservations
    [(⟨"a", 9, 9⟩, 1), (⟨"b", 9, 9⟩, 2), (⟨"c", 9, 9⟩, 3)]) rfl).move
    (.tick (t := 1) (Nat.zero_le 1))
  have hlock := (hadd.step silent trivial rfl).step silent trivial rfl
  have hstored := hlock.step silent (fun hnot => absurd (fun entry hentry => rfl) hnot) rfl
  have hnotified := (((hstored.step silent trivial rfl).step silent trivial rfl).step silent trivial
    rfl).step silent trivial rfl
  have hroomy := ((hnotified.step silent trivial rfl).step silent trivial rfl).step silent trivial
    rfl
  have hhit := (hroomy.next (.getAgentNetworkProvider "a") rfl).move (.tick (t := 2) (by decide))
  have htouched := (((hhit.step silent trivial rfl).step silent trivial rfl).step silent trivial
    rfl).step silent trivial rfl
  -- "d" is fetched at 3
  have hmiss := (htouched.next (.getAgentNetworkProvider "d") rfl).move (.tick (t := 3) (by decide))
  have hfetching := (((hmiss.step silent trivial rfl).step holding trivial rfl).step silent trivial
    rfl).step silent trivial rfl
  have hevicting := (((hfetching.step silent trivial rfl).step silent trivial rfl).step silent
    trivial rfl).step silent trivial rfl
  have hended := (((hevicting.step silent trivial rfl).step silent trivial rfl).step silent
    trivial rfl).step silent trivial rfl
  exact ⟨_, _, _, ⟨rfl, (lru_law plainKind true _ hfetching).2.2⟩,
    ⟨rfl, by decide, (lru_law plainKind true _ hevicting).2.1⟩,
    rfl, by decide, rfl, (lru_law plainKind true _ hended).1⟩

/-- Networks whose constructor raises for the spec 0. -/
def pickyKind : NetworkKind String Nat Nat where
  agentNetwork agentSpec _ := if agentSpec = 0 then none else some agentSpec
  getSizeInBytes := id

/-- With a limit of one, three networks are stored before the constructor of a fourth raises. -/
theorem raising_add_crowds : ¬ ∀ c : World String Nat Nat × Call String Nat Nat Nat,
    Sequential pickyKind false anyStep c → c.2.ended = true → WithinLimit c.1.storage := by
  intro h
  have hthreshold : Storage.overflowThreshold 1 = some 1 := by decide +kernel
  have hstart : Sequential pickyKind false anyStep
      (initialWorld 0, start (.setMaxAgentNetworks 1)) :=
    .first 0 _
  have hset := ((hstart.step silent trivial rfl).step silent trivial rfl).step silent trivial
    (show _ = some (⟨{ (Storage.empty : Storage String Nat Nat) with
      maxItems := 1, itemsOverflowThreshold := 1 }, 0, []⟩, .evictCheck none) by
      simp only [step, hthreshold]
      rfl)
  have hlimited := (((hset.step silent trivial rfl).step silent trivial rfl).step silent trivial
    rfl)
  have hadd := hlimited.next (.addReservations
    [(⟨"a", 5, 5⟩, 1), (⟨"b", 5, 5⟩, 1), (⟨"c", 5, 5⟩, 1), (⟨"d", 5, 5⟩, 0)]) rfl
  have hraised := ((hadd.step silent trivial rfl).step silent trivial rfl).step silent trivial rfl
  exact absurd (h _ hraised rfl (by decide)) (by decide)

end NoraFleet.TempNetworks
