import NoraFleet.TempNetworks.Calls

/-!
# The tables of the storage stay aligned

Every locked block but one writes the four tables together. The exception is
the stamp of a cache hit: `get_agent_network_provider` reads the reservation
and the network outside the lock, and then sets `access_times[agent_name]` in a
locked block that does not look whether the name is still there. A removal in
between leaves an access time without a network.

* `tables_paired` — networks, reservations and sizes are present or absent
  together in every reachable state;
* `tables_aligned` — so are the access times, in every run that stamps only
  names that are still in the table;
* `stale_stamp_misaligns` — a stamp of a name that is gone always breaks the
  alignment, and `stale_stamp_reachable` is a run that takes one.
-/

namespace NoraFleet.TempNetworks

open Base Base.Program

variable {Name Spec Network Time : Type*}

/-- Networks, reservations and sizes have the same keys. -/
structure Paired (s : Storage Name Network Time) : Prop where
  reservations : ∀ x, x ∈ s.reservationsTable ↔ x ∈ s.agentsTable
  sizes : ∀ x, x ∈ s.sizes ↔ x ∈ s.agentsTable

/-- All four tables have the same keys. -/
structure Aligned (s : Storage Name Network Time) : Prop where
  paired : Paired s
  accessTimes : ∀ x, x ∈ s.accessTimes ↔ x ∈ s.agentsTable

theorem Paired.empty : Paired (Storage.empty : Storage Name Network Time) :=
  ⟨fun _ => Iff.rfl, fun _ => Iff.rfl⟩

theorem Paired.of_sameTables {s t : Storage Name Network Time} (same : SameTables s t)
    (h : Paired s) : Paired t :=
  ⟨by rw [same.reservationsTable, same.agentsTable]; exact h.reservations,
    by rw [same.sizes, same.agentsTable]; exact h.sizes⟩

theorem Aligned.empty : Aligned (Storage.empty : Storage Name Network Time) :=
  ⟨Paired.empty, fun _ => Iff.rfl⟩

theorem Aligned.of_sameTables {s t : Storage Name Network Time} (same : SameTables s t)
    (h : Aligned s) : Aligned t :=
  ⟨h.paired.of_sameTables same,
    by rw [same.accessTimes, same.agentsTable]; exact h.accessTimes⟩

variable [DecidableEq Name]

theorem Paired.store {s : Storage Name Network Time} (h : Paired s) (agentName : Name)
    (reservation : Reservation Name Time) (agentNetwork : Network) (size : Nat) (now : Time) :
    Paired (s.store agentName reservation agentNetwork size now) where
  reservations x := by
    simp only [Storage.store, Dict.mem_set, h.reservations x]
  sizes x := by
    simp only [Storage.store, Dict.mem_set, h.sizes x]

theorem Paired.removeAll {s : Storage Name Network Time} (h : Paired s) (names : List Name) :
    Paired (s.removeAll names) where
  reservations x := by
    simp only [Storage.removeAll_eq, Dict.mem_popAll, h.reservations x]
  sizes x := by
    simp only [Storage.removeAll_eq, Dict.mem_popAll, h.sizes x]

theorem Aligned.store {s : Storage Name Network Time} (h : Aligned s) (agentName : Name)
    (reservation : Reservation Name Time) (agentNetwork : Network) (size : Nat) (now : Time) :
    Aligned (s.store agentName reservation agentNetwork size now) where
  paired := h.paired.store agentName reservation agentNetwork size now
  accessTimes x := by
    simp only [Storage.store, Dict.mem_set, h.accessTimes x]

theorem Aligned.removeAll {s : Storage Name Network Time} (h : Aligned s)
    (names : List Name) : Aligned (s.removeAll names) where
  paired := h.paired.removeAll names
  accessTimes x := by
    simp only [Storage.removeAll_eq, Dict.mem_popAll, h.accessTimes x]

theorem aligned_touch_iff {s : Storage Name Network Time} (h : Aligned s) (agentName : Name)
    (now : Time) : Aligned (s.touch agentName now) ↔ agentName ∈ s.agentsTable := by
  constructor
  · intro h'
    exact (h'.accessTimes agentName).mp (Dict.mem_set.mpr (.inl rfl))
  · intro hmem
    refine ⟨⟨h.paired.reservations, h.paired.sizes⟩, fun x => ?_⟩
    show x ∈ s.accessTimes.set agentName now ↔ x ∈ s.agentsTable
    rw [Dict.mem_set, h.accessTimes x]
    exact ⟨fun hx => hx.elim (fun hx => hx ▸ hmem) id, Or.inr⟩

variable [LinearOrder Time]

/-- A cache hit is stamped while its name is still in the table. -/
def StampsPresent (_ : Answer Name Network Time) (w : World Name Network Time) :
    Call Name Spec Network Time → Prop
  | .getTouch agentName _ => agentName ∈ w.storage.agentsTable
  | _ => True

instance (answer : Answer Name Network Time) (w : World Name Network Time) :
    (l : Call Name Spec Network Time) → Decidable (StampsPresent answer w l)
  | .getTouch agentName _ => inferInstanceAs (Decidable (agentName ∈ w.storage.agentsTable))
  | .addBase .. | .addNow .. | .addLock .. | .expireSnapshot | .expireScan .. | .expireLock ..
  | .getReservation .. | .getCheck .. | .getExpiredLock .. | .getNetwork .. | .getBase ..
  | .getBaseCheck .. | .getBaseNow .. | .getBaseLock .. | .setMax .. | .setThresholdZero ..
  | .setThreshold .. | .evictCheck .. | .evictLock .. | .notify .. | .returned .. | .raised =>
      isTrue trivial

section Runs

variable {kind : NetworkKind Name Spec Network} {hasBase : Bool} {clock : Time}

/-- Agents and their reservations are always present or absent together. -/
theorem tables_paired {c : Config (World Name Network Time) (Call Name Spec Network Time)}
    (hr : Reach (storageProgram kind hasBase) anyStep (initialWorld clock) c) :
    Paired c.shared.storage := by
  refine storage_invariant Paired.empty ?_ ?_ ?_ ?_ hr
  · intro s t same h
    exact h.of_sameTables same
  · intro s name reservation network size now h
    exact h.store name reservation network size now
  · intro _ w name _ h _
    exact ⟨h.reservations, h.sizes⟩
  · intro s names h
    exact h.removeAll names

/-- In every run that stamps only names still in the table, the four tables
have the same keys in every state reached. -/
theorem tables_aligned {c : Config (World Name Network Time) (Call Name Spec Network Time)}
    (hr : Reach (storageProgram kind hasBase) StampsPresent (initialWorld clock) c) :
    Aligned c.shared.storage := by
  refine storage_invariant Aligned.empty ?_ ?_ ?_ ?_ hr
  · intro s t same h
    exact h.of_sameTables same
  · intro s name reservation network size now h
    exact h.store name reservation network size now
  · intro _ w name _ h hok
    exact (aligned_touch_iff h name w.clock).mpr hok
  · intro s names h
    exact h.removeAll names

/-- From aligned tables, the stamp of a name that is gone breaks the alignment. -/
theorem stale_stamp_misaligns {answer : Answer Name Network Time}
    {w w' : World Name Network Time} {l l' : Call Name Spec Network Time}
    (h : Aligned w.storage) (hstale : ¬ StampsPresent answer w l)
    (hs : step kind hasBase answer w l = some (w', l')) : ¬ Aligned w'.storage := by
  cases l with
  | getTouch agentName agentNetwork =>
      obtain ⟨rfl, -⟩ := Prod.mk.inj (Option.some.inj hs)
      intro h'
      exact hstale ((aligned_touch_iff h agentName w.clock).mp h')
  | _ => exact absurd trivial hstale

end Runs

/-! ## Two runs -/

/-- Networks that are their own spec and their own size. -/
def plainKind : NetworkKind String Nat Nat where
  agentNetwork := fun agentSpec _ => some agentSpec
  getSizeInBytes := id

/-- A base storage that has nothing. -/
def silent : Answer String Nat Nat := ⟨false, none⟩

/-- A deployment that expires at 5, and a lookup up to before its stamp. -/
def deployThenLookUp : List (Action (Op String Nat Nat) (Answer String Nat Nat) Nat) :=
  [.call (.addReservations [(⟨"a", 5, 5⟩, 7)]),
    .run 0 silent, .run 0 silent, .run 0 silent,
    .call (.getAgentNetworkProvider "a"), .run 1 silent, .run 1 silent, .run 1 silent]

/-- The lookup stamps right away. -/
theorem tables_aligned_after_hit :
    Aligned ((runSchedule (storageProgram plainKind false) StampsPresent
      ⟨initialWorld 0, []⟩ (deployThenLookUp ++ [.run 1 silent])).get (by decide)).shared.storage :=
  tables_aligned (reach_get _ _ _ _ (by decide))

/-- Between the lookup's unlocked reads and its stamp the reservation expires
and is swept: the stamp then leaves an access time without a network. -/
theorem stale_stamp_reachable :
    ¬ ∀ c, Reach (storageProgram plainKind false) anyStep (initialWorld 0) c →
      Aligned c.shared.storage := by
  intro h
  have run := reach_get (storageProgram plainKind false) anyStep (initialWorld 0)
    (deployThenLookUp ++ [.env 6, .call .expireReservations,
      .run 2 silent, .run 2 silent, .run 2 silent, .run 2 silent, .run 1 silent]) (by decide)
  have stale := ((h _ run).accessTimes "a").mp (by decide)
  exact absurd stale (by decide)

end NoraFleet.TempNetworks
