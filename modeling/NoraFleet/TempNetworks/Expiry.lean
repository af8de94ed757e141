import NoraFleet.TempNetworks.Alignment

/-!
# Expiry and renewal

The decision that a reservation is expired is taken on a snapshot of the
reservations (`expire_reservations`) or on an unlocked read of one of them
(`get_agent_network_provider`). The removal comes later, in a locked block that
goes by the name alone, so it removes whatever reservation is stored under the
name by then.

`removal_expired` — in every run whose removals find no reservation renewed
beyond the one that was judged, an entry that disappears was evicted as least
recently used or holds an expired reservation. The invariant behind it is
`Judged`: what a call is about to remove was found expired at an earlier time of
the clock. `renewed_removed` is a run in which a renewal slips in between.
-/

namespace NoraFleet.TempNetworks

open Base Base.Program

variable {Name Spec Network Time : Type*} [DecidableEq Name] [LinearOrder Time]

/-- An entry that a step of `l` takes out of the reservations was evicted, or
its reservation is expired at that moment. -/
def RemovesExpired (w w' : World Name Network Time) (l : Call Name Spec Network Time) : Prop :=
  ∀ agentName reservation, w.storage.reservationsTable.get? agentName = some reservation →
    agentName ∉ w'.storage.reservationsTable →
    (∃ result, l = .evictLock result) ∨ Storage.isExpired w.clock reservation = true

/-- A removal by expiry finds no reservation that expires later than the one
that was judged. -/
def NotRenewed (_ : Answer Name Network Time) (w : World Name Network Time) :
    Call Name Spec Network Time → Prop
  | .expireLock snapshot expired =>
      ∀ agentName ∈ expired, ∀ found ∈ w.storage.reservationsTable.get? agentName,
        ∀ judged ∈ snapshot.get? agentName,
          found.expirationTimeInSeconds ≤ judged.expirationTimeInSeconds
  | .getExpiredLock agentName judged =>
      ∀ found ∈ w.storage.reservationsTable.get? agentName,
        found.expirationTimeInSeconds ≤ judged.expirationTimeInSeconds
  | _ => True

instance (answer : Answer Name Network Time) (w : World Name Network Time) :
    (l : Call Name Spec Network Time) → Decidable (NotRenewed answer w l)
  | .expireLock snapshot expired =>
      inferInstanceAs (Decidable (∀ agentName ∈ expired,
        ∀ found ∈ w.storage.reservationsTable.get? agentName,
        ∀ judged ∈ snapshot.get? agentName,
          found.expirationTimeInSeconds ≤ judged.expirationTimeInSeconds))
  | .getExpiredLock agentName judged =>
      inferInstanceAs (Decidable (∀ found ∈ w.storage.reservationsTable.get? agentName,
        found.expirationTimeInSeconds ≤ judged.expirationTimeInSeconds))
  | .addBase .. | .addNow .. | .addLock .. | .expireSnapshot | .expireScan ..
  | .getReservation .. | .getCheck .. | .getNetwork .. | .getTouch .. | .getBase ..
  | .getBaseCheck .. | .getBaseNow .. | .getBaseLock .. | .setMax .. | .setThresholdZero ..
  | .setThreshold .. | .evictCheck .. | .evictLock .. | .notify .. | .returned .. | .raised =>
      isTrue trivial

/-- What a call has judged so far was expired: the names it collected, by their
reservation in the snapshot, and the reservation of a lookup. -/
def Judged (w : World Name Network Time) : Call Name Spec Network Time → Prop
  | .expireScan snapshot rest expired =>
      (∀ entry ∈ rest, snapshot.get? entry.1 = some entry.2) ∧
        ∀ agentName ∈ expired, ∃ reservation,
          snapshot.get? agentName = some reservation ∧
            reservation.expirationTimeInSeconds < w.clock
  | .expireLock snapshot expired => ∀ agentName ∈ expired, ∃ reservation,
      snapshot.get? agentName = some reservation ∧
        reservation.expirationTimeInSeconds < w.clock
  | .getExpiredLock _ reservation => reservation.expirationTimeInSeconds < w.clock
  | _ => True

omit [DecidableEq Name] in
theorem isExpired_iff {now : Time} {reservation : Reservation Name Time} :
    Storage.isExpired now reservation = true ↔ reservation.expirationTimeInSeconds < now := by
  simp [Storage.isExpired]

theorem Judged.mono {w w' : World Name Network Time} (hle : w.clock ≤ w'.clock)
    {l : Call Name Spec Network Time} (h : Judged w l) : Judged w' l := by
  have later : ∀ {snapshot : Dict Name (Reservation Name Time)} {expired : List Name},
      (∀ agentName ∈ expired, ∃ reservation, snapshot.get? agentName = some reservation ∧
        reservation.expirationTimeInSeconds < w.clock) →
      ∀ agentName ∈ expired, ∃ reservation, snapshot.get? agentName = some reservation ∧
        reservation.expirationTimeInSeconds < w'.clock := by
    intro snapshot expired hexp agentName hmem
    obtain ⟨reservation, hget, hlt⟩ := hexp agentName hmem
    exact ⟨reservation, hget, hlt.trans_le hle⟩
  cases l with
  | expireScan snapshot rest expired => exact ⟨h.1, later h.2⟩
  | expireLock snapshot expired => exact later h
  | getExpiredLock agentName reservation => exact lt_of_lt_of_le h hle
  | _ => trivial

/-- The scan of one entry. -/
theorem Judged.scan {w : World Name Network Time} {snapshot : Dict Name (Reservation Name Time)}
    {entry : Name × Reservation Name Time} {rest : List (Name × Reservation Name Time)}
    {expired : List Name}
    (h : Judged w (.expireScan snapshot (entry :: rest) expired :
      Call Name Spec Network Time)) :
    Judged w (.expireScan snapshot rest
      (if Storage.isExpired w.clock entry.2 then expired ++ [entry.1] else expired) :
      Call Name Spec Network Time) := by
  obtain ⟨hrest, hexp⟩ := h
  refine ⟨fun e he => hrest e (List.mem_cons_of_mem _ he), fun agentName hmem => ?_⟩
  split at hmem
  · rename_i hexpired
    rcases List.mem_append.mp hmem with hmem | hmem
    · exact hexp agentName hmem
    · rw [List.mem_singleton.mp hmem]
      exact ⟨entry.2, hrest entry List.mem_cons_self, isExpired_iff.mp hexpired⟩
  · exact hexp agentName hmem

/-- A step leaves its own call with right judgements. -/
theorem Judged.step {kind : NetworkKind Name Spec Network} {hasBase : Bool}
    {answer : Answer Name Network Time} {w w' : World Name Network Time}
    {l l' : Call Name Spec Network Time} (h : Judged w l)
    (hs : step kind hasBase answer w l = some (w', l')) : Judged w' l' := by
  cases l with
  | expireSnapshot =>
      obtain ⟨rfl, rfl⟩ := Prod.mk.inj (Option.some.inj hs)
      exact ⟨fun _ he => Dict.get?_eq_some_iff.mpr he, fun _ hmem => absurd hmem List.not_mem_nil⟩
  | expireScan snapshot rest expired =>
      cases rest with
      | nil =>
          obtain ⟨rfl, rfl⟩ := Prod.mk.inj (Option.some.inj hs)
          split
          · trivial
          · exact h.2
      | cons entry rest =>
          obtain ⟨rfl, rfl⟩ := Prod.mk.inj (Option.some.inj hs)
          exact h.scan
  | getCheck agentName reservation =>
      simp only [TempNetworks.step] at hs
      split at hs
      · rename_i hexpired
        obtain ⟨rfl, rfl⟩ := Prod.mk.inj (Option.some.inj hs)
        exact isExpired_iff.mp hexpired
      · obtain ⟨rfl, rfl⟩ := Prod.mk.inj (Option.some.inj hs)
        trivial
  | notify owed result thenEvict =>
      cases owed with
      | nil =>
          obtain ⟨rfl, rfl⟩ := Prod.mk.inj (Option.some.inj hs)
          split <;> trivial
      | cons notice owed =>
          obtain ⟨rfl, rfl⟩ := Prod.mk.inj (Option.some.inj hs)
          trivial
  | addLock reservationsDict now =>
      obtain ⟨rfl, rfl⟩ := Prod.mk.inj (Option.some.inj hs)
      split <;> trivial
  | returned _ => cases hs
  | raised => cases hs
  | _ =>
      -- no other step enters a control point that carries a judgement
      simp only [TempNetworks.step] at hs
      repeat' split at hs
      all_goals
        obtain ⟨rfl, rfl⟩ := Prod.mk.inj (Option.some.inj hs)
        trivial

/-- Every call starts with nothing judged. -/
theorem Judged.start (w : World Name Network Time) (op : Op Name Spec Time) :
    Judged w (start op : Call Name Spec Network Time) := by
  cases op with
  | addReservations reservationsDict =>
      simp only [TempNetworks.start]
      split <;> trivial
  | _ => trivial

section Runs

variable {kind : NetworkKind Name Spec Network} {hasBase : Bool} {clock : Time}

/-- In every run, whatever a call is about to remove was judged right. -/
theorem judged_outline {ok : Answer Name Network Time → World Name Network Time →
      Call Name Spec Network Time → Prop} :
    Outline (storageProgram kind hasBase) ok (initialWorld clock) (fun _ => True) Judged where
  init := trivial
  start w op _ := Judged.start w op
  step _ h _ hs := ⟨trivial, h.step hs⟩
  interfere _ _ hk _ hs := hk.mono (le_of_eq (step_storage hs).1.symm)
  env _ _ := trivial
  envStable := by
    intro t w w' l _ h he
    obtain ⟨hle, rfl⟩ := env_world he
    exact h.mono hle

/-- A removal by expiry of names that were not renewed removes what is expired. -/
theorem RemovesExpired.of_expiring {answer : Answer Name Network Time}
    {w : World Name Network Time} {l : Call Name Spec Network Time} (h : Judged w l)
    (hok : NotRenewed answer w l) {agentName : Name} (hmem : agentName ∈ l.expiring)
    {reservation : Reservation Name Time}
    (hget : w.storage.reservationsTable.get? agentName = some reservation) :
    Storage.isExpired w.clock reservation = true := by
  cases l with
  | expireLock snapshot expired =>
      obtain ⟨judged, hjudged, hlt⟩ := h agentName hmem
      have hle := hok agentName hmem reservation hget judged hjudged
      exact isExpired_iff.mpr (hle.trans_lt hlt)
  | getExpiredLock name judged =>
      have hname : agentName = name := List.mem_singleton.mp hmem
      subst hname
      exact isExpired_iff.mpr (lt_of_le_of_lt (hok reservation hget) h)
  | _ => exact absurd hmem List.not_mem_nil

/-- In every run whose removals by expiry find no reservation renewed beyond the
one that was judged, no step but an eviction takes out an entry that is not
expired. -/
theorem removal_expired {c : Config (World Name Network Time) (Call Name Spec Network Time)}
    (hr : Reach (storageProgram kind hasBase) NotRenewed (initialWorld clock) c)
    {i : Nat} {l l' : Call Name Spec Network Time} (hl : c.calls[i]? = some l)
    {answer : Answer Name Network Time} (hok : NotRenewed answer c.shared l)
    {w' : World Name Network Time}
    (hs : step kind hasBase answer c.shared l = some (w', l')) :
    RemovesExpired c.shared w' l := by
  have hjudged : Judged c.shared l :=
    (judged_outline.sound hr).2 l (List.mem_of_getElem? hl)
  intro agentName reservation hget hgone
  have hmem : agentName ∈ c.shared.storage.reservationsTable := Dict.mem_of_get?_eq_some hget
  obtain ⟨-, same | ⟨batch, now, -, heq⟩ | ⟨name, renewed, network, now, -, heq⟩ |
    ⟨name, network, -, heq⟩ | ⟨result, rfl, -⟩ | heq⟩ := step_storage hs
  · rw [same.reservationsTable] at hgone
    exact absurd hmem hgone
  · refine absurd ?_ hgone
    rw [heq]
    exact Storage.addLoop_invariant kind now (I := fun s => agentName ∈ s.reservationsTable)
      (fun _ _ _ _ _ h => Dict.mem_set.mpr (.inr h)) batch _ [] [] hmem
  · refine absurd ?_ hgone
    rw [heq]
    exact Dict.mem_set.mpr (.inr hmem)
  · refine absurd ?_ hgone
    rw [heq]
    exact hmem
  · exact .inl ⟨result, rfl⟩
  · rw [heq, Storage.removeAll_eq] at hgone
    simp only [Dict.mem_popAll, not_and_or, not_not] at hgone
    rcases hgone with hexpiring | habsent
    · exact .inr (RemovesExpired.of_expiring hjudged hok hexpiring hget)
    · exact absurd hmem habsent

end Runs

/-! ## Two runs -/

/-- A deployment that expires at 5, and a sweep at 6 up to before its removal. -/
def deployThenSweep : List (Action (Op String Nat Nat) (Answer String Nat Nat) Nat) :=
  [.call (.addReservations [(⟨"a", 5, 5⟩, 7)]),
    .run 0 silent, .run 0 silent, .run 0 silent,
    .env 6, .call .expireReservations, .run 1 silent, .run 1 silent, .run 1 silent]

/-- Where the sweep is about to remove. -/
def sweepReady : Config (World String Nat Nat) (Call String Nat Nat Nat) :=
  (runSchedule (storageProgram plainKind false) NotRenewed ⟨initialWorld 0, []⟩
    deployThenSweep).get (by decide)

/-- The sweep removes the reservation it judged. -/
theorem removal_expired_sweep :
    ∃ l w' l', sweepReady.calls[1]? = some l ∧
      step plainKind false silent sweepReady.shared l = some (w', l') ∧
      "a" ∉ w'.storage.reservationsTable ∧ RemovesExpired sweepReady.shared w' l :=
  ⟨_, _, _, rfl, rfl, by decide,
    removal_expired (i := 1) (reach_get _ _ _ _ (by decide)) rfl
      (show NotRenewed silent sweepReady.shared _ by decide) rfl⟩

/-- Between the snapshot and the removal the reservation is renewed until 100:
the sweep then removes it at 6. -/
theorem renewed_removed :
    ¬ ∀ c, Reach (storageProgram plainKind false) anyStep (initialWorld 0) c →
      ∀ (i : Nat) l answer w' l', c.calls[i]? = some l →
        step plainKind false answer c.shared l = some (w', l') →
        RemovesExpired c.shared w' l := by
  intro h
  have run := reach_get (storageProgram plainKind false) anyStep (initialWorld 0)
    (deployThenSweep ++
      [.call (.addReservations [(⟨"a", 94, 100⟩, 8)]),
        .run 2 silent, .run 2 silent, .run 2 silent]) (by decide)
  rcases h _ run 1 _ silent _ _ rfl rfl "a" ⟨"a", 94, 100⟩ (by decide) (by decide) with
    ⟨_, hevict⟩ | hexpired
  · cases hevict
  · exact absurd hexpired (by decide)

end NoraFleet.TempNetworks
