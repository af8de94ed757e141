import Mathlib.Data.Finset.Basic
import Mathlib.Data.Finset.Dedup
import NoraFleet.TempNetworks.Expiry

/-!
# What a listener believes

A listener learns of the table from notifications that are sent after the
locked block, one at a time. `tally` is what it believes: it folds what it was
told in the order received.

`listener_tracks` — in every run that delivers notifications only while they
are still true of the table, the belief is the table's key set once all calls
have returned. The invariant, `Tracks`, holds while calls are under way: a name
on which belief and table differ is the name of a notification some call still
owes. `late_removal_reachable` is a run in which a removal is announced after
the name was deployed again.
-/

namespace NoraFleet.TempNetworks

open Base Base.Program

variable {Name Spec Network Time : Type*}

/-- The name a notice is about. -/
def Notice.name : Notice Name → Name
  | .agentAdded agentName => agentName
  | .agentModified agentName => agentName
  | .agentRemoved agentName => agentName

/-- What the notice says is true of the table. -/
def Notice.Holds (s : Storage Name Network Time) : Notice Name → Prop
  | .agentAdded agentName => agentName ∈ s.agentsTable
  | .agentModified agentName => agentName ∈ s.agentsTable
  | .agentRemoved agentName => agentName ∉ s.agentsTable

/-- The notifications a call has still to send. -/
def Call.owed : Call Name Spec Network Time → List (Notice Name)
  | .notify owed _ _ => owed
  | _ => []

/-- The call came to its end without raising. -/
def Call.isReturned : Call Name Spec Network Time → Bool
  | .returned _ => true
  | _ => false

variable [DecidableEq Name]

instance (s : Storage Name Network Time) (notice : Notice Name) :
    Decidable (notice.Holds s) :=
  match notice with
  | .agentAdded agentName => inferInstanceAs (Decidable (agentName ∈ s.agentsTable))
  | .agentModified agentName => inferInstanceAs (Decidable (agentName ∈ s.agentsTable))
  | .agentRemoved agentName => inferInstanceAs (Decidable (agentName ∉ s.agentsTable))

/-- One notification folded into a belief. -/
def hear (believed : Finset Name) : Notice Name → Finset Name
  | .agentAdded agentName => insert agentName believed
  | .agentModified agentName => insert agentName believed
  | .agentRemoved agentName => believed.erase agentName

/-- The set of names a listener believes to be there. -/
def tally (told : List (Notice Name)) : Finset Name := told.foldl hear ∅

theorem tally_append_singleton (told : List (Notice Name)) (notice : Notice Name) :
    tally (told ++ [notice]) = hear (tally told) notice := by
  unfold tally
  rw [List.foldl_append]
  rfl

theorem mem_hear_of_ne {believed : Finset Name} {notice : Notice Name} {x : Name}
    (h : notice.name ≠ x) : x ∈ hear believed notice ↔ x ∈ believed := by
  cases notice with
  | agentAdded agentName => simp [hear, Ne.symm (show agentName ≠ x from h)]
  | agentModified agentName => simp [hear, Ne.symm (show agentName ≠ x from h)]
  | agentRemoved agentName => simp [hear, Ne.symm (show agentName ≠ x from h)]

/-- A true notice makes the belief about its name right. -/
theorem mem_hear_name {s : Storage Name Network Time} {believed : Finset Name}
    {notice : Notice Name} (h : notice.Holds s) :
    notice.name ∈ hear believed notice ↔ notice.name ∈ s.agentsTable := by
  cases notice with
  | agentAdded agentName =>
      exact ⟨fun _ => h, fun _ => Finset.mem_insert_self agentName believed⟩
  | agentModified agentName =>
      exact ⟨fun _ => h, fun _ => Finset.mem_insert_self agentName believed⟩
  | agentRemoved agentName =>
      exact ⟨fun hmem => absurd hmem (Finset.notMem_erase agentName believed),
        fun hmem => absurd hmem h⟩

omit [DecidableEq Name] in
/-- Whether a notice is true depends on its own name alone. -/
theorem Notice.Holds.congr {s t : Storage Name Network Time} {notice : Notice Name}
    (h : notice.name ∈ t.agentsTable ↔ notice.name ∈ s.agentsTable)
    (hs : notice.Holds s) : notice.Holds t := by
  cases notice with
  | agentAdded agentName => exact h.mpr hs
  | agentModified agentName => exact h.mpr hs
  | agentRemoved agentName => exact fun hmem => hs (h.mp hmem)

variable [LinearOrder Time]

/-- A notification is delivered while what it says is still true. -/
def DeliversCurrent (_ : Answer Name Network Time) (w : World Name Network Time) :
    Call Name Spec Network Time → Prop
  | .notify (notice :: _) _ _ => notice.Holds w.storage
  | _ => True

instance (answer : Answer Name Network Time) (w : World Name Network Time) :
    (l : Call Name Spec Network Time) → Decidable (DeliversCurrent answer w l)
  | .notify (notice :: _) _ _ => inferInstanceAs (Decidable (notice.Holds w.storage))
  | .notify [] _ _ | .addBase .. | .addNow .. | .addLock .. | .expireSnapshot | .expireScan ..
  | .expireLock .. | .getReservation .. | .getCheck .. | .getExpiredLock .. | .getNetwork ..
  | .getTouch .. | .getBase .. | .getBaseCheck .. | .getBaseNow .. | .getBaseLock ..
  | .setMax .. | .setThresholdZero .. | .setThreshold .. | .evictCheck .. | .evictLock ..
  | .returned .. | .raised =>
      isTrue trivial

/-- The call owes a true notice about `x`. -/
def Owes (w : World Name Network Time) (l : Call Name Spec Network Time) (x : Name) : Prop :=
  ∃ notice ∈ l.owed, notice.name = x ∧ notice.Holds w.storage

/-- Belief and table agree on `x`. -/
def InStep (w : World Name Network Time) (x : Name) : Prop :=
  x ∈ tally w.told ↔ x ∈ w.storage.agentsTable

/-- Belief and table agree on every name no call owes a notice about, unless a
call raised. -/
def Tracks (c : Config (World Name Network Time) (Call Name Spec Network Time)) : Prop :=
  .raised ∈ c.calls ∨ ∀ x, InStep c.shared x ∨ ∃ l ∈ c.calls, Owes c.shared l x

/-! ## What a step can do to the table and to the listener -/

omit [LinearOrder Time] in
/-- After a removal of `names`, a changed name is among them and its notice is
true. -/
theorem removeAll_owed (s : Storage Name Network Time) (names : List Name) (x : Name) :
    (x ∈ (s.removeAll names).agentsTable ↔ x ∈ s.agentsTable) ∨
      ∃ notice ∈ names.map Notice.agentRemoved, notice.name = x ∧
        notice.Holds (s.removeAll names) := by
  have htable : (x ∈ (s.removeAll names).agentsTable ↔ x ∉ names ∧ x ∈ s.agentsTable) := by
    rw [Storage.removeAll_eq]
    exact Dict.mem_popAll
  by_cases hx : x ∈ names
  · refine .inr ⟨.agentRemoved x, List.mem_map_of_mem hx, rfl, ?_⟩
    intro hmem
    exact (htable.mp hmem).1 hx
  · refine .inl (htable.trans ⟨fun h => h.2, fun h => ⟨hx, h⟩⟩)

omit [LinearOrder Time] in
/-- After the loop of `add_reservations`, a changed name is among those it
reports and its notice is true. -/
theorem addLocked_owed (kind : NetworkKind Name Spec Network) (now : Time)
    (batch : List (Reservation Name Time × Spec)) (s : Storage Name Network Time) (x : Name) :
    let result := s.addReservationsLocked kind now batch
    (x ∈ result.storage.agentsTable ↔ x ∈ s.agentsTable) ∨
      ∃ notice ∈ result.added.map Notice.agentAdded ++ result.replaced.map .agentModified,
        notice.name = x ∧ notice.Holds result.storage := by
  intro result
  have htable : x ∈ result.storage.agentsTable ↔
      x ∈ s.agentsTable ∨ x ∈ result.added ++ result.replaced :=
    Storage.mem_agentsTable_addLoop kind now batch s [] []
      (fun _ hx => absurd hx List.not_mem_nil) x
  by_cases hx : x ∈ result.added ++ result.replaced
  · have hmem : x ∈ result.storage.agentsTable := htable.mpr (.inr hx)
    rcases List.mem_append.mp hx with hadded | hreplaced
    · exact .inr ⟨.agentAdded x, List.mem_append.mpr (.inl (List.mem_map_of_mem hadded)),
        rfl, hmem⟩
    · exact .inr ⟨.agentModified x, List.mem_append.mpr (.inr (List.mem_map_of_mem hreplaced)),
        rfl, hmem⟩
  · exact .inl (htable.trans ⟨fun h => h.resolve_right hx, Or.inl⟩)

/-- What one step can do to table and listener: it delivers the first notice its
call owes, or it leaves the listener alone, owes nothing before and afterwards
owes a true notice about every name it changed. A step into `raised` is free. -/
theorem step_notices {kind : NetworkKind Name Spec Network} {hasBase : Bool}
    {answer : Answer Name Network Time} {w w' : World Name Network Time}
    {l l' : Call Name Spec Network Time} (h : step kind hasBase answer w l = some (w', l')) :
    l' = .raised ∨
    (∃ notice owed result thenEvict, l = .notify (notice :: owed) result thenEvict ∧
      w' = { w with told := w.told ++ [notice] } ∧ l' = .notify owed result thenEvict) ∨
    (w'.told = w.told ∧ l.owed = [] ∧
      ∀ x, (x ∈ w'.storage.agentsTable ↔ x ∈ w.storage.agentsTable) ∨ Owes w' l' x) := by
  cases l with
  | addLock reservationsDict now =>
      obtain ⟨rfl, rfl⟩ := Prod.mk.inj (Option.some.inj h)
      split
      · exact .inl rfl
      · exact .inr (.inr ⟨rfl, rfl, addLocked_owed kind now reservationsDict w.storage⟩)
  | expireLock snapshot expired =>
      obtain ⟨rfl, rfl⟩ := Prod.mk.inj (Option.some.inj h)
      exact .inr (.inr ⟨rfl, rfl, removeAll_owed w.storage expired⟩)
  | getExpiredLock agentName reservation =>
      obtain ⟨rfl, rfl⟩ := Prod.mk.inj (Option.some.inj h)
      exact .inr (.inr ⟨rfl, rfl, removeAll_owed w.storage [agentName]⟩)
  | evictLock result =>
      obtain ⟨rfl, rfl⟩ := Prod.mk.inj (Option.some.inj h)
      exact .inr (.inr ⟨rfl, rfl, removeAll_owed w.storage w.storage.lruOverflow⟩)
  | getBaseLock agentName reservation agentNetwork now =>
      obtain ⟨rfl, rfl⟩ := Prod.mk.inj (Option.some.inj h)
      refine .inr (.inr ⟨rfl, rfl, fun x => ?_⟩)
      by_cases hx : x = agentName
      · subst hx
        exact .inr ⟨.agentAdded x, List.mem_cons_self, rfl, Dict.mem_set.mpr (.inl rfl)⟩
      · refine .inl (Dict.mem_set.trans ⟨fun hmem => hmem.resolve_left hx, Or.inr⟩)
  | notify owed result thenEvict =>
      cases owed with
      | nil =>
          obtain ⟨rfl, rfl⟩ := Prod.mk.inj (Option.some.inj h)
          exact .inr (.inr ⟨rfl, rfl, fun x => .inl Iff.rfl⟩)
      | cons notice owed =>
          obtain ⟨rfl, rfl⟩ := Prod.mk.inj (Option.some.inj h)
          exact .inr (.inl ⟨notice, owed, result, thenEvict, rfl, rfl, rfl⟩)
  | expireScan snapshot rest expired =>
      cases rest <;>
      · obtain ⟨rfl, rfl⟩ := Prod.mk.inj (Option.some.inj h)
        exact .inr (.inr ⟨rfl, rfl, fun x => .inl Iff.rfl⟩)
  | returned _ => cases h
  | raised => cases h
  | _ =>
      -- every other step touches neither the table nor the listener
      simp only [step] at h
      repeat' split at h
      all_goals
        obtain ⟨rfl, rfl⟩ := Prod.mk.inj (Option.some.inj h)
        exact .inr (.inr ⟨rfl, rfl, fun x => .inl Iff.rfl⟩)

section Runs

variable {kind : NetworkKind Name Spec Network} {hasBase : Bool} {clock : Time}

/-- One step of one call, seen at one name: afterwards its call owes a notice
about the name, or belief and table agree on it, or nothing changed there. -/
theorem step_at {answer : Answer Name Network Time} {w w' : World Name Network Time}
    {l l' : Call Name Spec Network Time} (hok : DeliversCurrent answer w l)
    (h : step kind hasBase answer w l = some (w', l')) (hl' : l' ≠ .raised) (x : Name) :
    Owes w' l' x ∨ InStep w' x ∨
      ((x ∈ tally w'.told ↔ x ∈ tally w.told) ∧
        (x ∈ w'.storage.agentsTable ↔ x ∈ w.storage.agentsTable) ∧ ¬ Owes w l x) := by
  rcases step_notices h with hraised | ⟨notice, owed, result, thenEvict, rfl, rfl, rfl⟩ |
    ⟨htold, howed, hchange⟩
  · exact absurd hraised hl'
  · have hholds : notice.Holds w.storage := hok
    by_cases hname : notice.name = x
    · subst hname
      refine .inr (.inl ?_)
      show notice.name ∈ tally (w.told ++ [notice]) ↔ notice.name ∈ w.storage.agentsTable
      rw [tally_append_singleton]
      exact mem_hear_name hholds
    · by_cases howes : ∃ later ∈ owed, later.name = x ∧ later.Holds w.storage
      · exact .inl howes
      · refine .inr (.inr ⟨?_, Iff.rfl, ?_⟩)
        · show x ∈ tally (w.told ++ [notice]) ↔ x ∈ tally w.told
          rw [tally_append_singleton]
          exact mem_hear_of_ne hname
        · rintro ⟨later, hmem, hlater, hlaterHolds⟩
          rcases List.mem_cons.mp hmem with rfl | hmem
          · exact hname hlater
          · exact howes ⟨later, hmem, hlater, hlaterHolds⟩
  · rcases hchange x with hsame | howes
    · refine .inr (.inr ⟨by rw [htold], hsame, ?_⟩)
      rintro ⟨later, hmem, -⟩
      rw [howed] at hmem
      exact absurd hmem List.not_mem_nil
    · exact .inl howes

omit [DecidableEq Name] [LinearOrder Time] in
/-- A notice another call owes stays owed and true at a name the step did not
change. -/
theorem Owes.congr {w w' : World Name Network Time} {k : Call Name Spec Network Time} {x : Name}
    (hsame : x ∈ w'.storage.agentsTable ↔ x ∈ w.storage.agentsTable) (h : Owes w k x) :
    Owes w' k x := by
  obtain ⟨notice, hmem, rfl, hholds⟩ := h
  exact ⟨notice, hmem, rfl, hholds.congr hsame⟩

/-- A step that delivers only what is true keeps `Tracks`. -/
theorem Tracks.run {w w' : World Name Network Time} {ls : List (Call Name Spec Network Time)}
    {i : Nat} {l l' : Call Name Spec Network Time} {answer : Answer Name Network Time}
    (ih : Tracks ⟨w, ls⟩) (hl : ls[i]? = some l) (hok : DeliversCurrent answer w l)
    (h : step kind hasBase answer w l = some (w', l')) : Tracks ⟨w', ls.set i l'⟩ := by
  by_cases hl' : l' = .raised
  · subst hl'
    exact .inl (self_mem_set _ hl)
  rcases ih with hraised | htracks
  · -- a call that raised takes no step, so it is another one and is still there
    rcases mem_set_of_mem l' hl hraised with rfl | hmem
    · cases h
    · exact .inl hmem
  · refine .inr fun x => ?_
    rcases step_at hok h hl' x with howes | hstep | ⟨htold, htable, hnot⟩
    · exact .inr ⟨l', self_mem_set l' hl, howes⟩
    · exact .inl hstep
    · rcases htracks x with hstep | ⟨k, hk, howes⟩
      · exact .inl (htold.trans (hstep.trans htable.symm))
      · rcases mem_set_of_mem l' hl hk with rfl | hmem
        · exact absurd howes hnot
        · exact .inr ⟨k, hmem, howes.congr htable⟩

/-- In every run that delivers only what is true, every difference between
belief and table is owed. -/
theorem tracks {c : Config (World Name Network Time) (Call Name Spec Network Time)}
    (hr : Reach (storageProgram kind hasBase) DeliversCurrent (initialWorld clock) c) :
    Tracks c := by
  induction hr with
  | init => exact .inr fun x => .inl ⟨fun h => absurd h (Finset.notMem_empty x),
      fun h => absurd h (Dict.not_mem_empty x)⟩
  | call op _ ih =>
      rcases ih with hraised | htracks
      · exact .inl (List.mem_append_left _ hraised)
      · refine .inr fun x => (htracks x).imp id ?_
        rintro ⟨l, hl, howes⟩
        exact ⟨l, List.mem_append_left _ hl, howes⟩
  | run _ hl hok hs ih => exact ih.run hl hok hs
  | env _ he ih =>
      obtain ⟨-, rfl⟩ := env_world he
      exact ih

/-- In every run that delivers notifications only while they are true of the
table, the listener believes the table's key set once all calls have returned. -/
theorem listener_tracks {c : Config (World Name Network Time) (Call Name Spec Network Time)}
    (hr : Reach (storageProgram kind hasBase) DeliversCurrent (initialWorld clock) c)
    (hreturned : ∀ l ∈ c.calls, l.isReturned = true) :
    tally c.shared.told = c.shared.storage.agentsTable.keys.toFinset := by
  ext x
  rw [List.mem_toFinset]
  rcases tracks hr with hraised | htracks
  · exact absurd (hreturned _ hraised) (by simp [Call.isReturned])
  · rcases htracks x with hstep | ⟨l, hl, notice, hmem, -⟩
    · exact hstep
    · have hret := hreturned l hl
      cases l with
      | returned result => exact absurd hmem List.not_mem_nil
      | _ => cases hret

end Runs

/-! ## Two runs -/

/-- The sweep announces its removal at once. -/
theorem listener_tracks_sweep :
    tally ((runSchedule (storageProgram plainKind false) DeliversCurrent ⟨initialWorld 0, []⟩
      ([.call (.addReservations [(⟨"a", 5, 5⟩, 7)])] ++ List.replicate 6 (.run 0 silent) ++
        [.env 6, .call .expireReservations] ++ List.replicate 6 (.run 1 silent))).get
        (by decide)).shared.told = ∅ :=
  (listener_tracks (reach_get _ _ _ _ (by decide)) (by decide)).trans (by decide)

/-- A sweep removes `a` and is about to announce it. Another call deploys `a`
again and announces that; then the removal is announced. All calls have
returned, the table holds `a`, and the listener believes it is gone. -/
theorem late_removal_reachable :
    ¬ ∀ c, Reach (storageProgram plainKind false) anyStep (initialWorld 0) c →
      (∀ l ∈ c.calls, l.isReturned = true) →
      tally c.shared.told = c.shared.storage.agentsTable.keys.toFinset := by
  intro h
  have run := reach_get (storageProgram plainKind false) anyStep (initialWorld 0)
    ([.call (.addReservations [(⟨"a", 5, 5⟩, 7)])] ++ List.replicate 6 (.run 0 silent) ++
      [.env 6, .call .expireReservations] ++ List.replicate 4 (.run 1 silent) ++
      [.call (.addReservations [(⟨"a", 94, 100⟩, 8)])] ++ List.replicate 6 (.run 2 silent) ++
      List.replicate 2 (.run 1 silent)) (by decide)
  have believed := h _ run (by decide)
  exact absurd believed (by decide)

end NoraFleet.TempNetworks
