import Mathlib
import NoraFleet.Base.Owners
import NoraFleet.TempNetworks.Expiry
import NoraFleet.TempNetworks.Standing

/-!
# What one server deploys, all servers serve

* `CallAt.next` — a step of a call leads where the call may stand;
* `FleetAt.leaves` — so does every step of the fleet, and it leaves true what holds of all of it;
* `deployed_served` — a lookup finds what any server deployed before, or there is a reason.
-/

namespace NoraFleet.TempNetworks

open Base Base.Program

variable {Server Name Key Spec Network Time : Type*}

/-! ## What a step does -/

section Progress

variable [DecidableEq Name] [LinearOrder Time] {store : SharedStore Name Key Spec Network Time}
  {s s' : Fleet Server Name Key Spec Network Time} {server : Server} {purpose : Purpose store}
  {unwritten : List (Reservation Name Time × Spec)} {call : Call Name Spec Network Time}

/-- Removals of names that are expired or evicted are in order. -/
theorem orderly_removeWrites {lock : Option (Block Name)} {names : List Name}
    (hcaching : ∀ agentName, lock ≠ some (.caching agentName))
    (h : ∀ agentName ∈ names, NamePassed store s agentName ∨ lock = some .evicting)
    (tables : Storage Name Network Time) :
    Orderly store s lock tables (names.flatMap removeWrites) := by
  induction names generalizing tables with
  | nil => exact fun agentName hlock => absurd hlock (hcaching agentName)
  | cons name rest ih =>
      refine ⟨trivial, ⟨?_, h name List.mem_cons_self⟩, trivial, trivial, ?_⟩
      · show name ∉ tables.reservationsTable.pop name
        simp
      · exact ih (fun agentName hmem => h agentName (List.mem_cons_of_mem _ hmem)) _

/-- Additions of deployments that were written to the base storage are in order. -/
theorem orderly_addWrites {lock : Option (Block Name)}
    (hcaching : ∀ agentName, lock ≠ some (.caching agentName)) (now : Time)
    {batch : List (Reservation Name Time × Spec)}
    (h : ∀ entry ∈ batch, Known store s entry.1.id entry.1 entry.2)
    (tables : Storage Name Network Time) :
    Orderly store s lock tables (addWrites store.toNetworkKind now batch) := by
  induction batch generalizing tables with
  | nil => exact fun agentName hlock => absurd hlock (hcaching agentName)
  | cons entry rest ih =>
      obtain ⟨reservation, agentSpec⟩ := entry
      unfold addWrites
      cases hnet : store.toNetworkKind.agentNetwork agentSpec reservation.id with
      | none => exact fun agentName hlock => absurd hlock (hcaching agentName)
      | some agentNetwork =>
          have hknown := h (reservation, agentSpec) List.mem_cons_self
          refine ⟨⟨reservation, agentSpec, hknown, .inl hnet⟩, ⟨⟨agentSpec, hknown⟩, .inl ?_⟩,
            trivial, trivial, ?_⟩
          · show reservation.id ∈ tables.agentsTable.set reservation.id agentNetwork
            simp
          · exact ih (fun entry hentry => h entry (List.mem_cons_of_mem _ hentry)) _

/-- A call enters a block whose writes are in order. -/
theorem CallAt.orderly (h : CallAt store s server purpose unwritten call) {block : Block Name}
    {writes : List (Write Name Network Time)}
    (hblock : blockOf store.toNetworkKind (s.worlds server) call = some (block, writes)) :
    Orderly store s (some block) (s.worlds server).storage writes := by
  cases call with
  | addLock reservationsDict now =>
      obtain ⟨rfl, rfl⟩ := Prod.mk.inj (Option.some.inj hblock)
      obtain ⟨batch, -, rfl, hstored⟩ := h
      refine orderly_addWrites (fun agentName hlock => ?_) now (fun entry hentry => ?_) _
      · cases hlock
      · exact ⟨batch.made entry hentry, hstored entry hentry⟩
  | expireLock snapshot expired =>
      obtain ⟨rfl, rfl⟩ := Prod.mk.inj (Option.some.inj hblock)
      refine orderly_removeWrites (fun agentName hlock => ?_) (fun agentName hmem => ?_) _
      · cases hlock
      · exact .inl (h.2 agentName hmem)
  | getExpiredLock agentName reservation =>
      obtain ⟨rfl, rfl⟩ := Prod.mk.inj (Option.some.inj hblock)
      obtain ⟨lookup, -, -, hpassed⟩ := h
      rw [← List.flatMap_singleton removeWrites agentName]
      refine orderly_removeWrites (fun name hlock => ?_) (fun name hmem => ?_) _
      · cases hlock
      · rw [List.mem_singleton.mp hmem]
        exact .inl hpassed
  | getTouch agentName agentNetwork =>
      obtain ⟨rfl, rfl⟩ := Prod.mk.inj (Option.some.inj hblock)
      refine ⟨trivial, fun name hlock => ?_⟩
      cases hlock
  | getBaseLock agentName reservation agentNetwork now =>
      obtain ⟨rfl, rfl⟩ := Prod.mk.inj (Option.some.inj hblock)
      obtain ⟨lookup, -, -, agentSpec, hknown, hmakes, -⟩ := h
      refine ⟨⟨⟨agentSpec, hknown⟩, .inr rfl⟩, ⟨reservation, agentSpec, hknown, hmakes⟩, trivial,
        trivial, fun name hlock => ?_⟩
      obtain rfl := Block.caching.inj (Option.some.inj hlock)
      show agentName ∈ (s.worlds server).storage.agentsTable.set agentName agentNetwork
      simp
  | evictLock result =>
      obtain ⟨rfl, rfl⟩ := Prod.mk.inj (Option.some.inj hblock)
      refine orderly_removeWrites (fun agentName hlock => ?_) (fun agentName hmem => .inr rfl) _
      cases hlock
  | _ => cases hblock

/-- A step of a call on its server alone leads where the call may stand. -/
theorem CallAt.next (hI : FleetInv store s) (h : CallAt store s server purpose unwritten call)
    (hbase : ∀ reservationsDict, call ≠ .addBase reservationsDict)
    (hget : ∀ agentName, call ≠ .getBase agentName)
    (hnetwork : ∀ agentName, call ≠ .getNetwork agentName)
    {answer : Answer Name Network Time} {w' : World Name Network Time}
    {call' : Call Name Spec Network Time}
    (hs : step store.toNetworkKind true answer (s.worlds server) call = some (w', call')) :
    CallAt store s server purpose unwritten call' := by
  cases call with
  | addBase reservationsDict => exact absurd rfl (hbase reservationsDict)
  | getBase agentName => exact absurd rfl (hget agentName)
  | getNetwork agentName => exact absurd rfl (hnetwork agentName)
  | returned result | raised => cases hs
  | addNow reservationsDict | setMax maxItems | evictLock result =>
      obtain ⟨-, rfl⟩ := Prod.mk.inj (Option.some.inj hs)
      exact h
  | addLock reservationsDict now =>
      obtain ⟨-, rfl⟩ := Prod.mk.inj (Option.some.inj hs)
      obtain ⟨batch, rfl, rfl, hstored⟩ := h
      split
      · intro lookup hpurpose
        cases hpurpose
      · exact hstored
  | expireSnapshot =>
      obtain ⟨-, rfl⟩ := Prod.mk.inj (Option.some.inj hs)
      refine ⟨h, fun entry hentry => ?_, fun _ hmem => absurd hmem List.not_mem_nil⟩
      -- the tables of a server have only what was deployed
      obtain ⟨agentSpec, hknown⟩ :=
        (hI.tables server).reservations entry.1 entry.2 (Dict.get?_eq_some_iff.mpr hentry)
      exact ⟨agentSpec, hknown.made⟩
  | expireScan snapshot rest expired =>
      obtain ⟨hpurpose, hrest, hexpired⟩ := h
      cases rest with
      | nil =>
          obtain ⟨-, rfl⟩ := Prod.mk.inj (Option.some.inj hs)
          split
          · rw [hpurpose]
            trivial
          · exact ⟨hpurpose, hexpired⟩
      | cons entry rest =>
          obtain ⟨-, rfl⟩ := Prod.mk.inj (Option.some.inj hs)
          refine ⟨hpurpose, fun e he => hrest e (List.mem_cons_of_mem _ he), fun name hmem => ?_⟩
          -- a name is taken as expired by this server's clock
          split at hmem
          · rename_i hexp
            rcases List.mem_append.mp hmem with hmem | hmem
            · exact hexpired name hmem
            · rw [List.mem_singleton.mp hmem]
              obtain ⟨agentSpec, hmade⟩ := hrest entry List.mem_cons_self
              exact ⟨entry.2, agentSpec, hmade, server, isExpired_iff.mp hexp⟩
          · exact hexpired name hmem
  | expireLock snapshot expired =>
      obtain ⟨-, rfl⟩ := Prod.mk.inj (Option.some.inj hs)
      rw [h.1]
      trivial
  | getReservation agentName =>
      simp only [step] at hs
      split at hs
      · rename_i reservation hreservation
        obtain ⟨-, rfl⟩ := Prod.mk.inj (Option.some.inj hs)
        obtain ⟨lookup, hpurpose, rfl, hunder⟩ := h
        refine ⟨lookup, hpurpose, rfl, hunder,
          (hI.tables server).reservations _ _ hreservation, ?_⟩
        exact ((hI.tables server).paired _ (Dict.mem_of_get?_eq_some hreservation)).imp id .inl
      · obtain ⟨-, rfl⟩ := Prod.mk.inj (Option.some.inj hs)
        exact h
  | getCheck agentName reservation =>
      obtain ⟨lookup, hpurpose, hname, hunder, ⟨agentSpec, hknown⟩, hpresent⟩ := h
      simp only [step] at hs
      split at hs
      · rename_i hexp
        obtain ⟨-, rfl⟩ := Prod.mk.inj (Option.some.inj hs)
        exact ⟨lookup, hpurpose, hname, reservation, agentSpec, hknown.made, server,
          isExpired_iff.mp hexp⟩
      · rename_i hexp
        obtain ⟨-, rfl⟩ := Prod.mk.inj (Option.some.inj hs)
        -- not expired now, so not when the lookup began
        have hvalid : (s.worlds server).clock ≤ reservation.expirationTimeInSeconds :=
          not_lt.mp fun hlt => hexp (isExpired_iff.mpr hlt)
        exact ⟨lookup, hpurpose, hname, hunder,
          ⟨reservation, agentSpec, hknown, hunder.began.trans hvalid⟩, hpresent⟩
  | getExpiredLock agentName reservation =>
      obtain ⟨-, rfl⟩ := Prod.mk.inj (Option.some.inj hs)
      obtain ⟨lookup, rfl, rfl, hpassed⟩ := h
      exact Missed.passed hpassed
  | getTouch agentName agentNetwork =>
      obtain ⟨-, rfl⟩ := Prod.mk.inj (Option.some.inj hs)
      obtain ⟨lookup, rfl, -, hserved⟩ := h
      exact hserved
  | getBaseCheck agentName reservation agentNetwork =>
      obtain ⟨lookup, rfl, rfl, hunder, agentSpec, hknown, hmakes⟩ := h
      simp only [step] at hs
      split at hs
      · rename_i hexp
        obtain ⟨-, rfl⟩ := Prod.mk.inj (Option.some.inj hs)
        exact Missed.passed ⟨reservation, agentSpec, hknown.made, server, isExpired_iff.mp hexp⟩
      · rename_i hexp
        obtain ⟨-, rfl⟩ := Prod.mk.inj (Option.some.inj hs)
        have hvalid : (s.worlds server).clock ≤ reservation.expirationTimeInSeconds :=
          not_lt.mp fun hlt => hexp (isExpired_iff.mpr hlt)
        exact ⟨lookup, rfl, rfl, agentSpec, hknown, hmakes, hunder.began.trans hvalid⟩
  | getBaseNow agentName reservation agentNetwork =>
      obtain ⟨-, rfl⟩ := Prod.mk.inj (Option.some.inj hs)
      exact h
  | getBaseLock agentName reservation agentNetwork now =>
      obtain ⟨-, rfl⟩ := Prod.mk.inj (Option.some.inj hs)
      obtain ⟨lookup, rfl, rfl, agentSpec, hknown, hmakes, hbegan⟩ := h
      exact ⟨reservation, agentSpec, hknown, hmakes, hbegan⟩
  | setThresholdZero maxItems =>
      obtain ⟨-, rfl⟩ := Prod.mk.inj (Option.some.inj hs)
      exact h
  | setThreshold maxItems =>
      obtain rfl : purpose = .upkeep := h
      simp only [step] at hs
      repeat' split at hs
      · obtain ⟨-, rfl⟩ := Prod.mk.inj (Option.some.inj hs)
        intro lookup hpurpose
        cases hpurpose
      · obtain ⟨-, rfl⟩ := Prod.mk.inj (Option.some.inj hs)
        trivial
      · obtain ⟨-, rfl⟩ := Prod.mk.inj (Option.some.inj hs)
        trivial
  | evictCheck result =>
      simp only [step] at hs
      split at hs
      · obtain ⟨-, rfl⟩ := Prod.mk.inj (Option.some.inj hs)
        exact h
      · obtain ⟨-, rfl⟩ := Prod.mk.inj (Option.some.inj hs)
        exact h
  | notify owed result thenEvict =>
      cases owed with
      | nil =>
          obtain ⟨-, rfl⟩ := Prod.mk.inj (Option.some.inj hs)
          split
          · exact h
          · exact h
      | cons notice owed =>
          obtain ⟨-, rfl⟩ := Prod.mk.inj (Option.some.inj hs)
          exact h

end Progress

/-- A step that writes to no table, and to nothing that all servers share. -/
structure Quiet [LinearOrder Time] (s s' : Fleet Server Name Key Spec Network Time) : Prop where
  tables : ∀ server, SameTables (s.worlds server).storage (s'.worlds server).storage
  clock : ∀ server, (s.worlds server).clock ≤ (s'.worlds server).clock
  base : s'.base = s.base
  stored : s'.stored = s.stored
  evictions : s'.evictions = s.evictions
  caching : ∀ server agentName, s.locks server = some (.caching agentName) →
    s'.locks server = some (.caching agentName) ∨
      agentName ∈ (s.worlds server).storage.agentsTable

section Effects

variable [DecidableEq Server] [DecidableEq Name] [DecidableEq Key] [LinearOrder Time]
  {store : SharedStore Name Key Spec Network Time}
  {s s' : Fleet Server Name Key Spec Network Time} {server : Server} {purpose : Purpose store}
  {unwritten : List (Reservation Name Time × Spec)} {call : Call Name Spec Network Time}
  {next : FleetCall Server store}

omit [DecidableEq Server] [DecidableEq Key] [LinearOrder Time] in
theorem TablesInv.later {lock : Option (Block Name)} {tables : Storage Name Network Time}
    (h : TablesInv store s lock tables) (hstored : ∀ key ∈ s.stored, key ∈ s'.stored) :
    TablesInv store s' lock tables where
  reservations agentName reservation hget := by
    obtain ⟨agentSpec, hknown⟩ := h.reservations agentName reservation hget
    exact ⟨agentSpec, hknown.later hstored⟩
  agents agentName agentNetwork hget := by
    obtain ⟨reservation, agentSpec, hknown, hmakes⟩ := h.agents agentName agentNetwork hget
    exact ⟨reservation, agentSpec, hknown.later hstored, hmakes⟩
  paired := h.paired

omit [DecidableEq Server] [DecidableEq Key] in
/-- A write that may count on what it needs keeps what holds of the tables. -/
theorem TablesInv.write {lock : Option (Block Name)} {tables : Storage Name Network Time}
    (h : TablesInv store s lock tables) {write : Write Name Network Time}
    (hproper : write.Proper store s lock tables) : TablesInv store s lock (write.apply tables) := by
  obtain ⟨hreservations, hagents, hpaired⟩ := h
  cases write with
  | setAgent agentName agentNetwork =>
      refine ⟨hreservations, fun name network hget => ?_, fun name hmem => ?_⟩
      · simp only [Write.apply, Dict.get?_set] at hget
        split at hget
        · rename_i heq
          rw [heq, ← Option.some.inj hget]
          exact hproper
        · exact hagents name network hget
      · exact (hpaired name hmem).imp (fun hthere => Dict.mem_set.mpr (.inr hthere)) id
  | setReservation agentName reservation =>
      refine ⟨fun name found hget => ?_, hagents, fun name hmem => ?_⟩
      · simp only [Write.apply, Dict.get?_set] at hget
        split at hget
        · rename_i heq
          rw [heq, ← Option.some.inj hget]
          exact hproper.1
        · exact hreservations name found hget
      · rcases Dict.mem_set.mp hmem with rfl | hmem
        · exact hproper.2
        · exact hpaired name hmem
  | popReservation agentName =>
      refine ⟨fun name found hget => ?_, hagents, fun name hmem => ?_⟩
      · simp only [Write.apply, Dict.get?_pop] at hget
        split at hget
        · cases hget
        · exact hreservations name found hget
      · exact hpaired name (Dict.mem_pop.mp hmem).2
  | popAgent agentName =>
      refine ⟨hreservations, fun name network hget => ?_, fun name hmem => ?_⟩
      · simp only [Write.apply, Dict.get?_pop] at hget
        split at hget
        · cases hget
        · exact hagents name network hget
      · refine (hpaired name hmem).imp (fun hthere => Dict.mem_pop.mpr ⟨?_, hthere⟩) id
        -- its reservation has gone before it
        rintro rfl
        exact hproper.1 hmem
  | setAccessTime _ _ | setSize _ _ | popAccessTime _ | popSize _ =>
      exact ⟨hreservations, hagents, hpaired⟩

omit [DecidableEq Server] [DecidableEq Key] in
theorem Quiet.inv (h : Quiet s s') (hI : FleetInv store s) : FleetInv store s' where
  tables server := by
    have hlater : TablesInv store s' (s.locks server) (s.worlds server).storage :=
      (hI.tables server).later fun key hkey => by rwa [h.stored]
    obtain ⟨hreservations, hagents, hpaired⟩ := hlater
    have hsame := h.tables server
    refine ⟨?_, ?_, fun agentName hmem => ?_⟩
    · rw [hsame.reservationsTable]
      exact hreservations
    · rw [hsame.agentsTable]
      exact hagents
    · rw [hsame.reservationsTable] at hmem
      rw [hsame.agentsTable]
      rcases hpaired agentName hmem with hthere | hcaching
      · exact .inl hthere
      · exact (h.caching server agentName hcaching).symm
  base := by
    rw [h.base, h.stored]
    exact hI.base
  kept key hkey := by
    rw [h.stored] at hkey
    obtain ⟨entry, hcontents, hkept⟩ := hI.kept key hkey
    rw [h.base]
    exact ⟨entry, hcontents, hkept.imp id fun hpassed => hpassed.later h.clock⟩

omit [DecidableEq Server] [DecidableEq Name] [DecidableEq Key] in
theorem Quiet.advances (h : Quiet s s') : Advances store s s' where
  clock := h.clock
  stored key hkey := by rwa [h.stored]
  evictions := by rw [h.evictions]
  agents server agentName hmem := by
    rw [(h.tables server).agentsTable]
    exact .inl hmem
  caching server agentName hcaching := by
    rw [(h.tables server).agentsTable]
    exact h.caching server agentName hcaching

omit [DecidableEq Server] [DecidableEq Name] [DecidableEq Key] in
theorem quiet_refl (s : Fleet Server Name Key Spec Network Time) : Quiet s s :=
  ⟨fun _ => ⟨rfl, rfl, rfl, rfl⟩, fun _ => le_rfl, rfl, rfl, rfl,
    fun _ _ hcaching => .inl hcaching⟩

omit [DecidableEq Name] [DecidableEq Key] in
theorem quiet_setWorld {w : World Name Network Time}
    (hsame : SameTables (s.worlds server).storage w.storage)
    (hclock : (s.worlds server).clock ≤ w.clock) : Quiet s (s.setWorld server w) where
  tables other := by
    show SameTables _ (Function.update s.worlds server w other).storage
    by_cases heq : other = server
    · subst heq
      rw [Function.update_self]
      exact hsame
    · rw [Function.update_of_ne heq]
      exact ⟨rfl, rfl, rfl, rfl⟩
  clock other := by
    show _ ≤ (Function.update s.worlds server w other).clock
    by_cases heq : other = server
    · subst heq
      rw [Function.update_self]
      exact hclock
    · rw [Function.update_of_ne heq]
  base := rfl
  stored := rfl
  evictions := rfl
  caching _ _ hcaching := .inl hcaching

omit [DecidableEq Name] [DecidableEq Key] in
/-- A lock changes hands with nothing half cached. -/
theorem quiet_setLock (lock : Option (Block Name))
    (h : ∀ agentName, s.locks server = some (.caching agentName) →
      agentName ∈ (s.worlds server).storage.agentsTable) :
    Quiet s { s with locks := Function.update s.locks server lock } where
  tables _ := ⟨rfl, rfl, rfl, rfl⟩
  clock _ := le_rfl
  base := rfl
  stored := rfl
  evictions := rfl
  caching other agentName hcaching := by
    by_cases heq : other = server
    · subst heq
      exact .inr (h agentName hcaching)
    · left
      show Function.update s.locks server lock other = _
      rw [Function.update_of_ne heq]
      exact hcaching

/-- What a step that is taken leaves behind. -/
def Leaves (store : SharedStore Name Key Spec Network Time)
    (s s' : Fleet Server Name Key Spec Network Time) (next : FleetCall Server store) : Prop :=
  FleetInv store s' ∧ Advances store s s' ∧ FleetAt store s' next

omit [DecidableEq Server] [DecidableEq Key] in
theorem Quiet.leaves (h : Quiet s s') (hI : FleetInv store s)
    (hnext : Advances store s s' → FleetAt store s' next) : Leaves store s s' next :=
  ⟨h.inv hI, h.advances, hnext h.advances⟩

omit [DecidableEq Key] in
/-- What a step outside of the locked blocks leaves. -/
theorem proceed_leaves (hI : FleetInv store s)
    (hunwritten : ∀ entry ∈ unwritten, store.deployment entry.1.id = some entry)
    (hblock : blockOf store.toNetworkKind (s.worlds server) call = none)
    {answer : Answer Name Network Time}
    (hnext : ∀ w' call', step store.toNetworkKind true answer (s.worlds server) call =
      some (w', call') → CallAt store s server purpose unwritten call')
    (hs : proceed s server purpose unwritten answer call = some (s', next)) :
    Leaves store s s' next := by
  obtain ⟨⟨w', call'⟩, hstep, heq⟩ := Option.map_eq_some_iff.mp hs
  obtain ⟨rfl, rfl⟩ := Prod.mk.inj heq
  have hquiet : Quiet s (s.setWorld server w') :=
    quiet_setWorld (sameTables_of_blockOf hblock hstep) (step_storage hstep).1.ge
  exact hquiet.leaves hI fun hadv => ⟨hunwritten, (hnext w' call' hstep).later hadv⟩

omit [DecidableEq Key] in
/-- What a step into a locked block leaves. -/
theorem enter_leaves (hI : FleetInv store s) (h : CallAt store s server purpose unwritten call)
    {block : Block Name} {writes : List (Write Name Network Time)}
    (hblock : blockOf store.toNetworkKind (s.worlds server) call = some (block, writes))
    (hs : enter s server purpose block writes call = some (s', next)) :
    Leaves store s s' next := by
  have hcall : CallAt store s server purpose [] call := by
    cases call with
    | addBase _ => cases hblock
    | _ => exact h
  unfold enter at hs
  split at hs
  · rename_i hfree
    obtain ⟨⟨w', call'⟩, hstep, heq⟩ := Option.map_eq_some_iff.mp hs
    obtain ⟨rfl, rfl⟩ := Prod.mk.inj heq
    have hnext : CallAt store s server purpose [] call' := by
      refine hcall.next hI ?_ ?_ ?_ hstep
      · rintro reservationsDict rfl
        cases hblock
      · rintro agentName rfl
        cases hblock
      · rintro agentName rfl
        cases hblock
    have hquiet : Quiet s { s with locks := Function.update s.locks server (some block) } := by
      refine quiet_setLock (some block) fun agentName hlock => ?_
      rw [hfree] at hlock
      cases hlock
    refine hquiet.leaves hI fun hadv => ?_
    show Function.update s.locks server (some block) server ≠ none ∧
      Orderly store _ (Function.update s.locks server (some block) server) _ _ ∧ _
    rw [Function.update_self]
    exact ⟨Option.some_ne_none block, (hcall.orderly hblock).later hadv, hnext.later hadv⟩
  · cases hs

omit [DecidableEq Key] in
/-- What a step leaves that only its server has a part in. -/
theorem takeStep_leaves (hI : FleetInv store s)
    (hunwritten : ∀ entry ∈ unwritten, store.deployment entry.1.id = some entry)
    (h : CallAt store s server purpose unwritten call)
    (hbase : ∀ reservationsDict, call ≠ .addBase reservationsDict)
    (hget : ∀ agentName, call ≠ .getBase agentName)
    (hnetwork : ∀ agentName, call ≠ .getNetwork agentName)
    (hs : takeStep s server purpose unwritten call = some (s', next)) :
    Leaves store s s' next := by
  unfold takeStep at hs
  cases hblock : blockOf store.toNetworkKind (s.worlds server) call with
  | some entered =>
      rw [hblock] at hs
      exact enter_leaves hI h hblock hs
  | none =>
      rw [hblock] at hs
      exact proceed_leaves hI hunwritten hblock
        (fun w' call' hstep => h.next hI hbase hget hnetwork hstep) hs

omit [DecidableEq Server] in
/-- What the write of an entry to the base storage leaves. -/
theorem writeOne_leaves (hI : FleetInv store s)
    (hunwritten : ∀ entry ∈ unwritten, store.deployment entry.1.id = some entry) {i : ℕ}
    (hnext : ∀ s' entry key, unwritten[i]? = some entry → store.key entry.1.id = some key →
      key ∈ s'.stored → Advances store s s' →
      CallAt store s' server purpose (unwritten.eraseIdx i) call)
    (hs : writeOne s server purpose unwritten i call = some (s', next)) :
    Leaves store s s' next := by
  unfold writeOne at hs
  cases hentry : unwritten[i]? with
  | none =>
      rw [hentry] at hs
      cases hs
  | some entry =>
      rw [hentry] at hs
      obtain ⟨key, hkey, heq⟩ := Option.map_eq_some_iff.mp hs
      obtain ⟨rfl, rfl⟩ := Prod.mk.inj heq
      -- what is written is what the key stands for
      have hcontents : store.contents key = some entry := by
        have hmade := hunwritten entry (List.mem_of_getElem? hentry)
        unfold SharedStore.deployment at hmade
        rwa [hkey] at hmade
      have hstored : ∀ other ∈ s.stored, other ∈ s.stored ++ [key] :=
        fun other hother => List.mem_append_left _ hother
      have hadv : Advances store s { s with
          base := Function.update s.base key (some entry), stored := s.stored ++ [key] } :=
        ⟨fun _ => le_rfl, hstored, List.prefix_rfl, fun _ _ hmem => .inl hmem,
          fun _ _ hcaching => .inl hcaching⟩
      refine ⟨⟨fun other => (hI.tables other).later hstored, fun other found hfound => ?_,
        fun other hother => ?_⟩, hadv, fun rest hrest => ?_, ?_⟩
      · dsimp only at hfound
        -- this file has the entry now, and the others are as they were
        by_cases hsame : other = key
        · subst hsame
          rw [Function.update_self] at hfound
          rw [← Option.some.inj hfound]
          exact ⟨hcontents, List.mem_append_right _ List.mem_cons_self⟩
        · rw [Function.update_of_ne hsame] at hfound
          exact (hI.base other found hfound).imp id (hstored other)
      · dsimp only
        by_cases hsame : other = key
        · subst hsame
          rw [Function.update_self]
          exact ⟨entry, hcontents, .inl rfl⟩
        · rw [Function.update_of_ne hsame]
          rcases List.mem_append.mp hother with hold | hnew
          · exact hI.kept other hold
          · exact absurd (List.mem_singleton.mp hnew) hsame
      · exact hunwritten rest (List.mem_of_mem_eraseIdx hrest)
      · exact hnext _ entry key hentry hkey (List.mem_append_right _ List.mem_cons_self) hadv

/-- What a step of a call of a server's storage leaves. -/
theorem serve_leaves (hI : FleetInv store s)
    (hunwritten : ∀ entry ∈ unwritten, store.deployment entry.1.id = some entry)
    (h : CallAt store s server purpose unwritten call) {choice : FleetChoice Key}
    (hs : serve choice s server purpose unwritten call = some (s', next)) :
    Leaves store s s' next := by
  cases call with
  | addBase reservationsDict =>
      obtain ⟨batch, rfl, rfl, hwritten⟩ := h
      simp only [serve] at hs
      cases choice with
      | go =>
          dsimp only at hs
          split at hs
          · rename_i hempty
            obtain rfl := List.isEmpty_iff.mp hempty
            refine proceed_leaves hI hunwritten rfl (fun w' call' hstep => ?_) hs
            obtain ⟨-, rfl⟩ := Prod.mk.inj (Option.some.inj hstep)
            exact ⟨batch, rfl, rfl, fun entry hentry =>
              (hwritten entry hentry).resolve_left List.not_mem_nil⟩
          · cases hs
      | fails raises =>
          refine proceed_leaves hI hunwritten rfl (fun w' call' hstep => ?_) hs
          obtain ⟨-, rfl⟩ := Prod.mk.inj (Option.some.inj hstep)
          intro lookup hpurpose
          cases hpurpose
      | write i =>
          refine writeOne_leaves hI hunwritten (fun s' entry key hi hkey hmem hadv => ?_) hs
          refine ⟨batch, rfl, rfl, fun other hother => ?_⟩
          rcases hwritten other hother with hleft | hstored
          · obtain ⟨j, hj⟩ := List.mem_iff_getElem?.mp hleft
            by_cases hij : j = i
            · rw [hij, hi] at hj
              rw [← Option.some.inj hj]
              exact .inr ⟨key, hkey, hmem⟩
            · exact .inl (List.mem_eraseIdx_iff_getElem?.mpr ⟨j, hij, hj⟩)
          · exact .inr (hstored.later hadv.stored)
      | file key => cases hs
  | raised =>
      simp only [serve] at hs
      cases choice with
      | write i =>
          refine writeOne_leaves hI hunwritten (fun s' entry key hi hkey hmem hadv => ?_) hs
          exact h
      | _ => cases hs
  | getBase agentName =>
      obtain ⟨lookup, rfl, rfl, hunder⟩ := h
      simp only [serve] at hs
      cases choice with
      | go =>
          obtain ⟨rfl, rfl⟩ := Prod.mk.inj (Option.some.inj hs)
          refine (quiet_refl s).leaves hI fun _ => ⟨hunder, ?_⟩
          cases hfound : (store.key lookup.agentName).bind s.base with
          | some entry =>
              obtain ⟨key, hkey, hentry⟩ := Option.bind_eq_some_iff.mp hfound
              obtain ⟨hcontents, hmem⟩ := hI.base key entry hentry
              refine ⟨?_, key, hkey, hmem⟩
              unfold SharedStore.deployment
              rw [hkey]
              exact hcontents
          | none =>
              cases hknown : lookup.known with
              | false => exact Missed.unknown hknown
              | true =>
                  -- what was there when the lookup began is gone, which it only is when expired
                  obtain ⟨key, hkey, hmem⟩ := hunder.known hknown
                  obtain ⟨entry, hcontents, hkept⟩ := hI.kept key hmem
                  rw [hkey] at hfound
                  have hpassed := hkept.resolve_left fun hbase => by
                    rw [Option.bind_some, hbase] at hfound
                    cases hfound
                  refine Missed.passed ⟨entry.1, entry.2, ?_, hpassed⟩
                  unfold SharedStore.deployment
                  rw [hkey]
                  exact hcontents
      | fails raises =>
          refine proceed_leaves hI hunwritten rfl (fun w' call' hstep => ?_) hs
          simp only [step] at hstep
          cases raises with
          | true =>
              obtain ⟨-, rfl⟩ := Prod.mk.inj (Option.some.inj hstep)
              intro failed hpurpose
              obtain rfl := Purpose.lookUp.inj hpurpose
              rfl
          | false =>
              obtain ⟨-, rfl⟩ := Prod.mk.inj (Option.some.inj hstep)
              exact Missed.failed rfl
      | write i => cases hs
      | file key => cases hs
  | getNetwork agentName =>
      obtain ⟨lookup, rfl, rfl, hunder, ⟨reservation, agentSpec, hknown, hbegan⟩, hpresent⟩ := h
      refine proceed_leaves hI hunwritten rfl (fun w' call' hstep => ?_) hs
      simp only [step] at hstep
      split at hstep
      · rename_i agentNetwork hnetwork
        obtain ⟨-, rfl⟩ := Prod.mk.inj (Option.some.inj hstep)
        obtain ⟨reservation', agentSpec', hknown', hmakes⟩ :=
          (hI.tables server).agents _ _ hnetwork
        obtain ⟨rfl, rfl⟩ := Prod.mk.inj (Option.some.inj (hknown.made.symm.trans hknown'.made))
        exact ⟨_, rfl, rfl, reservation, agentSpec, hknown, hmakes, hbegan⟩
      · rename_i hnone
        obtain ⟨-, rfl⟩ := Prod.mk.inj (Option.some.inj hstep)
        show Missed store s server _
        rcases hpresent with hthere | hcaching | hmissed
        · obtain ⟨agentNetwork, hget⟩ := Dict.exists_get?_of_mem hthere
          rw [hnone] at hget
          cases hget
        · refine Missed.halfCached ?_
          show (lookup.halfCached || decide _) = true
          rw [decide_eq_true hcaching, Bool.or_true]
        · exact hmissed.of_flags rfl rfl rfl id fun hhalf => by
            show (lookup.halfCached || _) = true
            rw [hhalf, Bool.true_or]
  | expireSnapshot =>
      simp only [serve] at hs
      split at hs
      · refine proceed_leaves hI hunwritten rfl (fun w' call' hstep => ?_) hs
        exact h.next hI (fun _ heq => by cases heq) (fun _ heq => by cases heq)
          (fun _ heq => by cases heq) hstep
      · cases hs
  | _ =>
      exact takeStep_leaves hI hunwritten h (fun _ heq => by cases heq) (fun _ heq => by cases heq)
        (fun _ heq => by cases heq) hs

omit [DecidableEq Key] in
/-- What a write in a locked block leaves. -/
theorem write_leaves (hI : FleetInv store s) {write : Write Name Network Time}
    {rest : List (Write Name Network Time)} {after : Call Name Spec Network Time}
    (h : FleetAt store s (.inside server purpose (write :: rest) after)) :
    let s₁ := s.setWorld server { s.worlds server with
      storage := write.apply (s.worlds server).storage }
    Leaves store s { s₁ with evictions := s.evictions ++ write.evicts server (s.locks server) }
      (.inside server purpose rest after) := by
  obtain ⟨hlocked, ⟨hproper, hrest⟩, hafter⟩ := h
  intro s₁
  have hself : s₁.worlds server =
      { s.worlds server with storage := write.apply (s.worlds server).storage } :=
    Function.update_self ..
  have hothers : ∀ other, other ≠ server → s₁.worlds other = s.worlds other :=
    fun other hne => Function.update_of_ne hne _ _
  have hclock : ∀ other, (s.worlds other).clock ≤ (s₁.worlds other).clock := by
    intro other
    by_cases heq : other = server
    · rw [heq, hself]
    · rw [hothers other heq]
  have hadv : Advances store s
      { s₁ with evictions := s.evictions ++ write.evicts server (s.locks server) } := by
    refine ⟨hclock, fun _ hkey => hkey, List.prefix_append _ _, fun other name hmem => ?_,
      fun _ _ hcaching => .inl hcaching⟩
    dsimp only
    rw [List.drop_left]
    by_cases heq : other = server
    · subst heq
      rw [hself]
      cases write with
      | setAgent agentName agentNetwork => exact .inl (Dict.mem_set.mpr (.inr hmem))
      | popAgent agentName =>
          by_cases hname : name = agentName
          · subst hname
            -- it is taken out because it is expired, or evicted
            rcases hproper.2 with hpassed | hevicting
            · exact .inr (.inl (hpassed.later hclock))
            · refine .inr (.inr ?_)
              show (other, name) ∈ if s.locks other = some .evicting then [(other, name)] else []
              rw [if_pos hevicting]
              exact List.mem_cons_self
          · exact .inl (Dict.mem_pop.mpr ⟨hname, hmem⟩)
      | _ => exact .inl hmem
    · rw [hothers other heq]
      exact .inl hmem
  refine ⟨⟨fun other => ?_, hI.base, fun key hkey => ?_⟩, hadv, hlocked, ?_, hafter.later hadv⟩
  · show TablesInv store _ (s.locks other) (s₁.worlds other).storage
    by_cases heq : other = server
    · subst heq
      rw [hself]
      exact ((hI.tables other).write hproper).later hadv.stored
    · rw [hothers other heq]
      exact (hI.tables other).later hadv.stored
  · obtain ⟨entry, hcontents, hkept⟩ := hI.kept key hkey
    exact ⟨entry, hcontents, hkept.imp id fun hpassed => hpassed.later hclock⟩
  · show Orderly store _ (s.locks server) (s₁.worlds server).storage rest
    rw [hself]
    exact hrest.later hadv

/-- Every step of the fleet leads where its call may stand, and leaves true what holds of all. -/
theorem FleetAt.leaves (hI : FleetInv store s) {call : FleetCall Server store}
    (h : FleetAt store s call) {choice : FleetChoice Key}
    (hs : fleetStep choice s call = some (s', next)) : Leaves store s s' next := by
  cases call with
  | asked server agentName =>
      refine proceed_leaves hI (fun _ hmem => absurd hmem List.not_mem_nil) rfl
        (fun w' call' hstep => ?_) hs
      -- the lookup begins here: what it has to answer for is what is there now
      have hunder : Under store s server (beginning store s server agentName) := by
        refine ⟨le_rfl, fun hknown => ?_, le_rfl⟩
        obtain ⟨key, hkey, hmem⟩ := (Option.any_eq_true _ _).mp hknown
        exact ⟨key, hkey, List.contains_iff_mem.mp hmem⟩
      have hcall : CallAt store s server (.lookUp (beginning store s server agentName)) []
          (.getReservation agentName) := ⟨_, rfl, rfl, hunder⟩
      exact hcall.next hI (fun _ heq => by cases heq) (fun _ heq => by cases heq)
        (fun _ heq => by cases heq) hstep
  | serving server purpose unwritten call => exact serve_leaves hI h.1 h.2 hs
  | inside server purpose writes after =>
      cases writes with
      | cons write rest =>
          obtain ⟨rfl, rfl⟩ := Prod.mk.inj (Option.some.inj hs)
          exact write_leaves hI h
      | nil =>
          obtain ⟨rfl, rfl⟩ := Prod.mk.inj (Option.some.inj hs)
          obtain ⟨-, hdone, hafter⟩ := h
          exact (quiet_setLock none hdone).leaves hI fun hadv =>
            ⟨fun _ hmem => absurd hmem List.not_mem_nil, hafter.later hadv⟩
  | reading server lookup found =>
      obtain ⟨hunder, hgot⟩ := h
      refine proceed_leaves hI (fun _ hmem => absurd hmem List.not_mem_nil) rfl
        (fun w' call' hstep => ?_) hs
      simp only [step, oneReservation] at hstep
      -- the base storage has answered, and what it found may be expired or unreadable
      cases found with
      | none =>
          obtain ⟨-, rfl⟩ := Prod.mk.inj (Option.some.inj hstep)
          exact hgot
      | some entry =>
          obtain ⟨reservation, agentSpec⟩ := entry
          dsimp only at hstep
          by_cases hexp : Storage.isExpired (s.worlds server).clock reservation = true
          · rw [if_pos hexp] at hstep
            obtain ⟨-, rfl⟩ := Prod.mk.inj (Option.some.inj hstep)
            exact Missed.passed ⟨reservation, agentSpec, hgot.made, server, isExpired_iff.mp hexp⟩
          · rw [if_neg hexp] at hstep
            cases hread : store.readBack reservation agentSpec with
            | none =>
                rw [hread] at hstep
                obtain ⟨-, rfl⟩ := Prod.mk.inj (Option.some.inj hstep)
                exact Missed.unreadable reservation agentSpec hgot.made hread
            | some agentNetwork =>
                rw [hread] at hstep
                obtain ⟨-, rfl⟩ := Prod.mk.inj (Option.some.inj hstep)
                exact ⟨lookup, rfl, rfl, hunder, agentSpec, hgot, .inr hread⟩
  | sweep server =>
      obtain ⟨rfl, rfl⟩ := Prod.mk.inj (Option.some.inj hs)
      exact (quiet_refl s).leaves hI fun _ => le_rfl
  | sweeping server currentTime =>
      simp only [fleetStep] at hs
      cases choice with
      | go =>
          obtain ⟨rfl, rfl⟩ := Prod.mk.inj (Option.some.inj hs)
          exact (quiet_refl s).leaves hI fun _ => trivial
      | file key =>
          dsimp only at hs
          cases hbase : s.base key with
          | none =>
              rw [hbase] at hs
              obtain ⟨rfl, rfl⟩ := Prod.mk.inj (Option.some.inj hs)
              exact (quiet_refl s).leaves hI fun _ => h
          | some entry =>
              rw [hbase] at hs
              dsimp only at hs
              split at hs
              · rename_i hexp
                obtain ⟨rfl, rfl⟩ := Prod.mk.inj (Option.some.inj hs)
                -- the clock was read before, and has only moved on
                have hpassed : Passed s entry.1 := ⟨server, (isExpired_iff.mp hexp).trans_le h⟩
                exact (quiet_refl s).leaves hI fun _ =>
                  ⟨h, entry, (hI.base key entry hbase).1, hpassed⟩
              · obtain ⟨rfl, rfl⟩ := Prod.mk.inj (Option.some.inj hs)
                exact (quiet_refl s).leaves hI fun _ => h
      | write i => cases hs
      | fails raises => cases hs
  | deleting server currentTime key =>
      obtain ⟨hle, entry, hcontents, hpassed⟩ := h
      simp only [fleetStep] at hs
      cases choice with
      | go =>
          obtain ⟨rfl, rfl⟩ := Prod.mk.inj (Option.some.inj hs)
          refine ⟨⟨fun other => (hI.tables other).later fun _ hkey => hkey,
              fun other found hfound => ?_, fun other hother => ?_⟩,
            ⟨fun _ => le_rfl, fun _ hkey => hkey, List.prefix_rfl, fun _ _ hmem => .inl hmem,
              fun _ _ hcaching => .inl hcaching⟩, hle⟩
          · dsimp only at hfound
            by_cases hsame : other = key
            · subst hsame
              rw [Function.update_self] at hfound
              cases hfound
            · rw [Function.update_of_ne hsame] at hfound
              exact hI.base other found hfound
          · dsimp only
            -- only the file of the key is gone, and its entry is expired
            by_cases hsame : other = key
            · subst hsame
              exact ⟨entry, hcontents, .inr hpassed⟩
            · rw [Function.update_of_ne hsame]
              exact hI.kept other hother
      | fails raises =>
          obtain ⟨rfl, rfl⟩ := Prod.mk.inj (Option.some.inj hs)
          exact (quiet_refl s).leaves hI fun _ => hle
      | write i => cases hs
      | file other => cases hs
  | swept => cases hs

/-! ## The locks -/

/-- What a call may do that holds no lock: it leaves a server alone whose lock is taken, and takes a
lock only where it is free. -/
structure RespectsLocks (s s' : Fleet Server Name Key Spec Network Time)
    (next : FleetCall Server store) : Prop where
  locks : ∀ server, s.locks server ≠ none → s'.locks server = s.locks server
  tables : ∀ server, s.locks server ≠ none →
    SameTables (s.worlds server).storage (s'.worlds server).storage
  takes : ∀ server, next.holds = some server → s.locks server = none

omit [DecidableEq Key] in
theorem proceed_respects (hblock : blockOf store.toNetworkKind (s.worlds server) call = none)
    {answer : Answer Name Network Time}
    (hs : proceed s server purpose unwritten answer call = some (s', next)) :
    RespectsLocks s s' next := by
  obtain ⟨⟨w', call'⟩, hstep, heq⟩ := Option.map_eq_some_iff.mp hs
  obtain ⟨rfl, rfl⟩ := Prod.mk.inj heq
  have hquiet : Quiet s (s.setWorld server w') :=
    quiet_setWorld (sameTables_of_blockOf hblock hstep) (step_storage hstep).1.ge
  refine ⟨fun _ _ => rfl, fun other _ => hquiet.tables other, fun other hholds => ?_⟩
  cases hholds

omit [DecidableEq Key] in
theorem takeStep_respects (hs : takeStep s server purpose unwritten call = some (s', next)) :
    RespectsLocks s s' next := by
  unfold takeStep at hs
  cases hblock : blockOf store.toNetworkKind (s.worlds server) call with
  | none =>
      rw [hblock] at hs
      exact proceed_respects hblock hs
  | some entered =>
      rw [hblock] at hs
      simp only [enter] at hs
      split at hs
      · rename_i hfree
        obtain ⟨⟨w', call'⟩, -, heq⟩ := Option.map_eq_some_iff.mp hs
        obtain ⟨rfl, rfl⟩ := Prod.mk.inj heq
        refine ⟨fun other hlocked => ?_, fun other _ => ⟨rfl, rfl, rfl, rfl⟩,
          fun other hholds => ?_⟩
        · refine Function.update_of_ne (fun hsame => hlocked ?_) _ _
          rw [hsame]
          exact hfree
        · rw [← Option.some.inj hholds]
          exact hfree
      · cases hs

omit [DecidableEq Server] [DecidableEq Name] [LinearOrder Time] in
theorem writeOne_respects {i : ℕ}
    (hs : writeOne s server purpose unwritten i call = some (s', next)) :
    RespectsLocks s s' next := by
  unfold writeOne at hs
  cases hentry : unwritten[i]? with
  | none =>
      rw [hentry] at hs
      cases hs
  | some entry =>
      rw [hentry] at hs
      obtain ⟨key, -, heq⟩ := Option.map_eq_some_iff.mp hs
      obtain ⟨rfl, rfl⟩ := Prod.mk.inj heq
      refine ⟨fun _ _ => rfl, fun _ _ => ⟨rfl, rfl, rfl, rfl⟩, fun other hholds => ?_⟩
      cases hholds

omit [DecidableEq Server] [DecidableEq Name] [DecidableEq Key] [LinearOrder Time] in
theorem respects_refl (hnext : next.holds = none) : RespectsLocks s s next := by
  refine ⟨fun _ _ => rfl, fun _ _ => ⟨rfl, rfl, rfl, rfl⟩, fun other hholds => ?_⟩
  rw [hnext] at hholds
  cases hholds

theorem serve_respects {choice : FleetChoice Key}
    (hs : serve choice s server purpose unwritten call = some (s', next)) :
    RespectsLocks s s' next := by
  cases call with
  | addBase reservationsDict =>
      simp only [serve] at hs
      cases choice with
      | go =>
          dsimp only at hs
          split at hs
          · exact proceed_respects rfl hs
          · cases hs
      | fails raises => exact proceed_respects rfl hs
      | write i => exact writeOne_respects hs
      | file key => cases hs
  | raised =>
      simp only [serve] at hs
      cases choice with
      | write i => exact writeOne_respects hs
      | _ => cases hs
  | getBase agentName =>
      simp only [serve] at hs
      cases choice with
      | go =>
          cases purpose with
          | lookUp lookup =>
              obtain ⟨rfl, rfl⟩ := Prod.mk.inj (Option.some.inj hs)
              exact respects_refl rfl
          | _ => cases hs
      | fails raises => exact proceed_respects rfl hs
      | write i => cases hs
      | file key => cases hs
  | getNetwork agentName => exact proceed_respects rfl hs
  | expireSnapshot =>
      simp only [serve] at hs
      split at hs
      · exact proceed_respects rfl hs
      · cases hs
  | _ =>
      simp only [serve] at hs
      exact takeStep_respects hs

/-- A call that holds no lock respects the locks. -/
theorem fleetStep_respects {call : FleetCall Server store} (hholds : call.holds = none)
    {choice : FleetChoice Key} (hs : fleetStep choice s call = some (s', next)) :
    RespectsLocks s s' next := by
  cases call with
  | asked server agentName | reading server lookup found => exact proceed_respects rfl hs
  | serving server purpose unwritten call => exact serve_respects hs
  | inside server purpose writes after => cases hholds
  | sweep server =>
      obtain ⟨rfl, rfl⟩ := Prod.mk.inj (Option.some.inj hs)
      exact respects_refl rfl
  | sweeping server currentTime =>
      simp only [fleetStep] at hs
      cases choice with
      | go =>
          obtain ⟨rfl, rfl⟩ := Prod.mk.inj (Option.some.inj hs)
          exact respects_refl rfl
      | file key =>
          dsimp only at hs
          repeat' split at hs
          all_goals
            obtain ⟨rfl, rfl⟩ := Prod.mk.inj (Option.some.inj hs)
            exact respects_refl rfl
      | write i => cases hs
      | fails raises => cases hs
  | deleting server currentTime key =>
      simp only [fleetStep] at hs
      cases choice with
      | go =>
          obtain ⟨rfl, rfl⟩ := Prod.mk.inj (Option.some.inj hs)
          refine ⟨fun _ _ => rfl, fun _ _ => ⟨rfl, rfl, rfl, rfl⟩, fun other hother => ?_⟩
          cases hother
      | fails raises =>
          obtain ⟨rfl, rfl⟩ := Prod.mk.inj (Option.some.inj hs)
          exact respects_refl rfl
      | write i => cases hs
      | file other => cases hs
  | swept => cases hs

/-- Who holds a lock leaves the other servers alone. -/
theorem inside_alone {writes : List (Write Name Network Time)} {after : Call Name Spec Network Time}
    {choice : FleetChoice Key}
    (hs : fleetStep choice s (.inside server purpose writes after) = some (s', next))
    {other : Server} (hne : other ≠ server) :
    s'.locks other = s.locks other ∧
      SameTables (s.worlds other).storage (s'.worlds other).storage := by
  cases writes with
  | nil =>
      obtain ⟨rfl, rfl⟩ := Prod.mk.inj (Option.some.inj hs)
      exact ⟨Function.update_of_ne hne _ _, rfl, rfl, rfl, rfl⟩
  | cons write rest =>
      obtain ⟨rfl, rfl⟩ := Prod.mk.inj (Option.some.inj hs)
      refine ⟨rfl, ?_⟩
      show SameTables _ (Function.update s.worlds server _ other).storage
      rw [Function.update_of_ne hne]
      exact ⟨rfl, rfl, rfl, rfl⟩

omit [DecidableEq Server] [DecidableEq Key] in
/-- Whose lock a call holds has it taken. -/
theorem FleetAt.locked {call : FleetCall Server store} (h : FleetAt store s call)
    (hholds : call.holds = some server) : s.locks server ≠ none := by
  cases call with
  | inside server purpose writes after =>
      rw [← Option.some.inj hholds]
      exact h.1
  | _ => cases hholds

/-- A lock is taken from the step into a block to the step out of it. -/
theorem fleetStep_owner {call : FleetCall Server store} {choice : FleetChoice Key}
    (hs : fleetStep choice s call = some (s', next)) :
    OwnerStep FleetCall.holds (FleetAt store) s call next := by
  cases hholds : call.holds with
  | none =>
      cases hnext : next.holds with
      | none => exact .keep (hnext.trans hholds.symm)
      | some server =>
          have hfree := (fleetStep_respects hholds hs).takes server hnext
          exact .take server hholds hnext fun k hk hholdsK => hk.locked hholdsK hfree
  | some server =>
      cases call with
      | inside server' purpose writes after =>
          cases writes with
          | nil =>
              obtain ⟨rfl, rfl⟩ := Prod.mk.inj (Option.some.inj hs)
              exact .letGo rfl
          | cons write rest =>
              obtain ⟨rfl, rfl⟩ := Prod.mk.inj (Option.some.inj hs)
              exact .keep rfl
      | _ => cases hholds

/-! ## Runs -/

/-- A step of one call does not get in the way of another one. -/
theorem FleetAt.undisturbed {call other : FleetCall Server store} (h : FleetAt store s other)
    (hadv : Advances store s s')
    (hdiffer : ∀ server, call.holds = some server → other.holds ≠ some server)
    {choice : FleetChoice Key} (hs : fleetStep choice s call = some (s', next)) :
    FleetAt store s' other := by
  refine h.later hadv fun server hother => ?_
  have hlocked := h.locked hother
  cases hholds : call.holds with
  | none =>
      have hrespects := fleetStep_respects hholds hs
      exact ⟨hrespects.locks server hlocked, hrespects.tables server hlocked⟩
  | some held =>
      cases call with
      | inside server' purpose writes after =>
          refine inside_alone hs fun hsame => ?_
          rw [hsame] at hother
          exact hdiffer server' rfl hother
      | _ => cases hholds

theorem quiet_env {tick : Server × Time} (he : (fleetProgram Server store).env tick s = some s') :
    Quiet s s' := by
  simp only [fleetProgram] at he
  split at he
  · rename_i hle
    obtain rfl := Option.some.inj he
    exact quiet_setWorld ⟨rfl, rfl, rfl, rfl⟩ hle
  · cases he

theorem locks_env {tick : Server × Time} (he : (fleetProgram Server store).env tick s = some s') :
    s'.locks = s.locks := by
  simp only [fleetProgram] at he
  split at he
  · obtain rfl := Option.some.inj he
    rfl
  · cases he

/-- What holds of the fleet, and where each call stands, in every run. -/
theorem fleet_outline (clocks : Server → Time) :
    OwnerOutline (fleetProgram Server store) anyStep (initialFleet clocks) FleetCall.holds
      (FleetInv store) (FleetAt store) where
  init := by
    refine ⟨fun server => ⟨?_, ?_, ?_⟩, ?_, ?_⟩
    · intro agentName reservation hget
      cases hget
    · intro agentName agentNetwork hget
      cases hget
    · intro agentName hmem
      cases hmem
    · intro key entry hbase
      cases hbase
    · intro key hkey
      cases hkey
  start s op hI := by
    cases op with
    | addReservations server batch =>
        refine ⟨batch.made, ?_⟩
        show CallAt store s server _ _ (start _)
        unfold start
        dsimp only
        split
        · rename_i hempty
          intro entry hentry
          rw [List.isEmpty_iff.mp hempty] at hentry
          cases hentry
        · exact ⟨batch, rfl, rfl, fun entry hentry => .inl hentry⟩
    | getAgentNetworkProvider server agentName => trivial
    | expireReservations server => exact ⟨fun _ hmem => absurd hmem List.not_mem_nil, rfl⟩
    | evictLruAgentNetworks server => exact ⟨fun _ hmem => absurd hmem List.not_mem_nil, trivial⟩
    | setMaxAgentNetworks server maxItems =>
        exact ⟨fun _ hmem => absurd hmem List.not_mem_nil, rfl⟩
    | expireBase server => trivial
  startsWithout op := by cases op <;> rfl
  ownerStep _ _ _ hs := fleetStep_owner hs
  step hI hT _ hs := ⟨(hT.leaves hI hs).1, (hT.leaves hI hs).2.2⟩
  interfere hI hT hk hdiffer _ hs := hk.undisturbed (hT.leaves hI hs).2.1 hdiffer hs
  env hI he := (quiet_env he).inv hI
  envStable _ hk he := by
    refine hk.later (quiet_env he).advances fun server _ => ?_
    exact ⟨congrFun (locks_env he) server, (quiet_env he).tables server⟩

/-- **What one server deploys, all servers serve.** A deployment that returns has written all its
entries to the base storage. Whatever a lookup of a server gives is a network of the one deployment
that its name stands for, which was not expired as the lookup began. Where it gives nothing or
raises, the name was not stored as it began, the reservation is expired by the clock of some server,
nothing can be made of what was stored, or in the meantime the base storage failed, its server
evicted the name, or another lookup of its server was about to cache it. -/
theorem deployed_served {clocks : Server → Time}
    {c : Config (Fleet Server Name Key Spec Network Time) (FleetCall Server store)}
    (hr : Reach (fleetProgram Server store) anyStep (initialFleet clocks) c) :
    (∀ server batch unwritten result,
      .serving server (.deploy batch) unwritten (.returned result) ∈ c.calls →
        ∀ entry ∈ batch.reservationsDict, Stored store c.shared entry.1.id) ∧
    (∀ server lookup unwritten agentNetwork,
      .serving server (.lookUp lookup) unwritten (.returned (some agentNetwork)) ∈ c.calls →
        Served store c.shared lookup agentNetwork) ∧
    ∀ server lookup unwritten call, call = .returned none ∨ call = .raised →
      .serving server (.lookUp lookup) unwritten call ∈ c.calls →
        Missed store c.shared server lookup := by
  obtain ⟨-, hT, -⟩ := (fleet_outline clocks).sound hr
  refine ⟨fun server batch unwritten result hcall => (hT _ hcall).2,
    fun server lookup unwritten agentNetwork hcall => (hT _ hcall).2,
    fun server lookup unwritten call hend hcall => ?_⟩
  rcases hend with rfl | rfl
  · exact (hT _ hcall).2
  · exact .failed ((hT _ hcall).2 lookup rfl)

end Effects

/-- A store in which the id 7 stands for a deployment that expires at the time 10. -/
def sevenStore : SharedStore ℕ ℕ ℕ ℕ ℕ where
  agentNetwork agentSpec _ := some agentSpec
  getSizeInBytes _ := 1
  key := some
  contents key := if key = 7 then some (⟨7, 10, 10⟩, 70) else none
  readBack _ agentSpec := some agentSpec

/-- The deployment of 7. -/
def sevenBatch : Batch sevenStore := ⟨[(⟨7, 10, 10⟩, 70)], by decide⟩

/-- A server has 7 looked up before another one deploys it, after that, and once it has expired. -/
def deployAndLookUp : List (Action (FleetOp Bool sevenStore) (FleetChoice ℕ) (Bool × ℕ)) :=
  [.call (.getAgentNetworkProvider true 7), .call (.addReservations false sevenBatch),
    .run 0 .go, .run 0 .go, .run 0 .go, .run 1 (.write 0)] ++ List.replicate 11 (.run 1 .go) ++
  [.call (.getAgentNetworkProvider true 7)] ++ List.replicate 14 (.run 2 .go) ++
  [.env (true, 11), .call (.getAgentNetworkProvider true 7)] ++ List.replicate 10 (.run 3 .go)

/-- What that comes to. -/
def lookedUp : Config (Fleet Bool ℕ ℕ ℕ ℕ ℕ) (FleetCall Bool sevenStore) :=
  (runSchedule (fleetProgram Bool sevenStore) anyStep ⟨initialFleet fun _ => 0, []⟩
    deployAndLookUp).get (by decide)

theorem deployed_served_twoServers :
    Missed sevenStore lookedUp.shared true ⟨7, 0, false, 0, false, false⟩ ∧
      Stored sevenStore lookedUp.shared 7 ∧
      Served sevenStore lookedUp.shared ⟨7, 0, true, 0, false, false⟩ 70 ∧
      Missed sevenStore lookedUp.shared true ⟨7, 11, true, 0, false, false⟩ := by
  obtain ⟨hdeploys, hserves, hmisses⟩ := deployed_served
    (reach_get (fleetProgram Bool sevenStore) anyStep (initialFleet fun _ => 0) deployAndLookUp
      (by decide))
  refine ⟨hmisses true _ [] _ (.inl rfl) ?_, hdeploys false sevenBatch [] none ?_ _
    List.mem_cons_self, hserves true _ [] 70 ?_, hmisses true _ [] _ (.inl rfl) ?_⟩
  · exact List.mem_of_getElem? (i := 0) rfl
  · exact List.mem_of_getElem? (i := 1) rfl
  · exact List.mem_of_getElem? (i := 2) rfl
  · exact List.mem_of_getElem? (i := 3) rfl

end NoraFleet.TempNetworks
