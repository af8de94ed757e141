import Mathlib
import NoraFleet.TempNetworks.Servers

/-!
# Where the calls of a fleet stand

What holds of the tables of every server and of the base storage, and where every call stands at
each of its control points: what a lookup knows of the name it looks up, and what is in order about
the writes that a locked block has left. A lookup that misses a name has a reason, `Missed`.

* `CallAt.later` — no step gets in the way of where another call stands;
* `FleetAt.later` — nor of one within a block, as long as it leaves the tables under its lock alone.
-/

namespace NoraFleet.TempNetworks

open Base Base.Program

variable {Server Name Key Spec Network Time : Type*}

/-! ## What holds of the fleet -/

section Assertions

variable (store : SharedStore Name Key Spec Network Time)

/-- A name that was written to the base storage. -/
def Stored (s : Fleet Server Name Key Spec Network Time) (agentName : Name) : Prop :=
  ∃ key, store.key agentName = some key ∧ key ∈ s.stored

/-- A deployment that was written to the base storage, under a name. -/
structure Known (s : Fleet Server Name Key Spec Network Time) (agentName : Name)
    (reservation : Reservation Name Time) (agentSpec : Spec) : Prop where
  made : store.deployment agentName = some (reservation, agentSpec)
  stored : Stored store s agentName

/-- The network of a deployment, as the server that deployed it or as a reader made it. -/
def SharedStore.Makes (reservation : Reservation Name Time) (agentSpec : Spec)
    (agentNetwork : Network) : Prop :=
  store.agentNetwork agentSpec reservation.id = some agentNetwork ∨
    store.readBack reservation agentSpec = some agentNetwork

variable [LinearOrder Time]

/-- A reservation that is expired by the clock of some server. -/
def Passed (s : Fleet Server Name Key Spec Network Time) (reservation : Reservation Name Time) :
    Prop :=
  ∃ server, reservation.expirationTimeInSeconds < (s.worlds server).clock

/-- A name whose reservation is expired by the clock of some server. -/
def NamePassed (s : Fleet Server Name Key Spec Network Time) (agentName : Name) : Prop :=
  ∃ reservation agentSpec, store.deployment agentName = some (reservation, agentSpec) ∧
    Passed s reservation

/-- A network that a lookup may give: one of the deployment that its name stands for, which was not
expired by the clock of its server as it began. -/
def Served (s : Fleet Server Name Key Spec Network Time) (lookup : Lookup Name Time)
    (agentNetwork : Network) : Prop :=
  ∃ reservation agentSpec, Known store s lookup.agentName reservation agentSpec ∧
    store.Makes reservation agentSpec agentNetwork ∧
    lookup.began ≤ reservation.expirationTimeInSeconds

/-- Why a lookup of a server may give nothing. -/
inductive Missed (s : Fleet Server Name Key Spec Network Time) (server : Server)
    (lookup : Lookup Name Time) : Prop
  | unknown (h : lookup.known = false)
  | failed (h : lookup.failed = true)
  | halfCached (h : lookup.halfCached = true)
  | evicted (h : (server, lookup.agentName) ∈ s.evictions.drop lookup.evicted)
  | passed (h : NamePassed store s lookup.agentName)
  | unreadable (reservation : Reservation Name Time) (agentSpec : Spec)
      (hmade : store.deployment lookup.agentName = some (reservation, agentSpec))
      (h : store.readBack reservation agentSpec = none)

variable [DecidableEq Name]

/-- What holds of the tables of a server: they have what was deployed, and a reservation without its
network is about to be cached. -/
structure TablesInv (s : Fleet Server Name Key Spec Network Time) (lock : Option (Block Name))
    (tables : Storage Name Network Time) : Prop where
  reservations : ∀ agentName reservation,
    tables.reservationsTable.get? agentName = some reservation →
      ∃ agentSpec, Known store s agentName reservation agentSpec
  agents : ∀ agentName agentNetwork, tables.agentsTable.get? agentName = some agentNetwork →
    ∃ reservation agentSpec, Known store s agentName reservation agentSpec ∧
      store.Makes reservation agentSpec agentNetwork
  paired : ∀ agentName, agentName ∈ tables.reservationsTable →
    agentName ∈ tables.agentsTable ∨ lock = some (.caching agentName)

/-- What holds of all tables and of the base storage. -/
structure FleetInv (s : Fleet Server Name Key Spec Network Time) : Prop where
  tables : ∀ server, TablesInv store s (s.locks server) (s.worlds server).storage
  base : ∀ key entry, s.base key = some entry → store.contents key = some entry ∧ key ∈ s.stored
  kept : ∀ key ∈ s.stored, ∃ entry, store.contents key = some entry ∧
    (s.base key = some entry ∨ Passed s entry.1)

/-- What any step of the fleet may do, as far as the calls under way count on it. -/
structure Advances (s s' : Fleet Server Name Key Spec Network Time) : Prop where
  clock : ∀ server, (s.worlds server).clock ≤ (s'.worlds server).clock
  stored : ∀ key ∈ s.stored, key ∈ s'.stored
  evictions : s.evictions <+: s'.evictions
  agents : ∀ server agentName, agentName ∈ (s.worlds server).storage.agentsTable →
    agentName ∈ (s'.worlds server).storage.agentsTable ∨ NamePassed store s' agentName ∨
      (server, agentName) ∈ s'.evictions.drop s.evictions.length
  caching : ∀ server agentName, s.locks server = some (.caching agentName) →
    s'.locks server = some (.caching agentName) ∨
      agentName ∈ (s'.worlds server).storage.agentsTable

/-- What a write in a block may count on. -/
def Write.Proper (s : Fleet Server Name Key Spec Network Time)
    (lock : Option (Block Name)) (tables : Storage Name Network Time) :
    Write Name Network Time → Prop
  | .setAgent agentName agentNetwork =>
      ∃ reservation agentSpec, Known store s agentName reservation agentSpec ∧
        store.Makes reservation agentSpec agentNetwork
  | .setReservation agentName reservation =>
      (∃ agentSpec, Known store s agentName reservation agentSpec) ∧
        (agentName ∈ tables.agentsTable ∨ lock = some (.caching agentName))
  | .popAgent agentName =>
      agentName ∉ tables.reservationsTable ∧
        (NamePassed store s agentName ∨ lock = some .evicting)
  | _ => True

/-- A block whose writes, one after the other, may count on what they need. At its end nothing is
half cached. -/
def Orderly (s : Fleet Server Name Key Spec Network Time)
    (lock : Option (Block Name)) :
    Storage Name Network Time → List (Write Name Network Time) → Prop
  | tables, [] => ∀ agentName, lock = some (.caching agentName) → agentName ∈ tables.agentsTable
  | tables, write :: rest =>
      write.Proper store s lock tables ∧ Orderly s lock (write.apply tables) rest

/-- A lookup under way. -/
structure Under (s : Fleet Server Name Key Spec Network Time) (server : Server)
    (lookup : Lookup Name Time) : Prop where
  began : lookup.began ≤ (s.worlds server).clock
  known : lookup.known = true → Stored store s lookup.agentName
  evicted : lookup.evicted ≤ s.evictions.length

/-- A network that is in the table, or about to be, or missed for a reason. -/
def Present (s : Fleet Server Name Key Spec Network Time) (server : Server)
    (lookup : Lookup Name Time) : Prop :=
  lookup.agentName ∈ (s.worlds server).storage.agentsTable ∨
    s.locks server = some (.caching lookup.agentName) ∨ Missed store s server lookup

/-- What a call has to show for itself when it comes to an end. -/
def Settled (s : Fleet Server Name Key Spec Network Time) (server : Server) :
    Purpose store → Option Network → Prop
  | .deploy batch, _ => ∀ entry ∈ batch.reservationsDict, Stored store s entry.1.id
  | .lookUp lookup, some agentNetwork => Served store s lookup agentNetwork
  | .lookUp lookup, none => Missed store s server lookup
  | .upkeep, _ => True

variable {store} in
/-- A call that looks up a name, of which something holds. -/
def OfLookup (purpose : Purpose store) (agentName : Name) (P : Lookup Name Time → Prop) : Prop :=
  ∃ lookup, purpose = .lookUp lookup ∧ lookup.agentName = agentName ∧ P lookup

/-- Where a call of a server's storage stands. -/
def CallAt (s : Fleet Server Name Key Spec Network Time) (server : Server)
    (purpose : Purpose store) (unwritten : List (Reservation Name Time × Spec)) :
    Call Name Spec Network Time → Prop
  | .addBase reservationsDict => ∃ batch, purpose = .deploy batch ∧
      batch.reservationsDict = reservationsDict ∧
      ∀ entry ∈ reservationsDict, entry ∈ unwritten ∨ Stored store s entry.1.id
  | .addNow reservationsDict | .addLock reservationsDict _ => ∃ batch, purpose = .deploy batch ∧
      batch.reservationsDict = reservationsDict ∧
      ∀ entry ∈ reservationsDict, Stored store s entry.1.id
  | .expireSnapshot | .setMax _ | .setThresholdZero _ | .setThreshold _ => purpose = .upkeep
  | .expireScan _ rest expired => purpose = .upkeep ∧
      (∀ entry ∈ rest, ∃ agentSpec, store.deployment entry.1 = some (entry.2, agentSpec)) ∧
      ∀ agentName ∈ expired, NamePassed store s agentName
  | .expireLock _ expired => purpose = .upkeep ∧
      ∀ agentName ∈ expired, NamePassed store s agentName
  | .getReservation agentName | .getBase agentName =>
      OfLookup purpose agentName (Under store s server)
  | .getCheck agentName reservation => OfLookup purpose agentName fun lookup =>
      Under store s server lookup ∧
        (∃ agentSpec, Known store s agentName reservation agentSpec) ∧
        Present store s server lookup
  | .getExpiredLock agentName _ => OfLookup purpose agentName fun _ =>
      NamePassed store s agentName
  | .getNetwork agentName => OfLookup purpose agentName fun lookup =>
      Under store s server lookup ∧
        (∃ reservation agentSpec, Known store s agentName reservation agentSpec ∧
          lookup.began ≤ reservation.expirationTimeInSeconds) ∧
        Present store s server lookup
  | .getTouch agentName agentNetwork => OfLookup purpose agentName fun lookup =>
      Served store s lookup agentNetwork
  | .getBaseCheck agentName reservation agentNetwork => OfLookup purpose agentName fun lookup =>
      Under store s server lookup ∧ ∃ agentSpec,
        Known store s agentName reservation agentSpec ∧
        store.Makes reservation agentSpec agentNetwork
  | .getBaseNow agentName reservation agentNetwork
  | .getBaseLock agentName reservation agentNetwork _ => OfLookup purpose agentName fun lookup =>
      ∃ agentSpec, Known store s agentName reservation agentSpec ∧
        store.Makes reservation agentSpec agentNetwork ∧
        lookup.began ≤ reservation.expirationTimeInSeconds
  | .evictCheck result | .evictLock result | .notify _ result _ | .returned result =>
      Settled store s server purpose result
  | .raised => ∀ lookup, purpose = .lookUp lookup → lookup.failed = true

/-- What `get_one_reservation` has read. -/
def Got (s : Fleet Server Name Key Spec Network Time) (server : Server)
    (lookup : Lookup Name Time) : Option (Reservation Name Time × Spec) → Prop
  | none => Missed store s server lookup
  | some entry => Known store s lookup.agentName entry.1 entry.2

/-- Where a call of the fleet stands. -/
def FleetAt (s : Fleet Server Name Key Spec Network Time) :
    FleetCall Server store → Prop
  | .asked _ _ | .sweep _ | .swept => True
  | .serving server purpose unwritten call =>
      (∀ entry ∈ unwritten, store.deployment entry.1.id = some entry) ∧
        CallAt store s server purpose unwritten call
  | .inside server purpose writes next =>
      s.locks server ≠ none ∧
        Orderly store s (s.locks server) (s.worlds server).storage writes ∧
        CallAt store s server purpose [] next
  | .reading server lookup found => Under store s server lookup ∧ Got store s server lookup found
  | .sweeping server currentTime => currentTime ≤ (s.worlds server).clock
  | .deleting server currentTime key => currentTime ≤ (s.worlds server).clock ∧
      ∃ entry, store.contents key = some entry ∧ Passed s entry.1

end Assertions

/-! ## What a step leaves true -/

section Stability

variable {store : SharedStore Name Key Spec Network Time}
  {s s' : Fleet Server Name Key Spec Network Time} {server : Server}

theorem Stored.later {agentName : Name} (h : Stored store s agentName)
    (hstored : ∀ key ∈ s.stored, key ∈ s'.stored) : Stored store s' agentName := by
  obtain ⟨key, hkey, hmem⟩ := h
  exact ⟨key, hkey, hstored key hmem⟩

theorem Known.later {agentName : Name} {reservation : Reservation Name Time} {agentSpec : Spec}
    (h : Known store s agentName reservation agentSpec)
    (hstored : ∀ key ∈ s.stored, key ∈ s'.stored) :
    Known store s' agentName reservation agentSpec :=
  ⟨h.made, h.stored.later hstored⟩

variable [LinearOrder Time]

theorem Passed.later {reservation : Reservation Name Time} (h : Passed s reservation)
    (hclock : ∀ server, (s.worlds server).clock ≤ (s'.worlds server).clock) :
    Passed s' reservation := by
  obtain ⟨server, hlt⟩ := h
  exact ⟨server, hlt.trans_le (hclock server)⟩

theorem NamePassed.later {agentName : Name} (h : NamePassed store s agentName)
    (hclock : ∀ server, (s.worlds server).clock ≤ (s'.worlds server).clock) :
    NamePassed store s' agentName := by
  obtain ⟨reservation, agentSpec, hmade, hpassed⟩ := h
  exact ⟨reservation, agentSpec, hmade, hpassed.later hclock⟩

/-- A lookup that has more to say for itself. -/
theorem Missed.of_flags {lookup lookup' : Lookup Name Time} (h : Missed store s server lookup)
    (hname : lookup'.agentName = lookup.agentName) (hknown : lookup'.known = lookup.known)
    (hevicted : lookup'.evicted = lookup.evicted)
    (hfailed : lookup.failed = true → lookup'.failed = true)
    (hhalf : lookup.halfCached = true → lookup'.halfCached = true) :
    Missed store s server lookup' := by
  cases h with
  | unknown h => exact .unknown (hknown.trans h)
  | failed h => exact .failed (hfailed h)
  | halfCached h => exact .halfCached (hhalf h)
  | evicted h =>
      rw [← hname, ← hevicted] at h
      exact .evicted h
  | passed h =>
      rw [← hname] at h
      exact .passed h
  | unreadable reservation agentSpec hmade h =>
      rw [← hname] at hmade
      exact .unreadable reservation agentSpec hmade h

theorem Served.later {lookup : Lookup Name Time} {agentNetwork : Network}
    (h : Served store s lookup agentNetwork) (hadv : Advances store s s') :
    Served store s' lookup agentNetwork := by
  obtain ⟨reservation, agentSpec, hknown, hmakes, hbegan⟩ := h
  exact ⟨reservation, agentSpec, hknown.later hadv.stored, hmakes, hbegan⟩

theorem Missed.later {lookup : Lookup Name Time} (h : Missed store s server lookup)
    (hadv : Advances store s s') : Missed store s' server lookup := by
  cases h with
  | unknown h => exact .unknown h
  | failed h => exact .failed h
  | halfCached h => exact .halfCached h
  | evicted h =>
      obtain ⟨more, hmore⟩ := hadv.evictions
      refine .evicted ?_
      rw [← hmore, List.drop_append]
      exact List.mem_append_left _ h
  | passed h => exact .passed (h.later hadv.clock)
  | unreadable reservation agentSpec hmade h => exact .unreadable reservation agentSpec hmade h

theorem Under.later {lookup : Lookup Name Time} (h : Under store s server lookup)
    (hadv : Advances store s s') : Under store s' server lookup where
  began := h.began.trans (hadv.clock server)
  known hknown := (h.known hknown).later hadv.stored
  evicted := h.evicted.trans hadv.evictions.length_le

theorem Present.later {lookup : Lookup Name Time} (h : Present store s server lookup)
    (hunder : Under store s server lookup) (hadv : Advances store s s') :
    Present store s' server lookup := by
  rcases h with htable | hcaching | hmissed
  · rcases hadv.agents server lookup.agentName htable with hstays | hpassed | hevicted
    · exact .inl hstays
    · exact .inr (.inr (.passed hpassed))
    · refine .inr (.inr (.evicted ?_))
      exact (List.drop_sublist_drop_left _ hunder.evicted).mem hevicted
  · rcases hadv.caching server lookup.agentName hcaching with hstill | hdone
    · exact .inr (.inl hstill)
    · exact .inl hdone
  · exact .inr (.inr (hmissed.later hadv))

theorem Settled.later {purpose : Purpose store} {result : Option Network}
    (h : Settled store s server purpose result) (hadv : Advances store s s') :
    Settled store s' server purpose result := by
  cases purpose with
  | deploy batch => exact fun entry hentry => (h entry hentry).later hadv.stored
  | lookUp lookup =>
      cases result with
      | none => exact Missed.later h hadv
      | some agentNetwork => exact Served.later h hadv
  | upkeep => trivial

omit [LinearOrder Time] in
theorem OfLookup.imp {purpose : Purpose store} {agentName : Name} {P Q : Lookup Name Time → Prop}
    (h : OfLookup purpose agentName P) (hPQ : ∀ lookup, P lookup → Q lookup) :
    OfLookup purpose agentName Q := by
  obtain ⟨lookup, hpurpose, hname, hP⟩ := h
  exact ⟨lookup, hpurpose, hname, hPQ lookup hP⟩

/-- No step of the fleet gets in the way of where another call stands. -/
theorem CallAt.later {purpose : Purpose store} {unwritten : List (Reservation Name Time × Spec)}
    {call : Call Name Spec Network Time} (h : CallAt store s server purpose unwritten call)
    (hadv : Advances store s s') : CallAt store s' server purpose unwritten call := by
  cases call with
  | addBase reservationsDict =>
      obtain ⟨batch, hpurpose, hbatch, hwritten⟩ := h
      refine ⟨batch, hpurpose, hbatch, fun entry hentry => ?_⟩
      exact (hwritten entry hentry).imp id fun hstored => hstored.later hadv.stored
  | addNow reservationsDict | addLock reservationsDict now =>
      obtain ⟨batch, hpurpose, hbatch, hstored⟩ := h
      exact ⟨batch, hpurpose, hbatch, fun entry hentry =>
        (hstored entry hentry).later hadv.stored⟩
  | expireSnapshot | setMax maxItems | setThresholdZero maxItems | setThreshold maxItems => exact h
  | expireScan snapshot rest expired =>
      exact ⟨h.1, h.2.1, fun agentName hmem => (h.2.2 agentName hmem).later hadv.clock⟩
  | expireLock snapshot expired =>
      exact ⟨h.1, fun agentName hmem => (h.2 agentName hmem).later hadv.clock⟩
  | getReservation agentName | getBase agentName =>
      exact OfLookup.imp h fun lookup hunder => hunder.later hadv
  | getCheck agentName reservation =>
      refine OfLookup.imp h fun lookup hlookup => ?_
      obtain ⟨hunder, ⟨agentSpec, hknown⟩, hpresent⟩ := hlookup
      exact ⟨hunder.later hadv, ⟨agentSpec, hknown.later hadv.stored⟩,
        hpresent.later hunder hadv⟩
  | getExpiredLock agentName reservation =>
      exact OfLookup.imp h fun lookup hpassed => hpassed.later hadv.clock
  | getNetwork agentName =>
      refine OfLookup.imp h fun lookup hlookup => ?_
      obtain ⟨hunder, ⟨reservation, agentSpec, hknown, hbegan⟩, hpresent⟩ := hlookup
      exact ⟨hunder.later hadv, ⟨reservation, agentSpec, hknown.later hadv.stored, hbegan⟩,
        hpresent.later hunder hadv⟩
  | getTouch agentName agentNetwork =>
      exact OfLookup.imp h fun lookup hserved => hserved.later hadv
  | getBaseCheck agentName reservation agentNetwork =>
      refine OfLookup.imp h fun lookup hlookup => ?_
      obtain ⟨hunder, agentSpec, hknown, hmakes⟩ := hlookup
      exact ⟨hunder.later hadv, agentSpec, hknown.later hadv.stored, hmakes⟩
  | getBaseNow agentName reservation agentNetwork
  | getBaseLock agentName reservation agentNetwork now =>
      refine OfLookup.imp h fun lookup hlookup => ?_
      obtain ⟨agentSpec, hknown, hmakes, hbegan⟩ := hlookup
      exact ⟨agentSpec, hknown.later hadv.stored, hmakes, hbegan⟩
  | evictCheck result | evictLock result | notify owed result thenEvict | returned result =>
      exact Settled.later h hadv
  | raised => exact h

theorem Got.later {lookup : Lookup Name Time} {found : Option (Reservation Name Time × Spec)}
    (h : Got store s server lookup found) (hadv : Advances store s s') :
    Got store s' server lookup found := by
  cases found with
  | none => exact Missed.later h hadv
  | some entry => exact Known.later h hadv.stored

variable [DecidableEq Name]

theorem Orderly.later {lock : Option (Block Name)} {tables : Storage Name Network Time}
    {writes : List (Write Name Network Time)} (h : Orderly store s lock tables writes)
    (hadv : Advances store s s') : Orderly store s' lock tables writes := by
  induction writes generalizing tables with
  | nil => exact h
  | cons write rest ih =>
      refine ⟨?_, ih h.2⟩
      have hproper := h.1
      cases write with
      | setAgent agentName agentNetwork =>
          obtain ⟨reservation, agentSpec, hknown, hmakes⟩ := hproper
          exact ⟨reservation, agentSpec, hknown.later hadv.stored, hmakes⟩
      | setReservation agentName reservation =>
          obtain ⟨⟨agentSpec, hknown⟩, hthere⟩ := hproper
          exact ⟨⟨agentSpec, hknown.later hadv.stored⟩, hthere⟩
      | popAgent agentName =>
          exact ⟨hproper.1, hproper.2.imp (fun hpassed => hpassed.later hadv.clock) id⟩
      | setAccessTime _ _ | setSize _ _ | popReservation _ | popAccessTime _ | popSize _ =>
          trivial

/-- The writes of a block count on no table but those of the networks and reservations. -/
theorem Orderly.congr {lock : Option (Block Name)} {tables tables' : Storage Name Network Time}
    {writes : List (Write Name Network Time)} (h : Orderly store s lock tables writes)
    (same : SameTables tables tables') : Orderly store s lock tables' writes := by
  induction writes generalizing tables tables' with
  | nil =>
      intro agentName hcaching
      rw [same.agentsTable]
      exact h agentName hcaching
  | cons write rest ih =>
      refine ⟨?_, ih h.2 ?_⟩
      · have hproper := h.1
        cases write with
        | setReservation agentName reservation =>
            refine ⟨hproper.1, ?_⟩
            rw [same.agentsTable]
            exact hproper.2
        | popAgent agentName =>
            refine ⟨?_, hproper.2⟩
            rw [same.reservationsTable]
            exact hproper.1
        | setAgent _ _ | setAccessTime _ _ | setSize _ _ | popReservation _ | popAccessTime _
        | popSize _ => exact hproper
      · obtain ⟨hagents, hreservations, haccess, hsizes⟩ := same
        cases write <;> constructor <;>
          simp only [Write.apply, hagents, hreservations, haccess, hsizes]

/-- No step of the fleet gets in the way of where another call stands, as long as it leaves a
server alone whose lock the other call holds. -/
theorem FleetAt.later {call : FleetCall Server store} (h : FleetAt store s call)
    (hadv : Advances store s s')
    (hleaves : ∀ server, call.holds = some server → s'.locks server = s.locks server ∧
      SameTables (s.worlds server).storage (s'.worlds server).storage) :
    FleetAt store s' call := by
  cases call with
  | asked server agentName | sweep server | swept => trivial
  | serving server purpose unwritten call => exact ⟨h.1, h.2.later hadv⟩
  | inside server purpose writes next =>
      obtain ⟨hlocked, horderly, hnext⟩ := h
      obtain ⟨hlocks, hsame⟩ := hleaves server rfl
      refine ⟨?_, ?_, hnext.later hadv⟩
      · rw [hlocks]
        exact hlocked
      · rw [hlocks]
        exact (horderly.later hadv).congr hsame
  | reading server lookup found => exact ⟨h.1.later hadv, h.2.later hadv⟩
  | sweeping server currentTime => exact h.trans (hadv.clock server)
  | deleting server currentTime key =>
      obtain ⟨hle, entry, hcontents, hpassed⟩ := h
      exact ⟨hle.trans (hadv.clock server), entry, hcontents, hpassed.later hadv.clock⟩

end Stability

end NoraFleet.TempNetworks
