import NoraFleet.Base.Merging
import NoraFleet.Networks.AgentNetwork
import NoraFleet.TempNetworks.Listeners

/-!
# A deployment that fails

`add_reservations` first hands the batch to the base storage, then builds the networks
one by one and stores each as it is built, and at last tells the listeners. When the
constructor of a network raises, what was stored before stays, in both storages, and
nobody is told.

* `allOrNothing_iff` — when a deployment leaves everything as it was, or does all of it.
-/

namespace NoraFleet.TempNetworks

open Base

variable {Name Spec Network Time : Type*}

/-! ## The operation -/

/-- The storage, what its base storage holds, if it has one, and what each listener was
told. -/
structure Site (Name Spec Network Time : Type*) where
  storage : Storage Name Network Time
  base : Option (List (Reservation Name Time × Spec))
  told : List (List (Notice Name))

/-- The base storage holds a reservation. -/
def Site.Holds (s : Site Name Spec Network Time) (reservation : Reservation Name Time) : Prop :=
  ∃ held, s.base = some held ∧ ∃ agentSpec, (reservation, agentSpec) ∈ held

/-- What a deployment came to: whether it raised, the tables as the locked block left
them, and what it announced to the listeners. -/
structure Outcome (Name Spec Network Time : Type*) where
  raised : Bool
  stored : Storage Name Network Time
  announced : List (Notice Name)
  site : Site Name Spec Network Time

/-- Every listener is told. -/
def tell (notices : List (Notice Name)) (told : List (List (Notice Name))) :
    List (List (Notice Name)) :=
  told.map (· ++ notices)

section Operation

variable [DecidableEq Name] [LinearOrder Time]

/-- `evict_lru_agent_networks()`. -/
def Site.evictLruAgentNetworks (s : Site Name Spec Network Time) :
    Site Name Spec Network Time :=
  if s.storage.maxItems ≤ 0 then s
  else
    let evicted := s.storage.lruOverflow
    { s with
      storage := s.storage.removeAll evicted
      told := tell (evicted.map .agentRemoved) s.told }

/-- `add_reservations(reservations_dict, source)` from the locked block on. The calls
that listeners make on the storage when they are told are `respond`. -/
def Site.addLocked (kind : NetworkKind Name Spec Network) (now : Time)
    (respond : Storage Name Network Time → Storage Name Network Time)
    (reservationsDict : List (Reservation Name Time × Spec)) (s : Site Name Spec Network Time) :
    Outcome Name Spec Network Time :=
  let result := s.storage.addReservationsLocked kind now reservationsDict
  if result.raised then ⟨true, result.storage, [], { s with storage := result.storage }⟩
  else
    let announced := result.added.map Notice.agentAdded ++ result.replaced.map .agentModified
    ⟨false, result.storage, announced,
      Site.evictLruAgentNetworks { s with
        storage := respond result.storage
        told := tell announced s.told }⟩

/-- `add_reservations(reservations_dict, source)`. The base storage stores all of the
batch, or raises and stores nothing. -/
def Site.addReservations (kind : NetworkKind Name Spec Network) (now : Time)
    (respond : Storage Name Network Time → Storage Name Network Time) (baseRaises : Bool)
    (reservationsDict : List (Reservation Name Time × Spec)) (s : Site Name Spec Network Time) :
    Outcome Name Spec Network Time :=
  if reservationsDict.isEmpty then ⟨false, s.storage, [], s⟩
  else
    match s.base with
    | none => s.addLocked kind now respond reservationsDict
    | some held =>
        if baseRaises then ⟨true, s.storage, [], s⟩
        else
          Site.addLocked kind now respond reservationsDict
            { s with base := some (held ++ reservationsDict) }

/-! ## The locked block -/

/-- The networks that are built, up to the first whose `AgentNetwork(...)` raises. -/
def built (kind : NetworkKind Name Spec Network) :
    List (Reservation Name Time × Spec) → List (Reservation Name Time × Network)
  | [] => []
  | (reservation, agentSpec) :: rest =>
      match kind.agentNetwork agentSpec reservation.id with
      | none => []
      | some agentNetwork => (reservation, agentNetwork) :: built kind rest

/-- No `AgentNetwork(...)` of the batch raises. -/
def AllBuilt (kind : NetworkKind Name Spec Network)
    (reservationsDict : List (Reservation Name Time × Spec)) : Prop :=
  ∀ entry ∈ reservationsDict, (kind.agentNetwork entry.2 entry.1.id).isSome

/-- The tables with some networks stored. -/
def Storage.storeAll (kind : NetworkKind Name Spec Network) (now : Time)
    (s : Storage Name Network Time) (networks : List (Reservation Name Time × Network)) :
    Storage Name Network Time :=
  { s with
    agentsTable := s.agentsTable.update (networks.map fun entry => (entry.1.id, entry.2))
    reservationsTable := s.reservationsTable.update
      (networks.map fun entry => (entry.1.id, entry.1))
    accessTimes := s.accessTimes.update (networks.map fun entry => (entry.1.id, now))
    sizes := s.sizes.update
      (networks.map fun entry => (entry.1.id, kind.getSizeInBytes entry.2)) }

omit [LinearOrder Time] in
/-- The loop stores the networks that are built. -/
theorem addLoop_storage (kind : NetworkKind Name Spec Network) (now : Time)
    (batch : List (Reservation Name Time × Spec)) (s : Storage Name Network Time)
    (added replaced : List Name) :
    (Storage.addLoop kind now batch s added replaced).storage =
      s.storeAll kind now (built kind batch) := by
  induction batch generalizing s added replaced with
  | nil => rfl
  | cons entry rest ih =>
      obtain ⟨reservation, agentSpec⟩ := entry
      cases hnetwork : kind.agentNetwork agentSpec reservation.id with
      | none =>
          rw [Storage.addLoop_raise kind now hnetwork]
          simp only [built, hnetwork]
          rfl
      | some agentNetwork =>
          rw [Storage.addLoop_store kind now hnetwork, ih]
          simp only [built, hnetwork]
          rfl

omit [LinearOrder Time] in
/-- It raises when a network cannot be built. -/
theorem addLoop_raised (kind : NetworkKind Name Spec Network) (now : Time)
    (batch : List (Reservation Name Time × Spec)) (s : Storage Name Network Time)
    (added replaced : List Name) :
    (Storage.addLoop kind now batch s added replaced).raised = false ↔ AllBuilt kind batch := by
  induction batch generalizing s added replaced with
  | nil => simp [Storage.addLoop, AllBuilt]
  | cons entry rest ih =>
      obtain ⟨reservation, agentSpec⟩ := entry
      cases hnetwork : kind.agentNetwork agentSpec reservation.id with
      | none =>
          rw [Storage.addLoop_raise kind now hnetwork]
          simp [AllBuilt, hnetwork]
      | some agentNetwork =>
          rw [Storage.addLoop_store kind now hnetwork, ih]
          simp [AllBuilt, hnetwork]

omit [LinearOrder Time] in
/-- It reports each entry once. -/
theorem addLoop_reports (kind : NetworkKind Name Spec Network) (now : Time)
    {batch : List (Reservation Name Time × Spec)} (h : AllBuilt kind batch)
    (s : Storage Name Network Time) (added replaced : List Name) :
    ((Storage.addLoop kind now batch s added replaced).added ++
        (Storage.addLoop kind now batch s added replaced).replaced).Perm
      (added ++ replaced ++ batch.map fun entry => entry.1.id) := by
  induction batch generalizing s added replaced with
  | nil => simp [Storage.addLoop]
  | cons entry rest ih =>
      obtain ⟨reservation, agentSpec⟩ := entry
      have hfirst := h (reservation, agentSpec) List.mem_cons_self
      obtain ⟨agentNetwork, hnetwork⟩ := Option.isSome_iff_exists.mp hfirst
      rw [Storage.addLoop_store kind now hnetwork]
      refine (ih (fun entry hmem => h entry (List.mem_cons_of_mem _ hmem)) _ _ _).trans ?_
      rw [List.map_cons]
      by_cases hnew : (s.agentsTable.get? reservation.id).isNone = true
      · rw [if_pos hnew, if_pos hnew, List.perm_iff_count]
        intro x
        simp only [List.count_append, List.count_cons, List.count_nil]
        omega
      · rw [if_neg hnew, if_neg hnew, List.perm_iff_count]
        intro x
        simp only [List.count_append, List.count_cons, List.count_nil]
        omega

/-! ## All or nothing -/

/-- The notice announces a network. -/
def Notice.announces : Notice Name → Bool
  | .agentAdded _ => true
  | .agentModified _ => true
  | .agentRemoved _ => false

/-- A deployment that raises leaves the tables, the base storage and the listeners as
they were. -/
def Restores (s : Site Name Spec Network Time)
    (reservationsDict : List (Reservation Name Time × Spec))
    (outcome : Outcome Name Spec Network Time) : Prop :=
  SameTables s.storage outcome.site.storage ∧
    (∀ entry ∈ reservationsDict, outcome.site.Holds entry.1 → s.Holds entry.1) ∧
    outcome.site.told = s.told

/-- A deployment that returns has stored each reservation with its network, the last one
of an id, and has announced each of them once to every listener. -/
structure Deploys (kind : NetworkKind Name Spec Network) (s : Site Name Spec Network Time)
    (reservationsDict : List (Reservation Name Time × Spec))
    (outcome : Outcome Name Spec Network Time) : Prop where
  stored : ∀ before reservation agentSpec after,
    reservationsDict = before ++ (reservation, agentSpec) :: after →
    reservation.id ∉ after.map (fun entry => entry.1.id) →
    outcome.stored.reservationsTable.get? reservation.id = some reservation ∧
      outcome.stored.agentsTable.get? reservation.id =
        kind.agentNetwork agentSpec reservation.id ∧
      (kind.agentNetwork agentSpec reservation.id).isSome
  announced : (outcome.announced.map Notice.name).Perm
    (reservationsDict.map fun entry => entry.1.id)
  announces : ∀ notice ∈ outcome.announced, notice.announces = true
  told : ∃ evicted : List Name, outcome.site.told =
    tell (outcome.announced ++ evicted.map .agentRemoved) s.told

/-- All of the batch is done, or nothing. -/
def AllOrNothing (kind : NetworkKind Name Spec Network) (s : Site Name Spec Network Time)
    (reservationsDict : List (Reservation Name Time × Spec))
    (outcome : Outcome Name Spec Network Time) : Prop :=
  (outcome.raised = true → Restores s reservationsDict outcome) ∧
    (outcome.raised = false → Deploys kind s reservationsDict outcome)

/-- Storing some networks changes nothing: the last one of each id is there, with this
access time. -/
def AlreadyStored (kind : NetworkKind Name Spec Network) (now : Time)
    (s : Storage Name Network Time) (networks : List (Reservation Name Time × Network)) : Prop :=
  ∀ before reservation agentNetwork after,
    networks = before ++ (reservation, agentNetwork) :: after →
    reservation.id ∉ after.map (fun entry => entry.1.id) →
    s.agentsTable.get? reservation.id = some agentNetwork ∧
      s.reservationsTable.get? reservation.id = some reservation ∧
      s.accessTimes.get? reservation.id = some now ∧
      s.sizes.get? reservation.id = some (kind.getSizeInBytes agentNetwork)

omit [LinearOrder Time] in
/-- Assigning a column of the networks changes nothing when each last value is there. -/
theorem update_column_iff {ν : Type*} (d : Dict Name ν)
    (networks : List (Reservation Name Time × Network))
    (column : Reservation Name Time × Network → ν) :
    d.update (networks.map fun entry => (entry.1.id, column entry)) = d ↔
      ∀ before entry after, networks = before ++ entry :: after →
        entry.1.id ∉ after.map (fun entry => entry.1.id) →
          d.get? entry.1.id = some (column entry) := by
  rw [Dict.update_eq_self_iff]
  constructor
  · rintro h before entry after rfl hlast
    apply h (before.map fun entry => (entry.1.id, column entry)) _ _
      (after.map fun entry => (entry.1.id, column entry))
    · simp
    · rw [List.map_map]
      exact hlast
  · intro h before k v after hsplit hlast
    obtain ⟨before', rest, rfl, rfl, hrest⟩ := List.map_eq_append_iff.mp hsplit
    obtain ⟨entry, after', rfl, hentry, rfl⟩ := List.map_eq_cons_iff.mp hrest
    cases hentry
    apply h before' entry after' rfl
    rw [List.map_map] at hlast
    exact hlast

omit [LinearOrder Time] in
theorem sameTables_storeAll_iff (kind : NetworkKind Name Spec Network) (now : Time)
    (s : Storage Name Network Time) (networks : List (Reservation Name Time × Network)) :
    SameTables s (s.storeAll kind now networks) ↔ AlreadyStored kind now s networks := by
  have hagents := update_column_iff s.agentsTable networks fun entry => entry.2
  have hreservations := update_column_iff s.reservationsTable networks fun entry => entry.1
  have htimes := update_column_iff s.accessTimes networks fun _ => now
  have hsizes := update_column_iff s.sizes networks fun entry => kind.getSizeInBytes entry.2
  constructor
  · rintro ⟨h1, h2, h3, h4⟩ before reservation agentNetwork after hsplit hlast
    exact ⟨hagents.mp h1 before _ after hsplit hlast,
      hreservations.mp h2 before _ after hsplit hlast,
      htimes.mp h3 before _ after hsplit hlast, hsizes.mp h4 before _ after hsplit hlast⟩
  · intro h
    constructor
    · exact hagents.mpr fun before entry after hsplit hlast =>
        (h before entry.1 entry.2 after hsplit hlast).1
    · exact hreservations.mpr fun before entry after hsplit hlast =>
        (h before entry.1 entry.2 after hsplit hlast).2.1
    · exact htimes.mpr fun before entry after hsplit hlast =>
        (h before entry.1 entry.2 after hsplit hlast).2.2.1
    · exact hsizes.mpr fun before entry after hsplit hlast =>
        (h before entry.1 entry.2 after hsplit hlast).2.2.2

omit [DecidableEq Name] [LinearOrder Time] in
/-- Of networks that are all built, the last one of an id is the one of the batch. -/
theorem built_append (kind : NetworkKind Name Spec Network)
    {before : List (Reservation Name Time × Spec)} {reservation : Reservation Name Time}
    {agentSpec : Spec} {after : List (Reservation Name Time × Spec)}
    (h : AllBuilt kind (before ++ (reservation, agentSpec) :: after)) :
    ∃ agentNetwork, kind.agentNetwork agentSpec reservation.id = some agentNetwork ∧
      built kind (before ++ (reservation, agentSpec) :: after) =
        built kind before ++ (reservation, agentNetwork) :: built kind after := by
  induction before with
  | nil =>
      obtain ⟨agentNetwork, hnetwork⟩ :=
        Option.isSome_iff_exists.mp (h (reservation, agentSpec) List.mem_cons_self)
      refine ⟨agentNetwork, hnetwork, ?_⟩
      simp only [List.nil_append, built, hnetwork]
  | cons entry rest ih =>
      obtain ⟨agentNetwork, hnetwork, hbuilt⟩ :=
        ih fun entry hmem => h entry (List.mem_cons_of_mem _ hmem)
      obtain ⟨first, hfirst⟩ := Option.isSome_iff_exists.mp (h entry List.mem_cons_self)
      refine ⟨agentNetwork, hnetwork, ?_⟩
      simp only [List.cons_append, built, hfirst, hbuilt]

omit [DecidableEq Name] [LinearOrder Time] in
theorem mem_ids_built (kind : NetworkKind Name Spec Network)
    {batch : List (Reservation Name Time × Spec)} {x : Name}
    (h : x ∈ (built kind batch).map fun entry => entry.1.id) :
    x ∈ batch.map fun entry => entry.1.id := by
  induction batch with
  | nil => exact h
  | cons entry rest ih =>
      cases hnetwork : kind.agentNetwork entry.2 entry.1.id with
      | none =>
          simp only [built, hnetwork] at h
          cases h
      | some agentNetwork =>
          simp only [built, hnetwork, List.map_cons] at h
          rcases List.mem_cons.mp h with rfl | hrest
          · exact List.mem_cons_self
          · exact List.mem_cons_of_mem _ (ih hrest)

/-- A batch that is built is stored and announced. -/
theorem addLocked_deploys {kind : NetworkKind Name Spec Network} (now : Time)
    (respond : Storage Name Network Time → Storage Name Network Time)
    {batch : List (Reservation Name Time × Spec)} (h : AllBuilt kind batch)
    {s s' : Site Name Spec Network Time} (htold : s'.told = s.told) :
    (s'.addLocked kind now respond batch).raised = false ∧
      Deploys kind s batch (s'.addLocked kind now respond batch) := by
  have hraised : (s'.storage.addReservationsLocked kind now batch).raised = false :=
    (addLoop_raised kind now batch _ _ _).mpr h
  have hstorage : (s'.storage.addReservationsLocked kind now batch).storage =
      s'.storage.storeAll kind now (built kind batch) := addLoop_storage kind now batch _ _ _
  have hreports := addLoop_reports kind now h s'.storage [] []
  generalize hresult : s'.storage.addReservationsLocked kind now batch = result
    at hraised hstorage
  have hresult' : Storage.addLoop kind now batch s'.storage [] [] = result := hresult
  rw [hresult'] at hreports
  unfold Site.addLocked
  simp only [hresult, hraised, Bool.false_eq_true, if_false, true_and]
  constructor
  · rintro before reservation agentSpec after rfl hlast
    obtain ⟨agentNetwork, hnetwork, hbuilt⟩ := built_append kind h
    -- the last entry of an id is the one that stays
    have hlast' : reservation.id ∉ (built kind after).map fun entry => entry.1.id :=
      fun hmem => hlast (mem_ids_built kind hmem)
    simp only [hstorage, Storage.storeAll, hbuilt, List.map_append, List.map_cons, hnetwork,
      Option.isSome_some, and_true]
    constructor
    · apply Dict.get?_update_of_last
      rw [List.map_map]
      exact hlast'
    · apply Dict.get?_update_of_last
      rw [List.map_map]
      exact hlast'
  · -- a notice for every name that was added or replaced
    have hnames : (result.added.map Notice.agentAdded ++
        result.replaced.map Notice.agentModified).map Notice.name =
          result.added ++ result.replaced := by
      rw [List.map_append, List.map_map, List.map_map]
      exact congrArg₂ _ (List.map_id _) (List.map_id _)
    rw [hnames]
    simpa using hreports
  · intro notice hmem
    rcases List.mem_append.mp hmem with hadded | hreplaced
    · obtain ⟨name, -, rfl⟩ := List.mem_map.mp hadded
      rfl
    · obtain ⟨name, -, rfl⟩ := List.mem_map.mp hreplaced
      rfl
  · unfold Site.evictLruAgentNetworks
    split
    · refine ⟨[], ?_⟩
      rw [htold, List.map_nil, List.append_nil]
    · refine ⟨(respond result.storage).lruOverflow, ?_⟩
      rw [htold]
      simp only [tell, List.map_map]
      refine List.map_congr_left fun notices _ => ?_
      simp only [Function.comp_apply, List.append_assoc]

/-- A batch that is not built leaves what was stored before the first error. -/
theorem addLocked_fails {kind : NetworkKind Name Spec Network} (now : Time)
    (respond : Storage Name Network Time → Storage Name Network Time)
    {batch : List (Reservation Name Time × Spec)} (h : ¬ AllBuilt kind batch)
    (s : Site Name Spec Network Time) :
    s.addLocked kind now respond batch =
      ⟨true, s.storage.storeAll kind now (built kind batch), [],
        { s with storage := s.storage.storeAll kind now (built kind batch) }⟩ := by
  have hraised : (s.storage.addReservationsLocked kind now batch).raised = true := by
    by_contra hfalse
    exact h ((addLoop_raised kind now batch _ _ _).mp (Bool.not_eq_true _ ▸ hfalse))
  have hstorage : (s.storage.addReservationsLocked kind now batch).storage =
      s.storage.storeAll kind now (built kind batch) := addLoop_storage kind now batch _ _ _
  unfold Site.addLocked
  simp only [hraised, if_true, hstorage]

/-- Nothing can be left half done: every network of the batch can be built, or the base
storage raises, or it holds the batch already and the networks before the first error are
stored already. -/
def Harmless (kind : NetworkKind Name Spec Network) (now : Time) (baseRaises : Bool)
    (reservationsDict : List (Reservation Name Time × Spec)) (s : Site Name Spec Network Time) :
    Prop :=
  AllBuilt kind reservationsDict ∨ (s.base.isSome ∧ baseRaises = true) ∨
    ((s.base.isSome → ∀ entry ∈ reservationsDict, s.Holds entry.1) ∧
      AlreadyStored kind now s.storage (built kind reservationsDict))

/-- The part of a deployment that follows the base storage, for a site that differs in
what the base storage holds by now. -/
theorem allOrNothing_addLocked (kind : NetworkKind Name Spec Network) (now : Time)
    (respond : Storage Name Network Time → Storage Name Network Time) (baseRaises : Bool)
    (batch : List (Reservation Name Time × Spec)) {s s' : Site Name Spec Network Time}
    (hraises : ¬ (s.base.isSome ∧ baseRaises = true)) (hstorage : s'.storage = s.storage)
    (htold : s'.told = s.told)
    (hbase : ∀ entry ∈ batch, (s'.Holds entry.1 → s.Holds entry.1) ↔
      (s.base.isSome → s.Holds entry.1)) :
    AllOrNothing kind s batch (s'.addLocked kind now respond batch) ↔
      Harmless kind now baseRaises batch s := by
  by_cases hbuilt : AllBuilt kind batch
  · obtain ⟨hraised, hdeploys⟩ := addLocked_deploys now respond hbuilt htold
    refine iff_of_true ⟨fun h => ?_, fun _ => hdeploys⟩ (.inl hbuilt)
    rw [hraised] at h
    cases h
  · rw [addLocked_fails now respond hbuilt, hstorage]
    have htables := sameTables_storeAll_iff kind now s.storage (built kind batch)
    unfold Harmless
    rw [or_iff_right hbuilt, or_iff_right hraises]
    constructor
    · rintro ⟨hrestores, -⟩
      obtain ⟨hsame, hheld, -⟩ := hrestores rfl
      refine ⟨fun hsome entry hmem => ?_, htables.mp hsame⟩
      exact (hbase entry hmem).mp (hheld entry hmem) hsome
    · rintro ⟨hheld, hstored⟩
      refine ⟨fun _ => ⟨htables.mpr hstored, fun entry hmem => ?_, htold⟩, fun h => ?_⟩
      · exact (hbase entry hmem).mpr fun hsome => hheld hsome entry hmem
      · cases h

/-- A deployment does all or nothing exactly when nothing can be left half done. -/
theorem allOrNothing_iff (kind : NetworkKind Name Spec Network) (now : Time)
    (respond : Storage Name Network Time → Storage Name Network Time) (baseRaises : Bool)
    (reservationsDict : List (Reservation Name Time × Spec)) (s : Site Name Spec Network Time) :
    AllOrNothing kind s reservationsDict
        (s.addReservations kind now respond baseRaises reservationsDict) ↔
      Harmless kind now baseRaises reservationsDict s := by
  unfold Site.addReservations
  split
  · rename_i hempty
    obtain rfl : reservationsDict = [] := List.isEmpty_iff.mp hempty
    have hbuilt : AllBuilt kind ([] : List (Reservation Name Time × Spec)) := by
      intro entry hmem
      cases hmem
    refine iff_of_true ⟨fun h => absurd h Bool.false_ne_true, fun _ => ?_⟩ (.inl hbuilt)
    constructor
    · intro before reservation agentSpec after hsplit
      simp at hsplit
    · exact .refl _
    · intro notice hmem
      cases hmem
    · exact ⟨[], by simp [tell]⟩
  cases hbase : s.base with
  | none =>
      exact allOrNothing_addLocked kind now respond baseRaises reservationsDict
        (by simp [hbase]) rfl rfl (by simp [Site.Holds, hbase])
  | some held =>
      cases baseRaises with
      | true =>
          simp only [if_true]
          refine iff_of_true ⟨fun _ => ⟨⟨rfl, rfl, rfl, rfl⟩, fun _ _ h => h, rfl⟩, ?_⟩
            (.inr (.inl ⟨by simp [hbase], rfl⟩))
          intro h
          cases h
      | false =>
          simp only [Bool.false_eq_true, if_false]
          refine allOrNothing_addLocked kind now respond false reservationsDict (by simp) rfl rfl
            fun entry hmem => ?_
          simp only [hbase, Option.isSome_some, true_implies]
          constructor
          · intro h
            exact h ⟨_, rfl, entry.2, List.mem_append_right _ hmem⟩
          · exact fun h _ => h

end Operation

/-! ## Agent networks -/

/-- `AgentNetwork` as the storage uses it. -/
def agentNetworkKind (extractorGet : Networks.ExtractorGet)
    (getDeepSize : Networks.AgentNetwork → Nat) :
    NetworkKind PyStr (List (PyStr × Json)) Networks.AgentNetwork where
  agentNetwork agentSpec agentName :=
    (Networks.AgentNetwork.new extractorGet agentSpec agentName).toOption
  getSizeInBytes := getDeepSize

/-- The specification of a network with agents of these names. -/
def specOf (names : List String) : List (PyStr × Json) :=
  [(str "tools", .arr (names.map fun name => .obj [(str "name", .str (str name))]))]

/-- A batch whose second network has two agents of one name. -/
def duplicateInSecond : List (Reservation PyStr ℕ × List (PyStr × Json)) :=
  [(⟨str "one", 100, 200⟩, specOf ["front"]),
    (⟨str "two", 100, 200⟩, specOf ["front", "front"])]

/-- The first network stays, although the deployment raises. -/
theorem duplicateInSecond_not_restored :
    let kind := agentNetworkKind Networks.dictionaryGet fun _ => 0
    let s : Site PyStr (List (PyStr × Json)) Networks.AgentNetwork ℕ := ⟨.empty, none, [[]]⟩
    ¬ AllOrNothing kind s duplicateInSecond
      (s.addReservations kind 100 id false duplicateInSecond) := by
  intro kind s h
  obtain ⟨hsame, -⟩ := h.1 rfl
  have hkeys := congrArg Dict.keys hsame.agentsTable
  cases hkeys

end NoraFleet.TempNetworks
