import Mathlib
import NoraFleet.Manifests.Restoring
import NoraFleet.Watcher.RegistryChanges

/-!
# Reloading manifests while files change

A restoration reads one manifest after the other, and the networks of each before it reads the next.
Files may change in between. How the bytes of a file become a manifest or a network is a parameter,
and so are the other files that this takes.

* `run_restoreManifests` — of files that stay as they are, this is the restoration of manifests;
* `changes_served` — in the end the storages have what the files say.
-/

namespace NoraFleet.Watcher

open Base HttpServer Manifests Relation

/-- What reads files. -/
structure RegistryReader (Content Network : Type*) where
  -- `RawManifestRestorer().restore(file_reference=manifest_file)`
  rawManifest : PyStr → Reading PyStr (Option Content) (Except PyError Members)
  -- `restore_one_agent_network(..)` and `process_one_agent_network(..)`, with the keys of the
  -- manifest for the names of external networks
  agentNetwork : PyStr → List PyStr → PyStr → Members →
    Reading PyStr (Option Content) (Option Network)

/-- The manifests, the networks that they may ever have, and all that these take, are such files. -/
structure RegistryReader.Within {Content Network : Type*} (isValid : Json → Bool)
    (reader : RegistryReader Content Network) (places : Set PyStr) (manifestFiles : List PyStr) :
    Prop where
  rawManifest : ∀ manifestFile ∈ manifestFiles, (reader.rawManifest manifestFile).Within places
  agentNetwork : ∀ manifestFile ∈ manifestFiles, (reader.rawManifest manifestFile).All
    fun rawManifest => ∀ entries, rawManifest.bind (filterManifest isValid) = .ok entries →
      ∀ entry ∈ entries, (reader.agentNetwork manifestFile (entries.map Prod.fst) entry.1
        entry.2).Within places

variable {Content Name Network : Type*} [DecidableEq Name]

section Restoring

variable (isValid : Json → Bool) (networkName : PyStr → Name)
  (reader : RegistryReader Content Network)

omit [DecidableEq Name] in
/-- `read_one_agent_network(manifest_key, manifest_dict)`. -/
def lookAtOneAgentNetwork (manifestFile : PyStr) (keys : List PyStr) (entry : PyStr × Members) :
    Reading PyStr (Option Content) (Option Network) :=
  if serves entry.2 then reader.agentNetwork manifestFile keys entry.1 entry.2 else .done none

/-- The entries of a filtered manifest. -/
def lookAtAll (manifestFile : PyStr) (keys : List PyStr) :
    List (PyStr × Members) → Restoring Name Network →
      Reading PyStr (Option Content) (Restoring Name Network)
  | [], restoring => .done restoring
  | entry :: rest, restoring =>
      (lookAtOneAgentNetwork reader manifestFile keys entry).bind fun agentNetwork =>
        lookAtAll manifestFile keys rest
          (maybeStoreAgentNetwork agentNetwork (networkName entry.1) entry.2 restoring)

/-- The loop over the manifests. -/
def restoreManifests : List PyStr → Restoring Name Network →
    Reading PyStr (Option Content) (Except PyError (Restoring Name Network))
  | [], restoring => .done (.ok restoring)
  | manifestFile :: rest, restoring =>
      (reader.rawManifest manifestFile).bind fun rawManifest =>
        match rawManifest.bind (filterManifest isValid) with
        | .error e => .done (.error e)
        | .ok oneManifest =>
            (lookAtAll networkName reader manifestFile (oneManifest.map Prod.fst) oneManifest
              ⟨⟨.empty, .empty⟩, restoring.periodicConfigs⟩).bind fun one =>
                restoreManifests rest
                  ⟨restoring.agentNetworks.overlay one.agentNetworks, one.periodicConfigs⟩

/-- The networks of one class that are left when `None` is taken away. -/
def servedNetworks (networks : Dict Name (Option Network)) : Dict Name Network where
  items := (filterServed false Option.isNone networks.items).filterMap fun entry =>
    entry.2.map fun network => (entry.1, network)
  nodup := by
    have hkeys : ∀ items : List (Name × Option Network), ((items.filterMap fun entry =>
        entry.2.map fun network => (entry.1, network)).map Prod.fst).Sublist
          (items.map Prod.fst) := by
      intro items
      induction items with
      | nil => exact .slnil
      | cons entry rest ih =>
          rcases entry with ⟨name, _ | network⟩
          · exact ih.cons name
          · exact ih.cons_cons name
    exact networks.nodup.sublist ((hkeys _).trans (List.filter_sublist.map Prod.fst))

/-- What is set up, with the orders in which sets of names are iterated. -/
def restoredNetworks (removalOrder additionOrder : StorageClass → HttpServer.SetOrder Name)
    (restoring : Restoring Name Network) : RestoredNetworks Name Network where
  networks
    | .publicNetworks => servedNetworks restoring.agentNetworks.publicNetworks
    | .protectedNetworks => servedNetworks restoring.agentNetworks.protectedNetworks
    | .tempNetworks => .empty
  removalOrder := removalOrder
  additionOrder := additionOrder

/-- `restore_from_files(file_references)`. Without files there is nothing to set up, and that
raises. -/
def restoreRegistry (removalOrder additionOrder : StorageClass → HttpServer.SetOrder Name)
    (manifestFiles : List PyStr) : Restoration Content Name Network :=
  (restoreManifests isValid networkName reader manifestFiles ⟨⟨.empty, .empty⟩, .empty⟩).bind
    fun restoring => .done (if manifestFiles.isEmpty then .error .attributeError
      else restoring.map (restoredNetworks removalOrder additionOrder))

/-! ## Where a restoration looks -/

variable {networkName reader}

theorem lookAtAll_within {places : Set PyStr} {manifestFile : PyStr} {keys : List PyStr}
    (entries : List (PyStr × Members)) (h : ∀ entry ∈ entries,
      (reader.agentNetwork manifestFile keys entry.1 entry.2).Within places)
    (restoring : Restoring Name Network) :
    (lookAtAll networkName reader manifestFile keys entries restoring).Within places := by
  induction entries generalizing restoring with
  | nil => trivial
  | cons entry rest ih =>
      refine Reading.Within.bind ?_ fun agentNetwork =>
        ih (fun other hother => h other (List.mem_cons_of_mem _ hother)) _
      unfold lookAtOneAgentNetwork
      split
      · exact h entry List.mem_cons_self
      · trivial

theorem restoreManifests_within {places : Set PyStr} {manifestFiles : List PyStr}
    (hreader : reader.Within isValid places manifestFiles) (rest : List PyStr)
    (hrest : rest ⊆ manifestFiles)
    (restoring : Restoring Name Network) :
    (restoreManifests isValid networkName reader rest restoring).Within places := by
  induction rest generalizing restoring with
  | nil => trivial
  | cons manifestFile rest ih =>
      have hmem := hrest List.mem_cons_self
      refine (hreader.rawManifest manifestFile hmem).bind_of_all
        (hreader.agentNetwork manifestFile hmem) fun rawManifest hentries => ?_
      cases hfiltered : rawManifest.bind (filterManifest isValid) with
      | error e => trivial
      | ok oneManifest =>
          refine (lookAtAll_within oneManifest (hentries oneManifest hfiltered) _).bind
            fun one => ih ?_ _
          exact fun file hfile => hrest (List.mem_cons_of_mem _ hfile)

theorem restoreRegistry_within {places : Set PyStr} {manifestFiles : List PyStr}
    (hreader : reader.Within isValid places manifestFiles)
    (removalOrder additionOrder : StorageClass → HttpServer.SetOrder Name) :
    (restoreRegistry isValid networkName reader removalOrder additionOrder manifestFiles).Within
      places :=
  (restoreManifests_within isValid hreader manifestFiles (List.Subset.refl _) _).bind
    fun _ => trivial

/-! ## Files that stay as they are -/

theorem run_lookAtAll {store : PyStr → Option Content} {manifestFile : PyStr}
    {readNetwork : PyStr → Network}
    (hnetworks : ∀ keys manifestKey manifestDict,
      (reader.agentNetwork manifestFile keys manifestKey manifestDict).run store =
        some (readNetwork manifestKey))
    (keys : List PyStr) (entries : List (PyStr × Members)) (restoring : Restoring Name Network) :
    (lookAtAll networkName reader manifestFile keys entries restoring).run store =
      storeAll networkName readNetwork entries restoring := by
  induction entries generalizing restoring with
  | nil => rfl
  | cons entry rest ih =>
      have hone : (lookAtOneAgentNetwork reader manifestFile keys entry).run store =
          readOneAgentNetwork readNetwork entry.1 entry.2 := by
        unfold lookAtOneAgentNetwork readOneAgentNetwork
        split
        · exact hnetworks keys entry.1 entry.2
        · rfl
      unfold lookAtAll
      rw [Reading.run_bind, hone, ih]
      rfl

/-- Of files that stay as they are, with networks that can all be read, this is the restoration of
the manifests that the files have. -/
theorem run_restoreManifests {store : PyStr → Option Content} (manifest : PyStr → Members)
    (readNetwork : PyStr → PyStr → Network)
    (hmanifests : ∀ manifestFile, (reader.rawManifest manifestFile).run store =
      .ok (manifest manifestFile))
    (hnetworks : ∀ manifestFile keys manifestKey manifestDict,
      (reader.agentNetwork manifestFile keys manifestKey manifestDict).run store =
        some (readNetwork manifestFile manifestKey))
    (manifestFiles : List PyStr) (restoring : Restoring Name Network) :
    (restoreManifests isValid networkName reader manifestFiles restoring).run store =
      restoreAll isValid networkName (manifestFiles.map fun manifestFile =>
        ⟨manifest manifestFile, readNetwork manifestFile⟩) restoring := by
  induction manifestFiles generalizing restoring with
  | nil => rfl
  | cons manifestFile rest ih =>
      have hraw : (Except.ok (manifest manifestFile)).bind (filterManifest isValid) =
          filterManifest isValid (manifest manifestFile) := rfl
      unfold restoreManifests
      rw [Reading.run_bind, hmanifests, List.map_cons, hraw]
      unfold restoreAll restoreOneManifest
      dsimp only
      cases filterManifest isValid (manifest manifestFile) with
      | error e => rfl
      | ok oneManifest =>
          dsimp only [Except.map]
          rw [Reading.run_bind, run_lookAtAll (hnetworks manifestFile), ih]

/-- **Changes come to be served.** Whatever happens to the manifests and the files of the
networks, and when: while the watcher thread sleeps and nothing is left to notice, the
permanent storages have what the files say; from wherever the thread has not stopped, it
comes to that if no file changes any more, unless a restoration raises; once it has
stopped, the storages stay as they are for good. -/
theorem changes_served {elusive : Set PyStr} {manifestFiles : List PyStr}
    (hreader : reader.Within isValid (watched elusive) manifestFiles)
    {removalOrder additionOrder : StorageClass → HttpServer.SetOrder Name}
    {restore : Restoration Content Name Network} (hrestore : restore =
      restoreRegistry isValid networkName reader removalOrder additionOrder manifestFiles)
    {start w : RegistryWatch Content Name Network} (hstart : Started restore start)
    (hrun : ReflTransGen (WatchStep restore elusive) start w) :
    (w.thread = .sleeping → ¬ Due (watched elusive) w → UpToDate restore w) ∧
    ((∀ e, w.thread ≠ .stopped e) → ∃ later, ReflTransGen (NoticeStep restore elusive) w later ∧
      later.files = w.files ∧ ((Settled later ∧ UpToDate restore later) ∨
        ∃ e, later.thread = .stopped e ∧ (restore.run w.contents = .error e ∨
          ∃ rest, w.thread = .restoring rest ∧ rest.run w.contents = .error e))) ∧
    ∀ e, w.thread = .stopped e → ∀ later, ReflTransGen (WatchStep restore elusive) w later →
      later.thread = .stopped e ∧ later.storages = w.storages := by
  subst hrestore
  exact changes_noticed (restoreRegistry_within isValid hreader removalOrder additionOrder) hstart
    hrun

end Restoring

/-! ## A manifest with one network -/

/-- The manifest has an entry if there is a file; a network is what its file has. -/
def oneReader : RegistryReader Nat Nat where
  rawManifest manifestFile := .look manifestFile fun content =>
    .done (.ok (content.elim [] fun _ => [(str "a.hocon", .bool true)]))
  agentNetwork _ _ manifestKey _ := .look manifestKey fun content => .done content

theorem oneReader_within : oneReader.Within (fun _ => true) (watched ∅) [str "m.hocon"] where
  rawManifest manifestFile hmem := by
    obtain rfl := List.mem_singleton.mp hmem
    exact ⟨⟨by decide, fun h => h⟩, fun content => trivial⟩
  agentNetwork manifestFile hmem content entries hentries entry hentry := by
    have hkey : entry.1 = str "a.hocon" := by
      cases content with
      | none =>
          obtain rfl := Except.ok.inj hentries
          cases hentry
      | some n =>
          obtain rfl := Except.ok.inj hentries
          have hkeys : entry.1 ∈ [str "a.hocon"] := List.mem_map_of_mem hentry
          exact List.mem_singleton.mp hkeys
    show entry.1 ∈ watched ∅ ∧ _
    rw [hkey]
    exact ⟨⟨by decide, fun h => h⟩, fun content => trivial⟩

/-- The same order as the networks have. -/
def sameOrder (_ : StorageClass) : HttpServer.SetOrder PyStr := ⟨id, List.Perm.refl⟩

/-- The restoration of that manifest. -/
def restoreOne : Restoration Nat PyStr Nat :=
  restoreRegistry (fun _ => true) id oneReader sameOrder sameOrder [str "m.hocon"]

/-- What it gives while the network's file has 7 in it. -/
def restoredOne : RestoredNetworks PyStr Nat :=
  restoredNetworks sameOrder sameOrder
    ⟨⟨Dict.empty.set (str "a.hocon") (some 7), .empty⟩, .empty⟩

/-- A server that has started with these files. -/
def startedOne : RegistryWatch Nat PyStr Nat where
  files path :=
    if path = str "m.hocon" then some (0, 0)
    else if path = str "a.hocon" then some (0, 7) else none
  now := 1
  seen path :=
    if path = str "m.hocon" then some (0, 0)
    else if path = str "a.hocon" then some (0, 7) else none
  events := []
  counters := .zero
  storages := (Registry.empty.setupAgentNetworks (restoredOne.get .publicNetworks)
    .publicNetworks).setupAgentNetworks (restoredOne.get .protectedNetworks) .protectedNetworks
  thread := .sleeping

theorem startedOne_started : Started restoreOne startedOne where
  sleeping := rfl
  seen _ := rfl
  events := rfl
  counters := rfl
  upToDate := by
    have hrestored : restoreOne.run startedOne.contents = .ok restoredOne := rfl
    refine ⟨restoredOne, hrestored, fun storageClass hin => ?_⟩
    have hpublic := serves_setupAgentNetworks Registry.empty restoredOne .publicNetworks
    have hother : StorageClass.publicNetworks ≠ .protectedNetworks := by decide
    rcases List.mem_cons.mp hin with rfl | hrest
    · exact hpublic.setupAgentNetworks hother
    · obtain rfl := List.mem_singleton.mp hrest
      exact serves_setupAgentNetworks (Registry.empty.setupAgentNetworks
        (restoredOne.get .publicNetworks) .publicNetworks) restoredOne .protectedNetworks
  stamps path file hfile := by
    unfold startedOne at hfile ⊢
    dsimp only at hfile ⊢
    split at hfile
    · obtain rfl := Option.some.inj hfile
      exact Nat.one_pos
    · split at hfile
      · obtain rfl := Option.some.inj hfile
        exact Nat.one_pos
      · cases hfile

/-- The network's file has changed. -/
def changedOne : RegistryWatch Nat PyStr Nat :=
  { startedOne with
    files := Function.update startedOne.files (str "a.hocon") (some (1, 8))
    now := 2 }

theorem changes_served_changedOne :
    ∃ later, ReflTransGen (NoticeStep restoreOne ∅) changedOne later ∧
      later.files = changedOne.files ∧ ((Settled later ∧ UpToDate restoreOne later) ∨
        ∃ e, later.thread = .stopped e ∧ (restoreOne.run changedOne.contents = .error e ∨
          ∃ rest, changedOne.thread = .restoring rest ∧
            rest.run changedOne.contents = .error e)) :=
  (changes_served (fun _ => true) oneReader_within rfl startedOne_started
    (.single (.write startedOne (str "a.hocon") 8))).2.1 fun e h => by cases h

end NoraFleet.Watcher
