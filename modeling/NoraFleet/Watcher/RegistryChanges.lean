import Mathlib
import NoraFleet.Base.Flow
import NoraFleet.Base.Readings
import NoraFleet.Base.Text
import NoraFleet.HttpServer.ServedNames

/-!
# Changes in the registries

An observer looks at the files next to the manifests and queues an event for every file
that is not as it last saw it; a handler counts the events of `.hocon` and `.json` files.
From time to time the watcher thread takes the counts, and if there are any it restores
the manifests and sets the storages up anew. Files change all the while, also between two
files that one restoration reads.

The observer tells files apart by their stamps, and a write gives a new one. There are two ways past
it, and files that may take them are *elusive*: a file that is moved has an event that no handler
counts, and a file that comes and goes between two looks has none.

* `changes_noticed` — the storages have what the files say as soon as nothing is left to notice, and
  unless a restoration raises, it always comes to that;
* `moved_unnoticed` — a file that is moved stays unnoticed.
-/

namespace NoraFleet.Watcher

open Base HttpServer Relation

/-! ## The handler -/

inductive EventKind where
  | modified
  | created
  | deleted
  | moved
  deriving DecidableEq

structure FileEvent where
  kind : EventKind
  srcPath : PyStr

/-- `event_counters`. -/
structure EventCounters where
  modified : Nat
  created : Nat
  deleted : Nat
  deriving DecidableEq

namespace EventCounters

def zero : EventCounters := ⟨0, 0, 0⟩

end EventCounters

/-- `filter_src_name(src_name)`. -/
def filterSrcName (srcName : PyStr) : Bool :=
  if srcName.isEmpty then false
  else if (str ".hocon").isSuffixOf srcName || (str ".json").isSuffixOf srcName then true
  else false

/-- `on_modified`, `on_created`, `on_deleted` and their `handle_event(event_name, src_path)`. -/
def handleEvent (counters : EventCounters) (event : FileEvent) : EventCounters :=
  if filterSrcName event.srcPath then
    match event.kind with
    | .modified => { counters with modified := counters.modified + 1 }
    | .created => { counters with created := counters.created + 1 }
    | .deleted => { counters with deleted := counters.deleted + 1 }
    -- the handler has no `on_moved`
    | .moved => counters
  else counters

/-- `reset_event_counters()`: what it returns, and the new counters. -/
def resetEventCounters (counters : EventCounters) : (Nat × Nat × Nat) × EventCounters :=
  ((counters.modified, counters.created, counters.deleted), .zero)

/-! ## The watcher -/

/-- What a restoration gives: the networks of every storage class. The orders are those in which
sets of names are iterated. -/
structure RestoredNetworks (Name Network : Type*) where
  networks : StorageClass → Dict Name Network
  removalOrder : StorageClass → HttpServer.SetOrder Name
  additionOrder : StorageClass → HttpServer.SetOrder Name

/-- `agent_networks.get(storage_class)`. -/
def RestoredNetworks.get {Name Network : Type*} (restored : RestoredNetworks Name Network)
    (storageClass : StorageClass) : Manifest Name Network where
  networks := Function.update (fun _ => .empty) storageClass (restored.networks storageClass)
  disjoint := by
    intro name hpublic hprotected
    by_cases hclass : storageClass = .publicNetworks
    · rw [hclass, Function.update_of_ne (by decide)] at hprotected
      exact Dict.not_mem_empty name hprotected
    · rw [Function.update_of_ne (Ne.symm hclass)] at hpublic
      exact Dict.not_mem_empty name hpublic
  removalOrder := restored.removalOrder
  additionOrder := restored.additionOrder

/-- `RegistryManifestRestorer(manifest_path).restore()`, in an order in which it may read files. -/
abbrev Restoration (Content Name Network : Type*) :=
  Reading PyStr (Option Content) (Except PyError (RestoredNetworks Name Network))

/-- Where `_run` stands. -/
inductive WatcherThread (Content Name Network : Type*) where
  | sleeping
  | restoring (rest : Restoration Content Name Network)
  -- `for storage_class in StorageClass.ALL_PERMANENT`
  | settingUp (restored : RestoredNetworks Name Network) (storageClasses : List StorageClass)
  -- nothing catches what a restoration raises
  | stopped (e : PyError)

/-- The files with their stamps, what the observer saw of them, the events that were not
handled yet, and the server. -/
structure RegistryWatch (Content Name Network : Type*) where
  files : PyStr → Option (Nat × Content)
  now : Nat
  seen : PyStr → Option (Nat × Content)
  events : List FileEvent
  counters : EventCounters
  storages : Registry Name Network
  thread : WatcherThread Content Name Network

variable {Content Name Network : Type*}

/-- What a file has in it. -/
def RegistryWatch.contents (w : RegistryWatch Content Name Network) (path : PyStr) :
    Option Content :=
  (w.files path).map Prod.snd

theorem contents_congr {w w' : RegistryWatch Content Name Network}
    (h : w'.files = w.files) : w'.contents = w.contents := by
  unfold RegistryWatch.contents
  rw [h]

/-- The event of a file that is not as it was. -/
def eventKind (seen file : Option (Nat × Content)) : EventKind :=
  if seen.isNone then .created else if file.isNone then .deleted else .modified

/-! ## What there is to notice -/

/-- A handler counts the event. -/
def FileEvent.Counted (event : FileEvent) : Prop :=
  filterSrcName event.srcPath = true ∧ event.kind ≠ .moved

/-- The files whose changes are counted. -/
def watched (elusive : Set PyStr) : Set PyStr :=
  { path | filterSrcName path = true ∧ path ∉ elusive }

/-- Any order in which a restoration may read its files: what it gives is the same of
files that stay as they are. -/
def Restores (restore : Restoration Content Name Network) (elusive : Set PyStr)
    (rest : Restoration Content Name Network) : Prop :=
  rest.Within (watched elusive) ∧ ∀ store, rest.run store = restore.run store

/-- A change was not noticed yet: it was not seen, or its event was not handled, or the thread has
not taken the counts. -/
def Due (places : Set PyStr) (w : RegistryWatch Content Name Network) : Prop :=
  (∃ path ∈ places, w.files path ≠ w.seen path) ∨ (∃ event ∈ w.events, event.Counted) ∨
    w.counters ≠ .zero

/-- Nothing is left to do. -/
structure Settled (w : RegistryWatch Content Name Network) : Prop where
  sleeping : w.thread = .sleeping
  seen : ∀ path, w.files path = w.seen path
  events : w.events = []
  counters : w.counters = .zero

theorem Settled.not_due {w : RegistryWatch Content Name Network} (h : Settled w)
    (places : Set PyStr) : ¬ Due places w := by
  rintro (⟨path, -, hne⟩ | ⟨event, hmem, -⟩ | hcounters)
  · exact hne (h.seen path)
  · rw [h.events] at hmem
    cases hmem
  · exact hcounters h.counters

/-! ## Steps -/

variable [DecidableEq Name]

/-- One step of `_run` and `update_storage()`. -/
def threadStep (restore : Restoration Content Name Network)
    (w : RegistryWatch Content Name Network) : Option (RegistryWatch Content Name Network) :=
  match w.thread with
  | .sleeping =>
      let ((modified, added, deleted), counters) := resetEventCounters w.counters
      if modified = added ∧ added = deleted ∧ deleted = 0 then some { w with counters := counters }
      else some { w with counters := counters, thread := .restoring restore }
  | .restoring (.look path next) => some { w with thread := .restoring (next (w.contents path)) }
  | .restoring (.done (.ok restored)) =>
      some { w with thread := .settingUp restored Registry.allPermanent }
  | .restoring (.done (.error e)) => some { w with thread := .stopped e }
  | .settingUp restored (storageClass :: rest) =>
      some { w with
        storages := w.storages.setupAgentNetworks (restored.get storageClass) storageClass
        thread := .settingUp restored rest }
  | .settingUp _ [] => some { w with thread := .sleeping }
  | .stopped _ => none

section Steps

variable (restore : Restoration Content Name Network) (elusive : Set PyStr)

/-- A step of the observer, of its handler or of the thread. -/
inductive NoticeStep : RegistryWatch Content Name Network →
    RegistryWatch Content Name Network → Prop
  | look (w : RegistryWatch Content Name Network) (path : PyStr) (kind : EventKind)
      (hnew : w.files path ≠ w.seen path)
      (hkind : kind = eventKind (w.seen path) (w.files path) ∨ path ∈ elusive ∧ kind = .moved) :
      NoticeStep w { w with
        seen := Function.update w.seen path (w.files path)
        events := w.events ++ [⟨kind, path⟩] }
  -- events of folders, or of a file once more
  | other (w : RegistryWatch Content Name Network) (event : FileEvent) :
      NoticeStep w { w with events := w.events ++ [event] }
  | handle (w : RegistryWatch Content Name Network) (earlier later : List FileEvent)
      (event : FileEvent) (h : w.events = earlier ++ event :: later) :
      NoticeStep w { w with
        events := earlier ++ later
        counters := handleEvent w.counters event }
  | thread {w w' : RegistryWatch Content Name Network} (reading : Restoration Content Name Network)
      (hreading : Restores restore elusive reading) (h : threadStep reading w = some w') :
      NoticeStep w w'

/-- Any step: a file may change, too. -/
inductive WatchStep : RegistryWatch Content Name Network → RegistryWatch Content Name Network → Prop
  | write (w : RegistryWatch Content Name Network) (path : PyStr) (content : Content) :
      WatchStep w { w with
        files := Function.update w.files path (some (w.now, content))
        now := w.now + 1 }
  | delete (w : RegistryWatch Content Name Network) (path : PyStr)
      (h : path ∈ elusive ∨ w.seen path ≠ none) :
      WatchStep w { w with files := Function.update w.files path none }
  | notice {w w' : RegistryWatch Content Name Network} (h : NoticeStep restore elusive w w') :
      WatchStep w w'

end Steps

/-! ## What the storages have -/

/-- A storage has the networks that were restored. -/
def Serves (storages : Registry Name Network) (restored : RestoredNetworks Name Network)
    (storageClass : StorageClass) : Prop :=
  ∀ name, (storages.agentsTable storageClass).get? name =
    (restored.networks storageClass).get? name

/-- The permanent storages have what the files say. -/
def UpToDate (restore : Restoration Content Name Network)
    (w : RegistryWatch Content Name Network) : Prop :=
  ∃ restored, restore.run w.contents = .ok restored ∧
    ∀ storageClass ∈ Registry.allPermanent, Serves w.storages restored storageClass

/-- The server has started: its storages are set up, and the observer has looked at all files. -/
structure Started (restore : Restoration Content Name Network)
    (w : RegistryWatch Content Name Network) : Prop extends Settled w where
  upToDate : UpToDate restore w
  stamps : ∀ path file, w.files path = some file → file.1 < w.now

/-! ## The handler counts -/

theorem handleEvent_of_counted {event : FileEvent} (h : event.Counted) (counters : EventCounters) :
    handleEvent counters event ≠ .zero := by
  obtain ⟨hfilter, hkind⟩ := h
  unfold handleEvent
  rw [if_pos hfilter]
  intro hzero
  cases hevent : event.kind with
  | modified =>
      rw [hevent] at hzero
      exact Nat.succ_ne_zero _ (congrArg EventCounters.modified hzero)
  | created =>
      rw [hevent] at hzero
      exact Nat.succ_ne_zero _ (congrArg EventCounters.created hzero)
  | deleted =>
      rw [hevent] at hzero
      exact Nat.succ_ne_zero _ (congrArg EventCounters.deleted hzero)
  | moved => exact hkind hevent

theorem handleEvent_ne_zero {counters : EventCounters} (h : counters ≠ .zero) (event : FileEvent) :
    handleEvent counters event ≠ .zero := by
  by_cases hcounted : event.Counted
  · exact handleEvent_of_counted hcounted counters
  · have hsame : handleEvent counters event = counters := by
      unfold handleEvent
      by_cases hfilter : filterSrcName event.srcPath = true
      · have hkind : event.kind = .moved := by
          by_contra hne
          exact hcounted ⟨hfilter, hne⟩
        rw [if_pos hfilter, hkind]
      · rw [if_neg hfilter]
    rwa [hsame]

theorem handleEvent_moved (counters : EventCounters) (path : PyStr) :
    handleEvent counters ⟨.moved, path⟩ = counters := by
  unfold handleEvent
  split <;> rfl

theorem eventKind_ne_moved (seen file : Option (Nat × Content)) : eventKind seen file ≠ .moved := by
  unfold eventKind
  split
  · intro h
    cases h
  · split <;> intro h <;> cases h

/-! ## The storages -/

/-- Additions: every name has its network. -/
theorem get?_addAll (storageClass : StorageClass) (agentNetworks : Dict Name Network)
    (r : Registry Name Network) (names : List Name) (name : Name) :
    ((r.addAll storageClass agentNetworks names).agentsTable storageClass).get? name =
      if name ∈ names ∧ name ∈ agentNetworks then agentNetworks.get? name
      else (r.agentsTable storageClass).get? name := by
  induction names generalizing r with
  | nil =>
      rw [if_neg (by simp)]
      rfl
  | cons agentName rest ih =>
      unfold Registry.addAll at ih ⊢
      rw [List.foldl_cons, ih]
      by_cases hlater : name ∈ rest ∧ name ∈ agentNetworks
      · rw [if_pos hlater, if_pos ⟨List.mem_cons_of_mem _ hlater.1, hlater.2⟩]
      · rw [if_neg hlater]
        cases hget : agentNetworks.get? agentName with
        | none =>
            have habsent : agentName ∉ agentNetworks := by
              intro hmem
              obtain ⟨network, hsome⟩ := Dict.exists_get?_of_mem hmem
              rw [hget] at hsome
              cases hsome
            rw [if_neg]
            rintro ⟨hmem, hin⟩
            rcases List.mem_cons.mp hmem with rfl | hrest
            · exact habsent hin
            · exact hlater ⟨hrest, hin⟩
        | some network =>
            show (Function.update r.agentsTable storageClass _ storageClass).get? name = _
            rw [Function.update_self, Dict.get?_set]
            by_cases hname : name = agentName
            · subst hname
              rw [if_pos rfl, if_pos ⟨List.mem_cons_self, Dict.mem_of_get?_eq_some hget⟩, hget]
            · rw [if_neg hname, if_neg]
              rintro ⟨hmem, hin⟩
              rcases List.mem_cons.mp hmem with heq | hrest
              · exact hname heq
              · exact hlater ⟨hrest, hin⟩

/-- `setup_agent_networks` leaves a storage with the networks of the manifest. -/
theorem get?_setupAgentNetworks (r : Registry Name Network) (manifest : Manifest Name Network)
    (storageClass : StorageClass) (name : Name) :
    ((r.setupAgentNetworks manifest storageClass).agentsTable storageClass).get? name =
      (manifest.networks storageClass).get? name := by
  unfold Registry.setupAgentNetworks
  dsimp only
  rw [get?_addAll]
  by_cases hmem : name ∈ manifest.networks storageClass
  · rw [if_pos ⟨((manifest.additionOrder storageClass).perm _).mem_iff.mpr
      (Dict.mem_iff_keys.mp hmem), hmem⟩]
  · rw [if_neg fun h => hmem h.2]
    have hnone : (manifest.networks storageClass).get? name = none := by
      cases hget : (manifest.networks storageClass).get? name with
      | none => rfl
      | some network => exact absurd (Dict.mem_of_get?_eq_some hget) hmem
    rw [hnone]
    -- the name is taken away, or it was not there
    cases hget : (((manifest.removalOrder storageClass).order
      ((r.agentsTable storageClass).keys.filter fun agentName =>
        agentName ∉ (manifest.networks storageClass).keys)).foldl
      (Registry.removeAgentNetwork storageClass) r |>.agentsTable storageClass).get? name with
    | none => rfl
    | some network =>
        obtain ⟨hkept, hold⟩ := ((Registry.removeAll_spec storageClass r _).1 name).mp
          (Dict.mem_of_get?_eq_some hget)
        refine absurd ?_ hkept
        rw [((manifest.removalOrder storageClass).perm _).mem_iff, List.mem_filter]
        exact ⟨Dict.mem_iff_keys.mp hold, by simpa [Dict.mem_iff_keys] using hmem⟩

/-- The same of what is restored. -/
theorem serves_setupAgentNetworks (r : Registry Name Network)
    (restored : RestoredNetworks Name Network) (storageClass : StorageClass) :
    Serves (r.setupAgentNetworks (restored.get storageClass) storageClass) restored
      storageClass := by
  intro name
  rw [get?_setupAgentNetworks]
  unfold RestoredNetworks.get
  dsimp only
  rw [Function.update_self]

/-- The other storages stay as they are. -/
theorem Serves.setupAgentNetworks {r : Registry Name Network}
    {restored : RestoredNetworks Name Network}
    {storageClass other : StorageClass} (h : Serves r restored storageClass)
    (hne : storageClass ≠ other) :
    Serves (r.setupAgentNetworks (restored.get other) other) restored storageClass := by
  intro name
  rw [(Registry.mem_setupAgentNetworks (restored.get other) r other).2.1 storageClass hne]
  exact h name

/-! ## The invariant -/

/-- What the thread has done so far is right for the files as they are. -/
def Current (restore : Restoration Content Name Network) (w : RegistryWatch Content Name Network) :
    Prop :=
  match w.thread with
  | .sleeping => UpToDate restore w
  | .restoring rest => rest.run w.contents = restore.run w.contents
  | .settingUp restored storageClasses => restore.run w.contents = .ok restored ∧
      ∀ storageClass ∈ Registry.allPermanent, storageClass ∉ storageClasses →
        Serves w.storages restored storageClass
  | .stopped e => restore.run w.contents = .error e

/-- Either there is something left to notice, or the thread is right. -/
structure Tracks (restore : Restoration Content Name Network) (elusive : Set PyStr)
    (w : RegistryWatch Content Name Network) : Prop where
  stamps : ∀ path file, w.files path = some file ∨ w.seen path = some file → file.1 < w.now
  unseen : { path | w.files path ≠ w.seen path }.Finite
  within : ∀ rest, w.thread = .restoring rest → rest.Within (watched elusive)
  current : Due (watched elusive) w ∨ Current restore w

variable {restore : Restoration Content Name Network} {elusive : Set PyStr}
  {w w' : RegistryWatch Content Name Network}

theorem Started.tracks (elusive : Set PyStr) (h : Started restore w) :
    Tracks restore elusive w where
  stamps := by
    intro path file hfile
    rcases hfile with hfile | hfile
    · exact h.stamps path file hfile
    · exact h.stamps path file ((h.seen path).trans hfile)
  unseen := by
    have hnone : { path | w.files path ≠ w.seen path } = ∅ :=
      Set.eq_empty_of_forall_notMem fun path hne => hne (h.seen path)
    rw [hnone]
    exact Set.finite_empty
  within rest hrest := by
    rw [h.sleeping] at hrest
    cases hrest
  current := by
    right
    unfold Current
    rw [h.sleeping]
    exact h.upToDate

/-- Files that no restoration reads do not matter. -/
theorem Current.of_contents (hrestore : restore.Within (watched elusive))
    (hwithin : ∀ rest, w.thread = .restoring rest → rest.Within (watched elusive))
    (h : Current restore w) (hthread : w'.thread = w.thread) (hstorages : w'.storages = w.storages)
    (hsame : ∀ path ∈ watched elusive, w'.contents path = w.contents path) :
    Current restore w' := by
  have hrun : restore.run w'.contents = restore.run w.contents :=
    Reading.run_congr hrestore hsame
  unfold Current UpToDate at *
  rw [hthread, hstorages, hrun]
  cases hw : w.thread with
  | restoring rest =>
      rw [hw] at h
      show rest.run w'.contents = restore.run w.contents
      rw [Reading.run_congr (hwithin rest hw) hsame]
      exact h
  | sleeping =>
      rw [hw] at h
      exact h
  | settingUp restored storageClasses =>
      rw [hw] at h
      exact h
  | stopped e =>
      rw [hw] at h
      exact h

/-- A change of a file, whatever it is. -/
theorem Tracks.change (hrestore : restore.Within (watched elusive)) (h : Tracks restore elusive w)
    (path : PyStr) (file : Option (Nat × Content)) (now : Nat) (hnow : w.now ≤ now)
    (hstamp : ∀ f, file = some f → f.1 < now) (hnew : path ∉ elusive → file ≠ w.seen path) :
    Tracks restore elusive
      { w with files := Function.update w.files path file, now := now } where
  stamps := by
    intro other f hf
    dsimp only at hf ⊢
    rcases hf with hf | hf
    · by_cases hother : other = path
      · subst hother
        rw [Function.update_self] at hf
        exact hstamp f hf
      · rw [Function.update_of_ne hother] at hf
        have hlt := h.stamps other f (.inl hf)
        omega
    · have hlt := h.stamps other f (.inr hf)
      omega
  unseen := by
    refine (h.unseen.insert path).subset fun other hother => ?_
    by_cases heq : other = path
    · exact .inl heq
    · refine .inr ?_
      have hne : Function.update w.files path file other ≠ w.seen other := hother
      rwa [Function.update_of_ne heq] at hne
  within := h.within
  current := by
    by_cases hpath : path ∈ watched elusive
    · refine .inl (.inl ⟨path, hpath, ?_⟩)
      dsimp only
      rw [Function.update_self]
      exact hnew hpath.2
    · -- a change that is not watched is not read by a restoration
      have hsame : ∀ other ∈ watched elusive,
          Function.update w.files path file other = w.files other := by
        intro other hother
        refine Function.update_of_ne ?_ _ _
        rintro rfl
        exact hpath hother
      rcases h.current with hdue | hcurrent
      · left
        rcases hdue with ⟨other, hother, hne⟩ | hdue
        · refine .inl ⟨other, hother, ?_⟩
          dsimp only
          rwa [hsame other hother]
        · exact .inr hdue
      · right
        refine hcurrent.of_contents hrestore h.within rfl rfl fun other hother => ?_
        show (Function.update w.files path file other).map Prod.snd = _
        rw [hsame other hother]
        rfl

/-- What one step of the thread does. -/
theorem threadStep_cases {reading : Restoration Content Name Network}
    (h : threadStep reading w = some w') :
    (w.thread = .sleeping ∧ w.counters = .zero ∧ w' = w) ∨
      (w.thread = .sleeping ∧ w.counters ≠ .zero ∧
        w' = { w with counters := .zero, thread := .restoring reading }) ∨
      (∃ path next, w.thread = .restoring (.look path next) ∧
        w' = { w with thread := .restoring (next (w.contents path)) }) ∨
      (∃ restored, w.thread = .restoring (.done (.ok restored)) ∧
        w' = { w with thread := .settingUp restored Registry.allPermanent }) ∨
      (∃ e, w.thread = .restoring (.done (.error e)) ∧ w' = { w with thread := .stopped e }) ∨
      (∃ restored storageClass rest, w.thread = .settingUp restored (storageClass :: rest) ∧
        w' = { w with
          storages := w.storages.setupAgentNetworks (restored.get storageClass) storageClass
          thread := .settingUp restored rest }) ∨
      ∃ restored, w.thread = .settingUp restored [] ∧ w' = { w with thread := .sleeping } := by
  unfold threadStep at h
  cases hthread : w.thread with
  | sleeping =>
      rw [hthread] at h
      dsimp only [resetEventCounters] at h
      split at h
      next hzero =>
        obtain ⟨hmodified, hadded, hdeleted⟩ := hzero
        have hcounters : w.counters = .zero := by
          rcases hw : w.counters with ⟨modified, added, deleted⟩
          rw [hw] at hmodified hadded hdeleted
          dsimp only at hmodified hadded hdeleted
          subst hmodified hadded hdeleted
          rfl
        refine .inl ⟨rfl, hcounters, ?_⟩
        rw [← hcounters, ← hthread] at h
        exact (Option.some.inj h).symm
      next hnonzero =>
        refine .inr (.inl ⟨rfl, fun hzero => hnonzero ?_, (Option.some.inj h).symm⟩)
        rw [hzero]
        exact ⟨rfl, rfl, rfl⟩
  | restoring rest =>
      rw [hthread] at h
      cases rest with
      | look path next =>
          exact .inr (.inr (.inl ⟨path, next, rfl, (Option.some.inj h).symm⟩))
      | done result =>
          cases result with
          | ok restored =>
              exact .inr (.inr (.inr (.inl ⟨restored, rfl, (Option.some.inj h).symm⟩)))
          | error e => exact .inr (.inr (.inr (.inr (.inl ⟨e, rfl, (Option.some.inj h).symm⟩))))
  | settingUp restored storageClasses =>
      rw [hthread] at h
      cases storageClasses with
      | cons storageClass rest =>
          exact .inr (.inr (.inr (.inr (.inr (.inl ⟨restored, storageClass, rest, rfl,
            (Option.some.inj h).symm⟩)))))
      | nil =>
          exact .inr (.inr (.inr (.inr (.inr (.inr ⟨restored, rfl, (Option.some.inj h).symm⟩)))))
  | stopped e =>
      rw [hthread] at h
      cases h

/-- The thread leaves files and events alone. -/
theorem threadStep_frame {reading : Restoration Content Name Network}
    (h : threadStep reading w = some w') :
    w'.files = w.files ∧ w'.now = w.now ∧ w'.seen = w.seen ∧ w'.events = w.events := by
  rcases threadStep_cases h with ⟨-, -, rfl⟩ | ⟨-, -, rfl⟩ | ⟨path, next, -, rfl⟩ |
    ⟨restored, -, rfl⟩ | ⟨e, -, rfl⟩ | ⟨restored, storageClass, rest, -, rfl⟩
      | ⟨restored, -, rfl⟩ <;>
    exact ⟨rfl, rfl, rfl, rfl⟩

/-- The thread works on what it has read, or on what the counts tell it to read. -/
theorem Tracks.threadStep {reading : Restoration Content Name Network}
    (hreading : Restores restore elusive reading) (h : Tracks restore elusive w)
    (hstep : threadStep reading w = some w') :
    Tracks restore elusive w' := by
  obtain ⟨hfiles, hnow, hseen, hevents⟩ := threadStep_frame hstep
  refine ⟨?_, ?_, ?_, ?_⟩
  · rw [hfiles, hnow, hseen]
    exact h.stamps
  · rw [hfiles, hseen]
    exact h.unseen
  · intro rest hrest
    rcases threadStep_cases hstep with ⟨-, -, rfl⟩ | ⟨-, -, rfl⟩ | ⟨path, next, hthread, rfl⟩ |
      ⟨restored, -, rfl⟩ | ⟨e, -, rfl⟩ | ⟨restored, storageClass, classes, -, rfl⟩ |
      ⟨restored, -, rfl⟩
    · exact h.within rest hrest
    · cases hrest
      exact hreading.1
    · cases hrest
      exact (h.within _ hthread).next _
    · cases hrest
    · cases hrest
    · cases hrest
    · cases hrest
  · rcases threadStep_cases hstep with ⟨-, -, rfl⟩ | ⟨-, -, rfl⟩ | hrest
    · exact h.current
    · -- the files are read from the start
      exact .inr (hreading.2 _)
    · -- the other steps neither take counts nor look at files
      have hcounters : w'.counters = w.counters := by
        rcases hrest with ⟨path, next, -, rfl⟩ | ⟨restored, -, rfl⟩ | ⟨e, -, rfl⟩ |
          ⟨restored, storageClass, rest, -, rfl⟩ | ⟨restored, -, rfl⟩ <;> rfl
      rcases h.current with hdue | hcurrent
      · left
        unfold Due at hdue ⊢
        rwa [hfiles, hseen, hevents, hcounters]
      · right
        unfold Current at hcurrent ⊢
        rcases hrest with ⟨path, next, hthread, rfl⟩ | ⟨restored, hthread, rfl⟩ |
          ⟨e, hthread, rfl⟩ | ⟨restored, storageClass, rest, hthread, rfl⟩
            | ⟨restored, hthread, rfl⟩
        · rw [hthread] at hcurrent
          exact hcurrent
        · rw [hthread] at hcurrent
          exact ⟨hcurrent.symm, fun storageClass hin hnot => absurd hin hnot⟩
        · rw [hthread] at hcurrent
          exact hcurrent.symm
        · rw [hthread] at hcurrent
          refine ⟨hcurrent.1, fun other hin hnot => ?_⟩
          -- this storage is set up now, and one that was stays as it is
          by_cases heq : other = storageClass
          · subst heq
            exact serves_setupAgentNetworks _ _ _
          · refine (hcurrent.2 other hin ?_).setupAgentNetworks heq
            intro hmem
            rcases List.mem_cons.mp hmem with rfl | hlater
            · exact heq rfl
            · exact hnot hlater
        · rw [hthread] at hcurrent
          exact ⟨restored, hcurrent.1, fun storageClass hin =>
            hcurrent.2 storageClass hin List.not_mem_nil⟩

/-- Observer, handler and thread lose nothing. -/
theorem Tracks.notice (h : Tracks restore elusive w)
    (hstep : NoticeStep restore elusive w w') : Tracks restore elusive w' := by
  cases hstep with
  | look path kind hnew hkind =>
      refine ⟨fun other file hfile => ?_, ?_, h.within, ?_⟩
      · dsimp only at hfile ⊢
        rcases hfile with hfile | hfile
        · exact h.stamps other file (.inl hfile)
        · by_cases hother : other = path
          · subst hother
            rw [Function.update_self] at hfile
            exact h.stamps other file (.inl hfile)
          · rw [Function.update_of_ne hother] at hfile
            exact h.stamps other file (.inr hfile)
      · refine h.unseen.subset fun other hother => ?_
        by_cases heq : other = path
        · subst heq
          exact hnew
        · have hne : w.files other ≠ Function.update w.seen path (w.files path) other := hother
          rwa [Function.update_of_ne heq] at hne
      · rcases h.current with hdue | hcurrent
        · left
          rcases hdue with ⟨other, hother, hne⟩ | ⟨event, hmem, hcounted⟩ | hcounters
          · by_cases heq : other = path
            · subst heq
              -- now its event is there to handle
              refine .inr (.inl ⟨⟨kind, other⟩,
                List.mem_append_right _ (List.mem_singleton.mpr rfl),
                hother.1, ?_⟩)
              rcases hkind with rfl | ⟨helusive, -⟩
              · exact eventKind_ne_moved _ _
              · exact absurd helusive hother.2
            · refine .inl ⟨other, hother, ?_⟩
              dsimp only
              rwa [Function.update_of_ne heq]
          · exact .inr (.inl ⟨event, List.mem_append_left _ hmem, hcounted⟩)
          · exact .inr (.inr hcounters)
        · exact .inr hcurrent
  | other event =>
      refine ⟨h.stamps, h.unseen, h.within, ?_⟩
      rcases h.current with hdue | hcurrent
      · left
        rcases hdue with hseen | ⟨event, hmem, hcounted⟩ | hcounters
        · exact .inl hseen
        · exact .inr (.inl ⟨event, List.mem_append_left _ hmem, hcounted⟩)
        · exact .inr (.inr hcounters)
      · exact .inr hcurrent
  | handle earlier later event hevents =>
      refine ⟨h.stamps, h.unseen, h.within, ?_⟩
      rcases h.current with hdue | hcurrent
      · left
        rcases hdue with hseen | ⟨other, hmem, hcounted⟩ | hcounters
        · exact .inl hseen
        · rw [hevents] at hmem
          rcases List.mem_append.mp hmem with hearlier | hrest
          · exact .inr (.inl ⟨other, List.mem_append_left _ hearlier, hcounted⟩)
          · rcases List.mem_cons.mp hrest with rfl | hlater
            · exact .inr (.inr (handleEvent_of_counted hcounted _))
            · exact .inr (.inl ⟨other, List.mem_append_right _ hlater, hcounted⟩)
        · exact .inr (.inr (handleEvent_ne_zero hcounters event))
      · exact .inr hcurrent
  | thread reading hreading hthread => exact h.threadStep hreading hthread

/-- A step of any kind. -/
theorem Tracks.step (hrestore : restore.Within (watched elusive)) (h : Tracks restore elusive w)
    (hstep : WatchStep restore elusive w w') : Tracks restore elusive w' := by
  cases hstep with
  | write path content =>
      refine h.change hrestore path _ _ (Nat.le_succ _) (fun f hf => ?_) (fun _ hseen => ?_)
      · obtain rfl := Option.some.inj hf
        exact Nat.lt_succ_self _
      · -- no file has the new stamp yet
        have hlt := h.stamps path _ (.inr hseen.symm)
        dsimp only at hlt
        omega
  | delete path hpath =>
      refine h.change hrestore path none w.now (Nat.le_refl _) (fun f hf => by cases hf)
        fun hnot => ?_
      rcases hpath with helusive | hseen
      · exact absurd helusive hnot
      · exact hseen.symm
  | notice hnotice => exact h.notice hnotice

/-- A run. -/
theorem Tracks.run (hrestore : restore.Within (watched elusive)) (h : Tracks restore elusive w)
    (hrun : ReflTransGen (WatchStep restore elusive) w w') : Tracks restore elusive w' := by
  induction hrun with
  | refl => exact h
  | tail _ hstep ih => exact ih.step hrestore hstep

/-! ## Settling -/

section Settling

variable (restore elusive)

/-- The observer looks at all the files that changed. -/
theorem exists_seen (paths : Finset PyStr) (h : ∀ path ∉ paths, w.files path = w.seen path) :
    ∃ later, ReflTransGen (NoticeStep restore elusive) w later ∧ later.files = w.files ∧
      later.thread = w.thread ∧ ∀ path, later.files path = later.seen path := by
  induction paths using Finset.induction generalizing w with
  | empty => exact ⟨w, .refl, rfl, rfl, fun path => h path (Finset.notMem_empty path)⟩
  | insert path rest _ ih =>
      by_cases hnew : w.files path = w.seen path
      · refine ih fun other hother => ?_
        by_cases heq : other = path
        · rwa [heq]
        · exact h other fun hmem => (Finset.mem_insert.mp hmem).elim heq hother
      · have hstep := @NoticeStep.look _ _ _ _ restore elusive w path _ hnew (.inl rfl)
        obtain ⟨later, hrun, hfiles, hthread, hseen⟩ := ih (w := { w with
          seen := Function.update w.seen path (w.files path)
          events := w.events ++ [⟨eventKind (w.seen path) (w.files path), path⟩] }) (by
            intro other hother
            dsimp only
            by_cases heq : other = path
            · rw [heq, Function.update_self]
            · rw [Function.update_of_ne heq]
              exact h other fun hmem => (Finset.mem_insert.mp hmem).elim heq hother)
        exact ⟨later, .head hstep hrun, hfiles, hthread, hseen⟩

/-- The handler comes to the end of the events. -/
theorem exists_handled (events : List FileEvent) (h : w.events = events) :
    ∃ later, ReflTransGen (NoticeStep restore elusive) w later ∧ later.files = w.files ∧
      later.seen = w.seen ∧ later.thread = w.thread ∧ later.events = [] := by
  induction events generalizing w with
  | nil => exact ⟨w, .refl, rfl, rfl, rfl, h⟩
  | cons event rest ih =>
      have hstep := @NoticeStep.handle _ _ _ _ restore elusive w [] rest event h
      obtain ⟨later, hrun, hfiles, hseen, hthread, hevents⟩ := ih (w := { w with
        events := rest
        counters := handleEvent w.counters event }) rfl
      exact ⟨later, .head hstep hrun, hfiles, hseen, hthread, hevents⟩

variable {restore elusive} (hrestore : restore.Within (watched elusive))

include hrestore

theorem noticeThread (h : threadStep restore w = some w') : NoticeStep restore elusive w w' :=
  .thread restore ⟨hrestore, fun _ => rfl⟩ h

/-- The loop over the storage classes ends. -/
theorem exists_setUp (restored : RestoredNetworks Name Network) (storageClasses : List StorageClass)
    (hthread : w.thread = .settingUp restored storageClasses) :
    ∃ later, ReflTransGen (NoticeStep restore elusive) w later ∧ later.files = w.files ∧
      later.seen = w.seen ∧ later.events = w.events ∧ later.counters = w.counters ∧
      later.thread = .sleeping := by
  induction storageClasses generalizing w with
  | nil =>
      have hstep : threadStep restore w = some { w with thread := .sleeping } := by
        unfold threadStep
        rw [hthread]
      exact ⟨_, .single (noticeThread hrestore hstep), rfl, rfl, rfl, rfl, rfl⟩
  | cons storageClass rest ih =>
      have hstep : threadStep restore w = some { w with
          storages := w.storages.setupAgentNetworks (restored.get storageClass) storageClass
          thread := .settingUp restored rest } := by
        unfold threadStep
        rw [hthread]
      obtain ⟨later, hrun, hfiles, hseen, hevents, hcounters, hsleeping⟩ := ih (w := { w with
        storages := w.storages.setupAgentNetworks (restored.get storageClass) storageClass
        thread := .settingUp restored rest }) rfl
      exact ⟨later, .head (noticeThread hrestore hstep) hrun, hfiles, hseen, hevents, hcounters,
        hsleeping⟩

/-- A restoration ends, and the storages are set up unless it raises. -/
theorem exists_restored (rest : Restoration Content Name Network)
    (hthread : w.thread = .restoring rest) :
    ∃ later, ReflTransGen (NoticeStep restore elusive) w later ∧ later.files = w.files ∧
      later.seen = w.seen ∧ later.events = w.events ∧ later.counters = w.counters ∧
      (later.thread = .sleeping ∨
        ∃ e, later.thread = .stopped e ∧ rest.run w.contents = .error e) := by
  induction rest generalizing w with
  | look path next ih =>
      have hstep : threadStep restore w =
          some { w with thread := .restoring (next (w.contents path)) } := by
        unfold threadStep
        rw [hthread]
      obtain ⟨later, hrun, hframe⟩ := ih (w.contents path)
        (w := { w with thread := .restoring (next (w.contents path)) }) rfl
      exact ⟨later, .head (noticeThread hrestore hstep) hrun, hframe⟩
  | done result =>
      cases result with
      | error e =>
          have hstep : threadStep restore w = some { w with thread := .stopped e } := by
            unfold threadStep
            rw [hthread]
          exact ⟨_, .single (noticeThread hrestore hstep), rfl, rfl, rfl, rfl, .inr ⟨e, rfl, rfl⟩⟩
      | ok restored =>
          have hstep : threadStep restore w =
              some { w with thread := .settingUp restored Registry.allPermanent } := by
            unfold threadStep
            rw [hthread]
          obtain ⟨later, hrun, hfiles, hseen, hevents, hcounters, hsleeping⟩ :=
            exists_setUp hrestore restored Registry.allPermanent
              (w := { w with thread := .settingUp restored Registry.allPermanent }) rfl
          exact ⟨later, .head (noticeThread hrestore hstep) hrun, hfiles, hseen, hevents, hcounters,
            .inl hsleeping⟩

/-- From anywhere, if nothing more changes, there is a way to where nothing is left to do, unless a
restoration raises. -/
theorem exists_settled (h : { path | w.files path ≠ w.seen path }.Finite)
    (hlive : ∀ e, w.thread ≠ .stopped e) :
    ∃ later, ReflTransGen (NoticeStep restore elusive) w later ∧ later.files = w.files ∧
      (Settled later ∨ ∃ e, later.thread = .stopped e ∧ (restore.run w.contents = .error e ∨
        ∃ rest, w.thread = .restoring rest ∧ rest.run w.contents = .error e)) := by
  -- first the thread goes on until it sleeps
  obtain ⟨first, hrun, hfiles, hseen, hthread⟩ : ∃ first,
      ReflTransGen (NoticeStep restore elusive) w first ∧ first.files = w.files ∧
        first.seen = w.seen ∧ (first.thread = .sleeping ∨ ∃ e, first.thread = .stopped e ∧
          ∃ rest, w.thread = .restoring rest ∧ rest.run w.contents = .error e) := by
    cases hw : w.thread with
    | sleeping => exact ⟨w, .refl, rfl, rfl, .inl hw⟩
    | restoring rest =>
        obtain ⟨first, hrun, hfiles, hseen, -, -, hend⟩ := exists_restored hrestore rest hw
        refine ⟨first, hrun, hfiles, hseen, hend.imp_right ?_⟩
        rintro ⟨e, hstopped, herror⟩
        exact ⟨e, hstopped, rest, rfl, herror⟩
    | settingUp restored storageClasses =>
        obtain ⟨first, hrun, hfiles, hseen, -, -, hend⟩ := exists_setUp hrestore restored _ hw
        exact ⟨first, hrun, hfiles, hseen, .inl hend⟩
    | stopped e => exact absurd hw (hlive e)
  rcases hthread with hsleeping | ⟨e, hstopped, hraises⟩
  · -- then every file is looked at, and every event handled
    obtain ⟨looked, hlooked, hfiles', hthread', hseen'⟩ :=
      exists_seen restore elusive h.toFinset (w := first) (by
        intro path hpath
        rw [hfiles, hseen]
        by_contra hne
        exact hpath (h.mem_toFinset.mpr hne))
    obtain ⟨handled, hhandled, hfiles'', hseen'', hthread'', hevents⟩ :=
      exists_handled restore elusive looked.events rfl
    have hall : ∀ path, handled.files path = handled.seen path := by
      rw [hfiles'', hseen'']
      exact hseen'
    have hsame : handled.files = w.files := hfiles''.trans (hfiles'.trans hfiles)
    have hasleep : handled.thread = .sleeping := hthread''.trans (hthread'.trans hsleeping)
    have hreached := hrun.trans (hlooked.trans hhandled)
    by_cases hcounters : handled.counters = .zero
    · exact ⟨handled, hreached, hsame, .inl ⟨hasleep, hall, hevents, hcounters⟩⟩
    · -- the thread takes the counts, and restores
      have hstep : threadStep restore handled = some { handled with
          counters := .zero
          thread := .restoring restore } := by
        unfold threadStep
        rw [hasleep]
        dsimp only [resetEventCounters]
        rw [if_neg]
        rintro ⟨hmodified, hadded, hdeleted⟩
        refine hcounters ?_
        rcases hw : handled.counters with ⟨modified, added, deleted⟩
        rw [hw] at hmodified hadded hdeleted
        dsimp only at hmodified hadded hdeleted
        subst hmodified hadded hdeleted
        rfl
      obtain ⟨last, hlast, hfilesl, hseenl, heventsl, hcountersl, hend⟩ :=
        exists_restored hrestore restore (w := { handled with
          counters := .zero
          thread := .restoring restore }) rfl
      refine ⟨last, hreached.trans (.head (noticeThread hrestore hstep) hlast),
        hfilesl.trans hsame, ?_⟩
      rcases hend with hslept | ⟨e, hstopped, herror⟩
      · refine .inl ⟨hslept, fun path => ?_, heventsl.trans hevents, hcountersl⟩
        rw [hfilesl, hseenl]
        exact hall path
      · refine .inr ⟨e, hstopped, .inl ?_⟩
        rw [← contents_congr hsame]
        exact herror
  · exact ⟨first, hrun, hfiles, .inr ⟨e, hstopped, .inr hraises⟩⟩

end Settling

/-- What nothing catches stays. -/
theorem stopped_stays {e : PyError} (hthread : w.thread = .stopped e)
    (hrun : ReflTransGen (WatchStep restore elusive) w w') :
    w'.thread = .stopped e ∧ w'.storages = w.storages := by
  induction hrun with
  | refl => exact ⟨hthread, rfl⟩
  | tail _ hstep ih =>
      cases hstep with
      | write path content => exact ih
      | delete path h => exact ih
      | notice hnotice =>
          cases hnotice with
          | look path kind hnew hkind => exact ih
          | other event => exact ih
          | handle earlier later event h => exact ih
          | thread reading hreading h =>
              unfold threadStep at h
              rw [ih.1] at h
              cases h

/-- **Changes are noticed.** Whatever happens to the files, and when: if the thread sleeps and
nothing is left to notice, the permanent storages have what a restoration of the files gives; from
wherever the thread has not stopped, it comes to that without further changes, unless a restoration
raises; and after that the storages stay as they are for good. -/
theorem changes_noticed (hrestore : restore.Within (watched elusive)) (hstart : Started restore w)
    {v : RegistryWatch Content Name Network}
    (hrun : ReflTransGen (WatchStep restore elusive) w v) :
    (v.thread = .sleeping → ¬ Due (watched elusive) v → UpToDate restore v) ∧
    ((∀ e, v.thread ≠ .stopped e) → ∃ later, ReflTransGen (NoticeStep restore elusive) v later ∧
      later.files = v.files ∧ ((Settled later ∧ UpToDate restore later) ∨
        ∃ e, later.thread = .stopped e ∧ (restore.run v.contents = .error e ∨
          ∃ rest, v.thread = .restoring rest ∧ rest.run v.contents = .error e))) ∧
    ∀ e, v.thread = .stopped e → ∀ later, ReflTransGen (WatchStep restore elusive) v later →
      later.thread = .stopped e ∧ later.storages = v.storages := by
  have htracks := (hstart.tracks elusive).run hrestore hrun
  have hserved : ∀ {u : RegistryWatch Content Name Network}, Tracks restore elusive u →
      u.thread = .sleeping → ¬ Due (watched elusive) u → UpToDate restore u := by
    intro u hu hsleeping hnot
    have hcurrent := hu.current.resolve_left hnot
    unfold Current at hcurrent
    rwa [hsleeping] at hcurrent
  refine ⟨hserved htracks, fun hlive => ?_, fun e hstopped later hlater =>
    stopped_stays hstopped hlater⟩
  obtain ⟨later, hlater, hfiles, hend⟩ := exists_settled hrestore htracks.unseen hlive
  refine ⟨later, hlater, hfiles, hend.imp_left fun hsettled => ⟨hsettled, ?_⟩⟩
  have hreached := hrun.trans (ReflTransGen.mono (fun _ _ => WatchStep.notice) _ _ hlater)
  exact hserved ((hstart.tracks elusive).run hrestore hreached) hsettled.sleeping
    (hsettled.not_due _)

/-- A file that is moved stays unnoticed: the watcher comes to rest as if nothing had changed. -/
theorem moved_unnoticed (hsettled : Settled w) {source target : PyStr} {file : Nat × Content}
    (hsource : w.files source = some file) (htarget : w.files target = none)
    (helusive : source ∈ elusive ∧ target ∈ elusive) :
    ∃ later, ReflTransGen (WatchStep restore elusive) w later ∧ Settled later ∧
      later.contents =
        Function.update (Function.update w.contents target (some file.2)) source none ∧
      later.storages = w.storages := by
  have hne : source ≠ target := by
    rintro rfl
    rw [hsource] at htarget
    cases htarget
  -- the file appears at its new place, and goes from its old one
  let written : RegistryWatch Content Name Network := { w with
    files := Function.update w.files target (some (w.now, file.2))
    now := w.now + 1 }
  let gone : RegistryWatch Content Name Network :=
    { written with files := Function.update written.files source none }
  let looked : RegistryWatch Content Name Network := { gone with
    seen := Function.update gone.seen source (gone.files source)
    events := gone.events ++ [⟨.moved, source⟩] }
  let lookedTwice : RegistryWatch Content Name Network := { looked with
    seen := Function.update looked.seen target (looked.files target)
    events := looked.events ++ [⟨.moved, target⟩] }
  have hfilesSource : gone.files source = none := Function.update_self ..
  have hfilesTarget : gone.files target = some (w.now, file.2) := by
    show Function.update (Function.update w.files target _) source none target = _
    rw [Function.update_of_ne hne.symm, Function.update_self]
  have hlook : gone.files source ≠ gone.seen source := by
    have hseen : gone.seen source = w.files source := (hsettled.seen source).symm
    rw [hfilesSource, hseen, hsource]
    intro h
    cases h
  have hlook' : looked.files target ≠ looked.seen target := by
    show gone.files target ≠ Function.update w.seen source _ target
    rw [hfilesTarget, Function.update_of_ne hne.symm, ← hsettled.seen target, htarget]
    intro h
    cases h
  have hevents : lookedTwice.events = [] ++ ⟨.moved, source⟩ :: [⟨.moved, target⟩] := by
    show (w.events ++ [_]) ++ [_] = _
    rw [hsettled.events]
    rfl
  have hlast : handleEvent (handleEvent w.counters ⟨.moved, source⟩) ⟨.moved, target⟩ = .zero := by
    rw [handleEvent_moved, handleEvent_moved, hsettled.counters]
  refine ⟨_, .head (.write w target file.2) <| .head (.delete written source (.inl helusive.1)) <|
    .head (.notice (.look gone source .moved hlook (.inr ⟨helusive.1, rfl⟩))) <|
    .head (.notice (.look looked target .moved hlook' (.inr ⟨helusive.2, rfl⟩))) <|
    .head (.notice (.handle lookedTwice [] [⟨.moved, target⟩] ⟨.moved, source⟩ hevents)) <|
    .single (.notice (.handle _ [] [] ⟨.moved, target⟩ rfl)),
    ⟨hsettled.sleeping, fun path => ?_, rfl, hlast⟩, funext fun path => ?_, rfl⟩
  · show gone.files path =
      Function.update (Function.update w.seen source (gone.files source)) target (gone.files target)
        path
    by_cases hpath : path = target
    · rw [hpath, Function.update_self]
    · rw [Function.update_of_ne hpath]
      by_cases hpath' : path = source
      · rw [hpath', Function.update_self]
      · rw [Function.update_of_ne hpath', ← hsettled.seen path]
        show Function.update (Function.update w.files target _) source none path = _
        rw [Function.update_of_ne hpath', Function.update_of_ne hpath]
  · show (gone.files path).map Prod.snd = _
    by_cases hpath : path = source
    · rw [hpath, hfilesSource, Function.update_self]
      rfl
    · rw [Function.update_of_ne hpath]
      by_cases hpath' : path = target
      · rw [hpath', hfilesTarget, Function.update_self]
        rfl
      · rw [Function.update_of_ne hpath']
        show (Function.update (Function.update w.files target _) source none path).map Prod.snd = _
        rw [Function.update_of_ne hpath, Function.update_of_ne hpath']
        rfl

end NoraFleet.Watcher
