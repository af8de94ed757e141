import Mathlib.Data.List.Chain
import NoraFleet.HttpServer.AllowedAgents

/-!
# Reloading the manifest

A reload replaces the networks of the public storage, then those of the
protected one. Each storage tells the server which names went and which came,
but not which storage is speaking: a name that the protected storage drops is
removed from the server's table even if the public storage has just added it.

* `mem_setupAgentNetworks` — what `setup_agent_networks` does to the served
  names;
* `namesMatch_updateStorage` — a reload that starts with matching names ends
  with them exactly if it makes no protected network public;
* `names_match_iff` — the same over whole histories of reloads.
-/

namespace NoraFleet.HttpServer

open Base

variable {Name Network : Type*} [DecidableEq Name]

/-- The tables of the storages, and the server's. -/
structure Registry (Name Network : Type*) where
  agentsTable : StorageClass → Dict Name Network
  allowedAgents : AllowedAgents Name Network

namespace Registry

/-- Before the first manifest. -/
def empty : Registry Name Network := ⟨fun _ => .empty, .empty⟩

section Setup

variable (storageClass : StorageClass)

/-- `remove_agent_network(agent_name)` of the storage of a class. -/
def removeAgentNetwork (r : Registry Name Network) (agentName : Name) : Registry Name Network where
  agentsTable :=
    Function.update r.agentsTable storageClass ((r.agentsTable storageClass).pop agentName)
  allowedAgents := r.allowedAgents.agentRemoved agentName

/-- `add_agent_network(agent_name, agent_network)`. -/
def addAgentNetwork (r : Registry Name Network) (agentName : Name) (agentNetwork : Network) :
    Registry Name Network :=
  let isNew := ((r.agentsTable storageClass).get? agentName).isNone
  { agentsTable :=
      Function.update r.agentsTable storageClass
        ((r.agentsTable storageClass).set agentName agentNetwork)
    allowedAgents :=
      if isNew then r.allowedAgents.agentAdded agentName (some (.single agentName storageClass))
      else r.allowedAgents.agentModified agentName }

/-- `add_agent_network` for every name of a new collection. -/
def addAll (agentNetworks : Dict Name Network) (r : Registry Name Network) (names : List Name) :
    Registry Name Network :=
  names.foldl (fun r agentName =>
    match agentNetworks.get? agentName with
    | some agentNetwork => r.addAgentNetwork storageClass agentName agentNetwork
    | none => r) r

end Setup

end Registry

/-- An order in which a set may be iterated. -/
structure SetOrder (Name : Type*) where
  order : List Name → List Name
  perm : ∀ names, (order names).Perm names

/-- A manifest as it was restored, with the orders in which the sets of names
are iterated. No name is in both classes. -/
structure Manifest (Name Network : Type*) where
  networks : StorageClass → Dict Name Network
  disjoint : ∀ name ∈ networks .publicNetworks, name ∉ networks .protectedNetworks
  removalOrder : StorageClass → SetOrder Name
  additionOrder : StorageClass → SetOrder Name

namespace Registry

/-- `setup_agent_networks(agent_networks)` of the storage of a class. -/
def setupAgentNetworks (manifest : Manifest Name Network) (r : Registry Name Network)
    (storageClass : StorageClass) : Registry Name Network :=
  let agentNetworks := manifest.networks storageClass
  let currentAgents := (r.agentsTable storageClass).keys
  let newAgents := agentNetworks.keys
  let agentsToRemove := currentAgents.filter fun agentName => agentName ∉ newAgents
  let r := ((manifest.removalOrder storageClass).order agentsToRemove).foldl
    (removeAgentNetwork storageClass) r
  r.addAll storageClass agentNetworks ((manifest.additionOrder storageClass).order newAgents)

/-- `ALL_PERMANENT`. -/
def allPermanent : List StorageClass := [.publicNetworks, .protectedNetworks]

/-- `update_storage()`, with what the manifest restored to. -/
def updateStorage (r : Registry Name Network) (manifest : Manifest Name Network) :
    Registry Name Network :=
  allPermanent.foldl (setupAgentNetworks manifest) r

/-! ## One storage -/

/-- Removals take their names out of both tables, and leave the other storages
alone. -/
theorem removeAll_spec (storageClass : StorageClass) (r : Registry Name Network)
    (names : List Name) :
    (∀ name, name ∈ (names.foldl (removeAgentNetwork storageClass) r).agentsTable storageClass ↔
      name ∉ names ∧ name ∈ r.agentsTable storageClass) ∧
    (∀ other, other ≠ storageClass →
      (names.foldl (removeAgentNetwork storageClass) r).agentsTable other =
        r.agentsTable other) ∧
    ∀ name, name ∈ (names.foldl (removeAgentNetwork storageClass) r).allowedAgents ↔
      name ∉ names ∧ name ∈ r.allowedAgents := by
  induction names generalizing r with
  | nil => simp
  | cons agentName rest ih =>
      obtain ⟨htable, hother, hallowed⟩ := ih (r.removeAgentNetwork storageClass agentName)
      rw [List.foldl_cons]
      refine ⟨fun name => ?_, fun other hne => ?_, fun name => ?_⟩
      · rw [htable]
        show _ ∧ name ∈ Function.update r.agentsTable storageClass _ storageClass ↔ _
        rw [Function.update_self, Dict.mem_pop, List.mem_cons, not_or]
        tauto
      · rw [hother other hne]
        exact Function.update_of_ne hne _ _
      · rw [hallowed]
        show _ ∧ name ∈ r.allowedAgents.pop agentName ↔ _
        rw [Dict.mem_pop, List.mem_cons, not_or]
        tauto

/-- An addition, to both tables. -/
theorem mem_addAgentNetwork (storageClass : StorageClass) (r : Registry Name Network)
    (agentName : Name) (agentNetwork : Network) (name : Name) :
    (name ∈ (r.addAgentNetwork storageClass agentName agentNetwork).agentsTable storageClass ↔
      name = agentName ∨ name ∈ r.agentsTable storageClass) ∧
    (name ∈ (r.addAgentNetwork storageClass agentName agentNetwork).allowedAgents ↔
      name ∈ r.allowedAgents ∨ name = agentName ∧ agentName ∉ r.agentsTable storageClass) := by
  constructor
  · show name ∈ Function.update r.agentsTable storageClass _ storageClass ↔ _
    rw [Function.update_self, Dict.mem_set]
  · show name ∈ (if ((r.agentsTable storageClass).get? agentName).isNone then _ else _) ↔ _
    cases hget : (r.agentsTable storageClass).get? agentName with
    | some network =>
        have hmem := Dict.mem_of_get?_eq_some hget
        rw [if_neg (by simp), AllowedAgents.mem_agentModified]
        tauto
    | none =>
        have hnew : agentName ∉ r.agentsTable storageClass := by
          intro hmem
          obtain ⟨network, hsome⟩ := Dict.exists_get?_of_mem hmem
          rw [hget] at hsome
          cases hsome
        rw [if_pos (by simp)]
        show name ∈ r.allowedAgents.set agentName _ ↔ _
        rw [Dict.mem_set]
        tauto

/-- Additions put their names into the storage's table, and the new ones into
the server's. -/
theorem addAll_spec (storageClass : StorageClass) (agentNetworks : Dict Name Network)
    (r : Registry Name Network) (names : List Name)
    (hnames : ∀ name ∈ names, name ∈ agentNetworks) :
    (∀ name, name ∈ (r.addAll storageClass agentNetworks names).agentsTable storageClass ↔
      name ∈ names ∨ name ∈ r.agentsTable storageClass) ∧
    (∀ other, other ≠ storageClass →
      (r.addAll storageClass agentNetworks names).agentsTable other = r.agentsTable other) ∧
    ∀ name, name ∈ (r.addAll storageClass agentNetworks names).allowedAgents ↔
      name ∈ r.allowedAgents ∨ name ∈ names ∧ name ∉ r.agentsTable storageClass := by
  induction names generalizing r with
  | nil => simp [addAll]
  | cons agentName rest ih =>
      obtain ⟨agentNetwork, hget⟩ := Dict.exists_get?_of_mem (hnames agentName List.mem_cons_self)
      have hadd := mem_addAgentNetwork storageClass r agentName agentNetwork
      have hstep : r.addAll storageClass agentNetworks (agentName :: rest) =
          (r.addAgentNetwork storageClass agentName agentNetwork).addAll storageClass agentNetworks
            rest := by
        unfold addAll
        rw [List.foldl_cons, hget]
      obtain ⟨htable, hother, hallowed⟩ :=
        ih (r.addAgentNetwork storageClass agentName agentNetwork)
          fun name hmem => hnames name (List.mem_cons_of_mem _ hmem)
      rw [hstep]
      refine ⟨fun name => ?_, fun other hne => ?_, fun name => ?_⟩
      · rw [htable, (hadd name).1, List.mem_cons]
        tauto
      · rw [hother other hne]
        exact Function.update_of_ne hne _ _
      · rw [hallowed, (hadd name).2, (hadd name).1, List.mem_cons]
        by_cases hname : name = agentName
        · subst hname
          tauto
        · tauto

/-- What `setup_agent_networks` does: the table has the new names; of the served
names, those that left the table went and those that are new to it came. -/
theorem mem_setupAgentNetworks (manifest : Manifest Name Network) (r : Registry Name Network)
    (storageClass : StorageClass) :
    (∀ name, name ∈ (r.setupAgentNetworks manifest storageClass).agentsTable storageClass ↔
      name ∈ manifest.networks storageClass) ∧
    (∀ other, other ≠ storageClass →
      (r.setupAgentNetworks manifest storageClass).agentsTable other = r.agentsTable other) ∧
    ∀ name, name ∈ (r.setupAgentNetworks manifest storageClass).allowedAgents ↔
      (name ∈ manifest.networks storageClass ∧ name ∉ r.agentsTable storageClass) ∨
      (name ∈ r.allowedAgents ∧
        (name ∈ r.agentsTable storageClass → name ∈ manifest.networks storageClass)) := by
  have hremoved : ∀ name, name ∈ (manifest.removalOrder storageClass).order
      ((r.agentsTable storageClass).keys.filter fun agentName =>
        agentName ∉ (manifest.networks storageClass).keys) ↔
      name ∈ r.agentsTable storageClass ∧ name ∉ manifest.networks storageClass := by
    intro name
    rw [((manifest.removalOrder storageClass).perm _).mem_iff, List.mem_filter]
    simp [Dict.mem_iff_keys]
  have hadded : ∀ name, name ∈ (manifest.additionOrder storageClass).order
      (manifest.networks storageClass).keys ↔ name ∈ manifest.networks storageClass :=
    fun name => ((manifest.additionOrder storageClass).perm _).mem_iff
  obtain ⟨htable, hother, hallowed⟩ := removeAll_spec storageClass r
    ((manifest.removalOrder storageClass).order
      ((r.agentsTable storageClass).keys.filter fun agentName =>
        agentName ∉ (manifest.networks storageClass).keys))
  obtain ⟨htable', hother', hallowed'⟩ := addAll_spec storageClass
    (manifest.networks storageClass) _ _ fun name hmem => (hadded name).mp hmem
  unfold setupAgentNetworks
  refine ⟨fun name => ?_, fun other hne => ?_, fun name => ?_⟩
  · rw [htable', htable, hremoved, hadded]
    tauto
  · rw [hother' other hne, hother other hne]
  · rw [hallowed', hallowed, htable, hremoved, hadded]
    tauto

/-! ## A reload -/

/-- The served names are those of the two tables. -/
def NamesMatch (r : Registry Name Network) : Prop :=
  ∀ name, name ∈ r.allowedAgents ↔
    name ∈ r.agentsTable .publicNetworks ∨ name ∈ r.agentsTable .protectedNetworks

/-- A reload leaves the names of the manifest in the tables. -/
theorem mem_agentsTable_updateStorage (r : Registry Name Network)
    (manifest : Manifest Name Network) (name : Name) :
    (name ∈ (r.updateStorage manifest).agentsTable .publicNetworks ↔
      name ∈ manifest.networks .publicNetworks) ∧
    (name ∈ (r.updateStorage manifest).agentsTable .protectedNetworks ↔
      name ∈ manifest.networks .protectedNetworks) := by
  obtain ⟨htable, -, -⟩ := mem_setupAgentNetworks manifest r .publicNetworks
  obtain ⟨htable', hother, -⟩ := mem_setupAgentNetworks manifest
    (r.setupAgentNetworks manifest .publicNetworks) .protectedNetworks
  show (name ∈ ((r.setupAgentNetworks manifest .publicNetworks).setupAgentNetworks manifest
    .protectedNetworks).agentsTable _ ↔ _) ∧ (name ∈ ((r.setupAgentNetworks manifest
    .publicNetworks).setupAgentNetworks manifest .protectedNetworks).agentsTable _ ↔ _)
  rw [hother .publicNetworks (by decide), htable, htable']
  exact ⟨Iff.rfl, Iff.rfl⟩

/-- What a reload does to the served names. -/
theorem mem_allowedAgents_updateStorage (r : Registry Name Network)
    (manifest : Manifest Name Network) (name : Name) :
    name ∈ (r.updateStorage manifest).allowedAgents ↔
      (name ∈ manifest.networks .protectedNetworks ∧
        name ∉ r.agentsTable .protectedNetworks) ∨
      (((name ∈ manifest.networks .publicNetworks ∧ name ∉ r.agentsTable .publicNetworks) ∨
        (name ∈ r.allowedAgents ∧
          (name ∈ r.agentsTable .publicNetworks → name ∈ manifest.networks .publicNetworks))) ∧
        (name ∈ r.agentsTable .protectedNetworks →
          name ∈ manifest.networks .protectedNetworks)) := by
  obtain ⟨-, hother, hallowed⟩ := mem_setupAgentNetworks manifest r .publicNetworks
  obtain ⟨-, -, hallowed'⟩ := mem_setupAgentNetworks manifest
    (r.setupAgentNetworks manifest .publicNetworks) .protectedNetworks
  show name ∈ ((r.setupAgentNetworks manifest .publicNetworks).setupAgentNetworks manifest
    .protectedNetworks).allowedAgents ↔ _
  rw [hallowed', hother .protectedNetworks (by decide), hallowed]

/-- The tables of the two classes have no name in common. -/
def TablesDisjoint (r : Registry Name Network) : Prop :=
  ∀ name ∈ r.agentsTable .publicNetworks, name ∉ r.agentsTable .protectedNetworks

/-- A reload that starts with matching names ends with them exactly if it makes
no protected network public. -/
theorem namesMatch_updateStorage {r : Registry Name Network} (hmatch : r.NamesMatch)
    (hdisjoint : r.TablesDisjoint) (manifest : Manifest Name Network) :
    (r.updateStorage manifest).NamesMatch ↔
      ∀ name ∈ r.agentsTable .protectedNetworks, name ∉ manifest.networks .publicNetworks := by
  unfold NamesMatch
  constructor
  · intro h name hprotected hpublic
    have hserved := (h name).mpr
      (.inl ((mem_agentsTable_updateStorage r manifest name).1.mpr hpublic))
    rw [mem_allowedAgents_updateStorage] at hserved
    have := manifest.disjoint name hpublic
    tauto
  · intro hstay name
    have hname := hmatch name
    have hclasses := manifest.disjoint name
    have hbefore := hdisjoint name
    have hstays := hstay name
    rw [mem_allowedAgents_updateStorage, (mem_agentsTable_updateStorage r manifest name).1,
      (mem_agentsTable_updateStorage r manifest name).2]
    tauto

/-! ## Histories -/

/-- The registry after a history of reloads. -/
def runReloads (r : Registry Name Network) (manifests : List (Manifest Name Network)) :
    Registry Name Network :=
  manifests.foldl updateStorage r

/-- The next manifest makes no network public that the previous one had as
protected. -/
def NonePromoted (previous next : Manifest Name Network) : Prop :=
  ∀ name ∈ previous.networks .protectedNetworks, name ∉ next.networks .publicNetworks

theorem tablesDisjoint_updateStorage (r : Registry Name Network)
    (manifest : Manifest Name Network) : (r.updateStorage manifest).TablesDisjoint := by
  intro name hpublic hprotected
  have hmem := mem_agentsTable_updateStorage r manifest name
  exact manifest.disjoint name (hmem.1.mp hpublic) (hmem.2.mp hprotected)

/-- From a reload on: the names match after it and after each of the following
ones exactly if they match after it and none of these promotes a network. -/
theorem namesMatch_from_iff (r : Registry Name Network) (manifest : Manifest Name Network)
    (rest : List (Manifest Name Network)) :
    (∀ count, ((r.updateStorage manifest).runReloads (rest.take count)).NamesMatch) ↔
      (r.updateStorage manifest).NamesMatch ∧ (manifest :: rest).IsChain NonePromoted := by
  induction rest generalizing r manifest with
  | nil =>
      rw [and_iff_left (List.IsChain.singleton manifest)]
      constructor
      · intro h
        exact h 0
      · intro h count
        rw [List.take_nil]
        exact h
  | cons next rest ih =>
      have hnext : ∀ h : (r.updateStorage manifest).NamesMatch,
          ((r.updateStorage manifest).updateStorage next).NamesMatch ↔
            NonePromoted manifest next := by
        intro h
        rw [namesMatch_updateStorage h (tablesDisjoint_updateStorage r manifest) next]
        unfold NonePromoted
        refine forall_congr' fun name => ?_
        rw [(mem_agentsTable_updateStorage r manifest name).2]
      rw [List.isChain_cons_cons]
      constructor
      · intro h
        have hfirst : (r.updateStorage manifest).NamesMatch := h 0
        obtain ⟨hsecond, hchain⟩ :=
          (ih (r.updateStorage manifest) next).mp fun count => h (count + 1)
        exact ⟨hfirst, (hnext hfirst).mp hsecond, hchain⟩
      · rintro ⟨hfirst, hnone, hchain⟩ count
        have hrest := (ih (r.updateStorage manifest) next).mpr ⟨(hnext hfirst).mpr hnone, hchain⟩
        cases count with
        | zero => exact hfirst
        | succ count => exact hrest count

/-- The served names are those of the two tables after each reload of a history
exactly if no reload makes a network public that the reload before it had as
protected. -/
theorem names_match_iff (manifests : List (Manifest Name Network)) :
    (∀ count, ((empty : Registry Name Network).runReloads (manifests.take count)).NamesMatch) ↔
      manifests.IsChain NonePromoted := by
  have hempty : (empty : Registry Name Network).NamesMatch := by
    intro name
    simp [empty]
  have hdisjoint : (empty : Registry Name Network).TablesDisjoint :=
    fun name hmem => absurd hmem (Dict.not_mem_empty name)
  cases manifests with
  | nil =>
      refine iff_of_true (fun count => ?_) List.IsChain.nil
      rw [List.take_nil]
      exact hempty
  | cons manifest rest =>
      have hfirst : ((empty : Registry Name Network).updateStorage manifest).NamesMatch :=
        (namesMatch_updateStorage hempty hdisjoint manifest).mpr
          fun name hmem => absurd hmem (Dict.not_mem_empty name)
      have hfrom := namesMatch_from_iff empty manifest rest
      rw [and_iff_right hfirst] at hfrom
      rw [← hfrom]
      constructor
      · intro h count
        exact h (count + 1)
      · intro h count
        cases count with
        | zero => exact hempty
        | succ count => exact h count

end Registry

/-! ## A promoted network -/

/-- One network `a`, in one class. -/
def manifestOfA (storageClass : StorageClass) : Manifest String Nat where
  networks other :=
    if other = storageClass then (Dict.empty : Dict String Nat).set "a" 1 else .empty
  disjoint name hpublic hprotected := by
    split at hpublic
    · rename_i hclass
      rw [← hclass, if_neg (by decide)] at hprotected
      exact Dict.not_mem_empty name hprotected
    · exact Dict.not_mem_empty name hpublic
  removalOrder _ := ⟨id, fun _ => .refl _⟩
  additionOrder _ := ⟨id, fun _ => .refl _⟩

/-- `a` is protected, then public: after the second reload it is in the public
table and not served. -/
theorem promoted_network_not_served :
    ¬ ∀ (manifests : List (Manifest String Nat)) (count : ℕ),
      ((Registry.empty : Registry String Nat).runReloads (manifests.take count)).NamesMatch := by
  intro h
  have hmatch := h [manifestOfA .protectedNetworks, manifestOfA .publicNetworks] 2 "a"
  have hpublic : "a" ∈ ((Registry.empty : Registry String Nat).runReloads
      [manifestOfA .protectedNetworks, manifestOfA .publicNetworks]).agentsTable
        .publicNetworks := by decide
  have hserved := hmatch.mpr (.inl hpublic)
  exact absurd hserved (by decide)

end NoraFleet.HttpServer
