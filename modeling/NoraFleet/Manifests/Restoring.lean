import NoraFleet.Manifests.Filters

/-!
# Restoring networks from manifests

Every manifest is filtered, its networks are read, and each is stored under the
storage class that its entry asks for; a network that is not served is stored as
`None` there. Later manifests are laid over earlier ones, and what is `None` in
the end goes.

The files of the networks that are served are all read and validated. How keys
map to the names of networks is a parameter.
-/

namespace NoraFleet.Manifests

open Base Json

/-- A manifest, and the networks that reading the files of its keys gives. -/
structure ManifestFile (Network : Type*) where
  rawManifest : Members
  readNetwork : PyStr → Network

/-- A map of names to networks for every permanent storage class. -/
structure AgentNetworks (Name Network : Type*) where
  publicNetworks : Dict Name (Option Network)
  protectedNetworks : Dict Name (Option Network)

/-- The networks so far, and the periodic configurations. -/
structure Restoring (Name Network : Type*) where
  agentNetworks : AgentNetworks Name Network
  periodicConfigs : Dict Name Json

/-- What `restore_from_files` returns, and the periodic configurations after
it. -/
structure Restored (Name Network : Type*) where
  publicNetworks : List (Name × Option Network)
  protectedNetworks : List (Name × Option Network)
  periodicConfigs : Dict Name Json

variable {Name Network : Type*} [DecidableEq Name]

/-- `overlay(basis, overlay)` of two maps: a later value replaces an earlier one,
`None` included. -/
def overlayDict {ν : Type*} (basis overlay : Dict Name ν) : Dict Name ν :=
  overlay.items.foldl (fun basis entry => basis.set entry.1 entry.2) basis

/-- The same of nested maps. -/
def AgentNetworks.overlay (basis overlay : AgentNetworks Name Network) :
    AgentNetworks Name Network where
  publicNetworks := overlayDict basis.publicNetworks overlay.publicNetworks
  protectedNetworks := overlayDict basis.protectedNetworks overlay.protectedNetworks

/-- `maybe_store_agent_network(agent_network, network_name, manifest_dict,
agent_networks)`. -/
def maybeStoreAgentNetwork (agentNetwork : Option Network) (networkName : Name)
    (manifestDict : Members) (restoring : Restoring Name Network) : Restoring Name Network :=
  if agentNetwork.isNone && serves manifestDict then restoring
  else
    let agentNetworks := restoring.agentNetworks
    { agentNetworks :=
        if isPublicClass manifestDict then
          { agentNetworks with
            publicNetworks := agentNetworks.publicNetworks.set networkName agentNetwork }
        else
          { agentNetworks with
            protectedNetworks := agentNetworks.protectedNetworks.set networkName agentNetwork }
      periodicConfigs :=
        match periodicConfig manifestDict with
        | some setting => restoring.periodicConfigs.set networkName setting
        | none => restoring.periodicConfigs }

/-- `read_one_agent_network(manifest_key, manifest_dict)`: a network that is not
served is not read. -/
def readOneAgentNetwork (readNetwork : PyStr → Network) (manifestKey : PyStr)
    (manifestDict : Members) : Option Network :=
  if serves manifestDict then some (readNetwork manifestKey) else none

/-- The entries of a filtered manifest, one after the other. -/
def storeAll (networkName : PyStr → Name) (readNetwork : PyStr → Network)
    (oneManifest : List (PyStr × Members)) (restoring : Restoring Name Network) :
    Restoring Name Network :=
  oneManifest.foldl (fun restoring entry =>
    maybeStoreAgentNetwork (readOneAgentNetwork readNetwork entry.1 entry.2)
      (networkName entry.1) entry.2 restoring) restoring

/-- `restore_one_manifest(manifest_file)`. -/
def restoreOneManifest (isValid : Json → Bool) (networkName : PyStr → Name)
    (manifestFile : ManifestFile Network) (periodicConfigs : Dict Name Json) :
    Except PyError (Restoring Name Network) :=
  (filterManifest isValid manifestFile.rawManifest).map fun oneManifest =>
    storeAll networkName manifestFile.readNetwork oneManifest
      ⟨⟨.empty, .empty⟩, periodicConfigs⟩

/-- The loop over the manifests. -/
def restoreAll (isValid : Json → Bool) (networkName : PyStr → Name) :
    List (ManifestFile Network) → Restoring Name Network →
      Except PyError (Restoring Name Network)
  | [], restoring => .ok restoring
  | manifestFile :: rest, restoring =>
      match restoreOneManifest isValid networkName manifestFile restoring.periodicConfigs with
      | .error e => .error e
      | .ok one =>
          restoreAll isValid networkName rest
            ⟨restoring.agentNetworks.overlay one.agentNetworks, one.periodicConfigs⟩

/-- `restore_from_files(file_references)`, of a new restorer. -/
def restoreFromFiles (isValid : Json → Bool) (networkName : PyStr → Name)
    (manifestFiles : List (ManifestFile Network)) : Except PyError (Restored Name Network) :=
  (restoreAll isValid networkName manifestFiles ⟨⟨.empty, .empty⟩, .empty⟩).map fun restoring =>
    { publicNetworks :=
        filterServed false Option.isNone restoring.agentNetworks.publicNetworks.items
      protectedNetworks :=
        filterServed false Option.isNone restoring.agentNetworks.protectedNetworks.items
      periodicConfigs := restoring.periodicConfigs }

end NoraFleet.Manifests
