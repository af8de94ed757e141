import NoraFleet.Base.Dict

/-!
# The networks a server serves

`HttpServer` keeps a service provider for every agent that requests may name,
and is told by the storages when networks come, go and change. A service
provider holds the network provider that the storage gave out when the agent was
added, and creates its service from it on first use.

What a storage gives out decides what is served: the permanent storages a
provider that looks the network up in their table each time, the temporary one a
provider that holds the network it was created with.
-/

namespace NoraFleet.HttpServer

open Base

/-- The storage classes. -/
inductive StorageClass where
  | publicNetworks
  | protectedNetworks
  | tempNetworks
  deriving DecidableEq

/-- A network provider: `SingleAgentNetworkProvider` over the table of a storage
class, or `FixedAgentNetworkProvider`. -/
inductive NetworkProvider (Name Network : Type*) where
  | single (agentName : Name) (storageClass : StorageClass)
  | fixed (agentNetwork : Network)
  deriving DecidableEq

/-- A service, as far as it serves a network. -/
structure AgentService (Name Network : Type*) where
  agentNetworkProvider : NetworkProvider Name Network
  deriving DecidableEq

/-- `AsyncAgentServiceProvider`. -/
structure ServiceProvider (Name Network : Type*) where
  agentName : Name
  agentNetworkProvider : NetworkProvider Name Network
  serviceInstance : Option (AgentService Name Network)
  deriving DecidableEq

/-- The service providers by the names of their agents. -/
abbrev AllowedAgents (Name Network : Type*) := Dict Name (ServiceProvider Name Network)

variable {Name Network : Type*} [DecidableEq Name]

/-- `get_agent_network()` of a provider, over the tables of the storages. -/
def NetworkProvider.getAgentNetwork (agentsTable : StorageClass → Dict Name Network) :
    NetworkProvider Name Network → Option Network
  | .single agentName storageClass => (agentsTable storageClass).get? agentName
  | .fixed agentNetwork => some agentNetwork

/-- `get_agent_network()` of a service. -/
def AgentService.getAgentNetwork (agentsTable : StorageClass → Dict Name Network)
    (service : AgentService Name Network) : Option Network :=
  service.agentNetworkProvider.getAgentNetwork agentsTable

namespace ServiceProvider

/-- `get_service()`: the service, and the provider that keeps it. -/
def getService (provider : ServiceProvider Name Network) :
    AgentService Name Network × ServiceProvider Name Network :=
  match provider.serviceInstance with
  | some service => (service, provider)
  | none =>
      let service : AgentService Name Network := ⟨provider.agentNetworkProvider⟩
      (service, { provider with serviceInstance := some service })

/-- `reset_service()`. -/
def resetService (provider : ServiceProvider Name Network) : ServiceProvider Name Network :=
  { provider with serviceInstance := none }

end ServiceProvider

namespace AllowedAgents

/-- `agent_added(agent_name, source)`, with the provider the source gave out. -/
def agentAdded (agentName : Name) (agentNetworkProvider : Option (NetworkProvider Name Network))
    (allowedAgents : AllowedAgents Name Network) : AllowedAgents Name Network :=
  match agentNetworkProvider with
  | none => allowedAgents
  | some agentNetworkProvider =>
      allowedAgents.set agentName ⟨agentName, agentNetworkProvider, none⟩

/-- `agent_removed(agent_name, source)`. -/
def agentRemoved (agentName : Name) (allowedAgents : AllowedAgents Name Network) :
    AllowedAgents Name Network :=
  allowedAgents.pop agentName

/-- `agent_modified(agent_name, source)`. -/
def agentModified (agentName : Name) (allowedAgents : AllowedAgents Name Network) :
    AllowedAgents Name Network :=
  match allowedAgents.get? agentName with
  | none => allowedAgents
  | some provider => allowedAgents.set agentName provider.resetService

/-- A modification adds and removes no name. -/
@[simp] theorem mem_agentModified {allowedAgents : AllowedAgents Name Network}
    {agentName name : Name} :
    name ∈ agentModified agentName allowedAgents ↔ name ∈ allowedAgents := by
  unfold agentModified
  split
  · rfl
  · rename_i hget
    rw [Dict.mem_set]
    constructor
    · rintro (rfl | hmem)
      · exact Dict.mem_of_get?_eq_some hget
      · exact hmem
    · exact Or.inr

end AllowedAgents

end NoraFleet.HttpServer
