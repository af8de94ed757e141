import Mathlib
import NoraFleet.Networks.AgentNetwork
import NoraFleet.Networks.ExternalAgents

/-!
# The factory of activations

An agent is activated by the first prepper that is applicable to its specification. Where the
network has no specification, the name has to be the URL of an agent elsewhere. What a prepper
makes of a specification is left out.

* `isOk_createAgentActivation_of_dict` — there is a prepper for every dictionary;
* `isOk_createAgentActivation_of_none` — without a specification, what is activated.
-/

namespace NoraFleet.Activations

open Base Networks

/-- `ActivationPrepper`. Those that are defined outside of the program say themselves which
specifications they are applicable to. -/
inductive ActivationPrepper where
  | external
  | added (isApplicable : List (PyStr × Json) → Bool)
  | toolbox
  | coded
  | branch
  | frontMan

/-- `is_applicable(agent_tool_spec)`. Only the first prepper looks whether there is one. -/
def ActivationPrepper.isApplicable : ActivationPrepper → Option Json → Except PyError Bool
  | .external, agentToolSpec => .ok agentToolSpec.isNone
  | .added isApplicable, some (.obj spec) => .ok (isApplicable spec)
  | .toolbox, some (.obj spec) => .ok (AgentNetwork.isGiven spec (str "toolbox"))
  | .coded, some (.obj spec) =>
      .ok (AgentNetwork.isGiven spec (str "function") && AgentNetwork.isGiven spec (str "class"))
  | .branch, some (.obj spec) =>
      .ok (AgentNetwork.isGiven spec (str "function") && !AgentNetwork.isGiven spec (str "class"))
  | .frontMan, some (.obj spec) => .ok (!AgentNetwork.isGiven spec (str "function"))
  | _, _ => .error .attributeError

namespace ActivationFactory

/-- `_create_preppers()`, with those that are defined outside of the program. -/
def createPreppers (externalPreppers : List (List (PyStr × Json) → Bool)) :
    List ActivationPrepper :=
  .external :: externalPreppers.map .added ++ [.toolbox, .coded, .branch, .frontMan]

variable (check : Urls.NetlocCheck)

/-- `create_agent_activation(…, name, …)`, as far as the prepper that prepares it. -/
def createAgentActivation (preppers : List ActivationPrepper) (network : AgentNetwork)
    (name : PyStr) : Except PyError ActivationPrepper :=
  let agentToolSpec := network.getAgentToolSpec (.str name)
  match preppers.findM? fun candidate => candidate.isApplicable agentToolSpec with
  | .error e => .error e
  | .ok none => .error .valueError
  | .ok (some .external) =>
      match ExternalAgentParsing.isExternalAgent check name with
      | .error e => .error e
      | .ok isExternalAgent => if isExternalAgent then .ok .external else .error .valueError
  | .ok (some prepper) => .ok prepper

variable {check} {externalPreppers : List (List (PyStr × Json) → Bool)} {network : AgentNetwork}
  {name : PyStr}

/-- Where none raises and one is applicable, a first one is found. -/
theorem exists_findM? {preppers : List ActivationPrepper} {agentToolSpec : Option Json}
    (hall : ∀ prepper ∈ preppers, ∃ applicable, prepper.isApplicable agentToolSpec = .ok applicable)
    (hone : ∃ prepper ∈ preppers, prepper.isApplicable agentToolSpec = .ok true) :
    ∃ prepper, preppers.findM? (fun candidate => candidate.isApplicable agentToolSpec) =
        .ok (some prepper) ∧ prepper.isApplicable agentToolSpec = .ok true := by
  induction preppers with
  | nil =>
      obtain ⟨prepper, hprepper, -⟩ := hone
      exact absurd hprepper List.not_mem_nil
  | cons first rest ih =>
      rw [List.forall_mem_cons] at hall
      obtain ⟨⟨applicable, happlicable⟩, hrest⟩ := hall
      rw [List.findM?, happlicable]
      cases applicable with
      | true => exact ⟨first, rfl, happlicable⟩
      | false =>
          refine ih hrest ?_
          obtain ⟨prepper, hprepper, htrue⟩ := hone
          rcases List.mem_cons.mp hprepper with rfl | hprepper
          · exact absurd (happlicable.symm.trans htrue) (by simp)
          · exact ⟨prepper, hprepper, htrue⟩

/-- There is a prepper for every dictionary. -/
theorem isOk_createAgentActivation_of_dict {spec : List (PyStr × Json)}
    (hspec : network.getAgentToolSpec (.str name) = some (.obj spec)) :
    ∃ prepper, createAgentActivation check (createPreppers externalPreppers) network name =
      .ok prepper := by
  have hall : ∀ prepper : ActivationPrepper, ∃ applicable,
      prepper.isApplicable (some (.obj spec)) = .ok applicable := by
    intro prepper
    cases prepper with
    | external => exact ⟨_, rfl⟩
    | added isApplicable => exact ⟨_, rfl⟩
    | toolbox => exact ⟨_, rfl⟩
    | coded => exact ⟨_, rfl⟩
    | branch => exact ⟨_, rfl⟩
    | frontMan => exact ⟨_, rfl⟩
  have hone : ∃ prepper ∈ createPreppers externalPreppers,
      prepper.isApplicable (some (.obj spec)) = .ok true := by
    -- with a function and a class, with a function only, and without a function
    cases hfunction : AgentNetwork.isGiven spec (str "function") with
    | false =>
        exact ⟨.frontMan, by simp [createPreppers],
          by simp [ActivationPrepper.isApplicable, hfunction]⟩
    | true =>
        cases hclass : AgentNetwork.isGiven spec (str "class") with
        | true =>
            exact ⟨.coded, by simp [createPreppers],
              by simp [ActivationPrepper.isApplicable, hfunction, hclass]⟩
        | false =>
            exact ⟨.branch, by simp [createPreppers],
              by simp [ActivationPrepper.isApplicable, hfunction, hclass]⟩
  obtain ⟨prepper, hfind, happlicable⟩ := exists_findM? (fun prepper _ => hall prepper) hone
  unfold createAgentActivation
  dsimp only
  rw [hspec, hfind]
  cases prepper with
  | external => cases happlicable
  | added isApplicable => exact ⟨_, rfl⟩
  | toolbox => exact ⟨_, rfl⟩
  | coded => exact ⟨_, rfl⟩
  | branch => exact ⟨_, rfl⟩
  | frontMan => exact ⟨_, rfl⟩

/-- Without a specification, the URLs of external agents are activated. -/
theorem isOk_createAgentActivation_of_none
    (hspec : network.getAgentToolSpec (.str name) = none) :
    (∃ prepper, createAgentActivation check (createPreppers externalPreppers) network name =
      .ok prepper) ↔ ExternalAgentParsing.isExternalAgent check name = .ok true := by
  have hfind : (createPreppers externalPreppers).findM?
      (fun candidate => candidate.isApplicable none) = .ok (some .external) := rfl
  unfold createAgentActivation
  dsimp only
  rw [hspec, hfind]
  dsimp only
  cases ExternalAgentParsing.isExternalAgent check name with
  | error e => simp
  | ok isExternalAgent =>
      cases isExternalAgent with
      | true => simp
      | false => simp

end ActivationFactory

end NoraFleet.Activations
