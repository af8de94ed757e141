import Mathlib
import NoraFleet.Networks.ConfigFilters

/-!
# The correction of names

A slash in the name of an agent is to become an underscore, in the agent and in the tools of all
others. The new name is stored under the old one and not under `name`: the agent keeps its name,
and the references to it do not.

* `lookup_name_of_correctAgent` — an agent keeps its name;
* `preserves_iff` — the configurations in which names and references stay together.
-/

namespace NoraFleet.Networks

open Base

namespace NameCorrectionConfigFilter

/-- Agents have names that are strings. -/
def AreNamed (agents : List (List (PyStr × Json))) (names : List PyStr) : Prop :=
  agents.map (fun agent => Json.lookup agent (str "name")) =
    names.map fun name => some (Json.str name)

/-- The agents of a configuration and their names, which are distinct strings. -/
structure HasAgents (config : List (PyStr × Json)) (agents : List (List (PyStr × Json)))
    (names : List PyStr) : Prop where
  tools : Json.lookup config (str "tools") = some (.arr (agents.map Json.obj))
  named : AreNamed agents names
  distinct : names.Nodup

/-- The entries of a list under `tools`. -/
def entries (members : List (PyStr × Json)) : List Json :=
  match Json.lookup members (str "tools") with
  | some (.arr tools) => tools
  | _ => []

/-- The values under `args.tools`. -/
def argsEntries (agent : List (PyStr × Json)) : List Json :=
  match Json.lookup agent (str "args") with
  | some (.obj args) =>
      match Json.lookup args (str "tools") with
      | some (.arr argsTools) => argsTools
      | some (.obj argsTools) => argsTools.map Prod.snd
      | _ => []
  | _ => []

/-- An entry that was the name of an agent is the new name of that agent. -/
def Follows (names newNames : List PyStr) (entry newEntry : Json) : Prop :=
  ∀ (i : Nat) (name : PyStr), names[i]? = some name → entry = .str name →
    ∃ newName, newNames[i]? = some newName ∧ newEntry = .str newName

/-- What stays of an agent: its references lead to the agents that they led to, and nothing but
its name and its references is another. -/
structure Kept (names newNames : List PyStr) (agent newAgent : List (PyStr × Json)) : Prop where
  tools : List.Forall₂ (Follows names newNames) (entries agent) (entries newAgent)
  argsTools : List.Forall₂ (Follows names newNames) (argsEntries agent) (argsEntries newAgent)
  others : ∀ key, key ≠ str "name" → key ≠ str "tools" → key ≠ str "args" →
    Json.lookup newAgent key = Json.lookup agent key
  args : ∀ args, Json.lookup agent (str "args") = some args →
    ∃ newArgs, Json.lookup newAgent (str "args") = some newArgs ∧
      ∀ key, key ≠ str "tools" → newArgs.atPath [key] = args.atPath [key]

/-- The filter preserves references and identity: the new names are distinct and without slashes,
and of each agent is kept what has to be. -/
def Preserves (strOf : StrOf) (config : List (PyStr × Json)) (agents : List (List (PyStr × Json)))
    (names : List PyStr) : Prop :=
  ∃ newConfig newAgents newNames, filterConfig strOf (.obj config) = .ok (.obj newConfig) ∧
    HasAgents newConfig newAgents newNames ∧ (∀ name ∈ newNames, 47 ∉ name) ∧
    List.Forall₂ (Kept names newNames) agents newAgents

/-! ## One agent -/

section Agents

variable {strOf : StrOf} {agent : List (PyStr × Json)} {name : PyStr}

theorem correctedName_eq_self (h : 47 ∉ name) : correctedName name = name := by
  unfold correctedName
  calc
    name.map (fun c => if c = 47 then 95 else c) = name.map id :=
      List.map_congr_left fun c hc => if_neg fun hslash : c = 47 => h (hslash ▸ hc)
    _ = name := List.map_id name

/-- What becomes of a string that is a name. -/
theorem exists_validateName (strOf : StrOf) (name : PyStr) :
    ∃ newName, validateName strOf (.str name) = .ok newName ∧
      (47 ∉ name → (str "Error: ").isPrefixOf newName = true ∨ newName = name) := by
  cases name with
  | nil => exact ⟨_, rfl, fun _ => .inl (by decide)⟩
  | cons c rest => exact ⟨_, rfl, fun h => .inr (correctedName_eq_self h)⟩

/-- What becomes of an agent, by what becomes of its name. -/
theorem correctAgent_eq {newName : PyStr}
    (hname : Json.lookup agent (str "name") = some (.str name))
    (hnew : validateName strOf (.str name) = .ok newName) :
    correctAgent strOf (.obj agent) =
      if (str "Error: ").isPrefixOf newName || newName == name then .ok (.obj agent, none)
      else .ok (.obj (Dict.setItems agent name (.str newName)), some name) := by
  unfold correctAgent
  dsimp only
  rw [hname]
  dsimp only [Option.getD_some]
  rw [hnew]

theorem correctAgent_of_free (hname : Json.lookup agent (str "name") = some (.str name))
    (hfree : 47 ∉ name) : correctAgent strOf (.obj agent) = .ok (.obj agent, none) := by
  obtain ⟨newName, hnew, hsame⟩ := exists_validateName strOf name
  rw [correctAgent_eq hname hnew, if_pos]
  rcases hsame hfree with herror | heq
  · rw [herror, Bool.true_or]
  · rw [heq, beq_self_eq_true, Bool.or_true]

/-- An agent keeps its name: a correction is stored under the name that is corrected. -/
theorem lookup_name_of_correctAgent (hname : Json.lookup agent (str "name") = some (.str name)) :
    ∃ corrected correction, correctAgent strOf (.obj agent) = .ok (.obj corrected, correction) ∧
      Json.lookup corrected (str "name") = some (.str name) := by
  by_cases hfree : 47 ∈ name
  · obtain ⟨newName, hnew, -⟩ := exists_validateName strOf name
    have hne : str "name" ≠ name := by
      rintro rfl
      exact absurd hfree (by decide)
    rw [correctAgent_eq hname hnew]
    split
    · exact ⟨agent, none, rfl, hname⟩
    · refine ⟨_, _, rfl, ?_⟩
      rw [Json.lookup_setItems, if_neg hne]
      exact hname
  · exact ⟨agent, none, correctAgent_of_free hname hfree, hname⟩

/-- The tools are corrected in place, and nothing else is. -/
theorem exists_correctTools (corrections : List PyStr) (agent : List (PyStr × Json)) :
    ∃ newAgent, correctTools corrections (.obj agent) = .obj newAgent ∧
      entries newAgent = (entries agent).map (correctTool corrections) ∧
      ∀ key, key ≠ str "tools" → Json.lookup newAgent key = Json.lookup agent key := by
  have hset : ∀ first rest, Json.lookup agent (str "tools") = some (.arr (first :: rest)) →
      correctTools corrections (.obj agent) = .obj (Dict.setItems agent (str "tools")
        (.arr ((first :: rest).map (correctTool corrections)))) := by
    intro first rest htools
    unfold correctTools
    dsimp only
    rw [htools]
  by_cases hcorrected : ∃ first rest,
      Json.lookup agent (str "tools") = some (.arr (first :: rest))
  · obtain ⟨first, rest, htools⟩ := hcorrected
    refine ⟨_, hset first rest htools, ?_, fun key hkey => ?_⟩
    · unfold entries
      rw [Json.lookup_setItems, if_pos rfl, htools]
    · rw [Json.lookup_setItems, if_neg hkey]
  · refine ⟨agent, ?_, ?_, fun _ _ => rfl⟩
    · unfold correctTools
      dsimp only
      split
      · rename_i first rest htools
        exact absurd ⟨first, rest, htools⟩ hcorrected
      · rfl
    · unfold entries
      split
      · rename_i tools htools
        cases tools with
        | nil => rfl
        | cons first rest => exact absurd ⟨first, rest, htools⟩ hcorrected
      · rfl

theorem correctTool_nil (tool : Json) : correctTool [] tool = tool := by
  cases tool with
  | str s => rfl
  | null => rfl
  | bool b => rfl
  | int n => rfl
  | float x => rfl
  | arr items => rfl
  | obj members => rfl

end Agents

/-! ## All agents -/

section Configurations

variable {strOf : StrOf} {config : List (PyStr × Json)} {agents : List (List (PyStr × Json))}
  {names : List PyStr}

/-- Every agent has its name. -/
theorem exists_name (hnamed : AreNamed agents names) {agent : List (PyStr × Json)}
    (hagent : agent ∈ agents) :
    ∃ name ∈ names, Json.lookup agent (str "name") = some (.str name) := by
  have hmem := List.mem_map_of_mem (f := fun agent => Json.lookup agent (str "name")) hagent
  rw [show agents.map _ = _ from hnamed] at hmem
  obtain ⟨name, hname, heq⟩ := List.mem_map.mp hmem
  exact ⟨name, hname, heq.symm⟩

/-- The names of agents that keep theirs. -/
theorem AreNamed.map (hnamed : AreNamed agents names)
    {newAgent : List (PyStr × Json) → List (PyStr × Json)}
    (h : ∀ agent ∈ agents, Json.lookup (newAgent agent) (str "name") =
      Json.lookup agent (str "name")) : AreNamed (agents.map newAgent) names := by
  unfold AreNamed
  rw [List.map_map, ← hnamed]
  exact List.map_congr_left h

/-- Agents have only one name each. -/
theorem AreNamed.unique {newNames : List PyStr} (h : AreNamed agents names)
    (h' : AreNamed agents newNames) : names = newNames := by
  have hinjective : Function.Injective fun name : PyStr => some (Json.str name) :=
    fun _ _ heq => Json.str.inj (Option.some.inj heq)
  exact List.map_injective_iff.mpr hinjective (h.symm.trans h')

/-- All agents keep their names. -/
theorem exists_correctNames (strOf : StrOf) (hnamed : AreNamed agents names) :
    ∃ newAgents, correctNames strOf (agents.map Json.obj) = .ok (newAgents.map Json.obj) ∧
      AreNamed newAgents names := by
  have hagent : ∀ agent ∈ agents, ∃ corrected correction,
      correctAgent strOf (.obj agent) = .ok (.obj corrected, correction) ∧
      Json.lookup corrected (str "name") = Json.lookup agent (str "name") := by
    intro agent hagent
    obtain ⟨name, -, hname⟩ := exists_name hnamed hagent
    rw [hname]
    exact lookup_name_of_correctAgent hname
  choose! corrected correction hcorrect hkeeps using hagent
  have hmapM : (agents.map Json.obj).mapM (correctAgent strOf) =
      .ok (agents.map fun agent => (Json.obj (corrected agent), correction agent)) := by
    rw [List.mapM_map]
    exact mapM_eq_ok_map hcorrect
  unfold correctNames
  rw [hmapM]
  choose newAgent hnewAgent _ hothers using exists_correctTools
    ((agents.map fun agent => (Json.obj (corrected agent), correction agent)).filterMap Prod.snd)
  refine ⟨agents.map fun agent => newAgent (corrected agent), congrArg Except.ok ?_, ?_⟩
  · dsimp only
    rw [List.map_map, List.map_map, List.map_map]
    exact List.map_congr_left fun agent _ => hnewAgent (corrected agent)
  · refine hnamed.map fun agent hagent => ?_
    rw [hothers _ _ (by decide)]
    exact hkeeps agent hagent

/-- Names without slashes are not corrected. -/
theorem correctNames_of_free (hnamed : AreNamed agents names) (hfree : ∀ name ∈ names, 47 ∉ name) :
    correctNames strOf (agents.map Json.obj) =
      .ok (agents.map fun agent => correctTools [] (.obj agent)) := by
  have hmapM : (agents.map Json.obj).mapM (correctAgent strOf) =
      .ok (agents.map fun agent => (Json.obj agent, none)) := by
    rw [List.mapM_map]
    refine mapM_eq_ok_map fun agent hagent => ?_
    obtain ⟨name, hmem, hname⟩ := exists_name hnamed hagent
    exact correctAgent_of_free hname (hfree name hmem)
  have hnone :
      (agents.map fun agent => (Json.obj agent, (none : Option PyStr))).filterMap Prod.snd =
      [] := by
    rw [List.filterMap_map]
    exact List.filterMap_eq_nil_iff.mpr fun _ _ => rfl
  unfold correctNames
  rw [hmapM]
  dsimp only [Except.map]
  rw [hnone, List.map_map, List.map_map]
  rfl

/-- What only has its tools copied is kept. -/
theorem kept_of_copy {agent newAgent : List (PyStr × Json)}
    (htools : entries newAgent = (entries agent).map (correctTool []))
    (hothers : ∀ key, key ≠ str "tools" → Json.lookup newAgent key = Json.lookup agent key) :
    Kept names names agent newAgent := by
  have hfollows : ∀ entry : Json, Follows names names entry entry :=
    fun entry i name hname heq => ⟨name, hname, heq⟩
  have hargs : Json.lookup newAgent (str "args") = Json.lookup agent (str "args") :=
    hothers _ (by decide)
  refine ⟨?_, ?_, fun key _ hkey _ => hothers key hkey, fun args h => ?_⟩
  · have hsame : (entries agent).map (correctTool []) = entries agent := by
      rw [show correctTool [] = id from funext correctTool_nil, List.map_id]
    rw [htools, hsame]
    exact List.forall₂_same.mpr fun entry _ => hfollows entry
  · have hsame : argsEntries newAgent = argsEntries agent := by
      unfold argsEntries
      rw [hargs]
    rw [hsame]
    exact List.forall₂_same.mpr fun entry _ => hfollows entry
  · exact ⟨args, hargs.trans h, fun _ _ => rfl⟩

/-- **Names.** References and identity are preserved exactly where no name has a slash. -/
theorem preserves_iff (strOf : StrOf) (config : List (PyStr × Json))
    (agents : List (List (PyStr × Json))) (names : List PyStr)
    (h : HasAgents config agents names) :
    Preserves strOf config agents names ↔ ∀ name ∈ names, 47 ∉ name := by
  unfold Preserves
  unfold filterConfig
  rw [changeTools_eq h.tools]
  constructor
  · rintro ⟨newConfig, newAgents, newNames, hfilter, hnew, hfree, -⟩
    -- the new names are the old ones
    suffices hnamed : AreNamed newAgents names by rwa [hnew.named.unique hnamed] at hfree
    have hinjective : Function.Injective (List.map Json.obj) :=
      List.map_injective_iff.mpr fun _ _ => Json.obj.inj
    split at hfilter
    case isTrue hnil =>
        obtain rfl := Json.obj.inj (Except.ok.inj hfilter)
        have htools := Json.arr.inj (Option.some.inj (hnew.tools.symm.trans h.tools))
        rw [hinjective htools]
        exact h.named
    case isFalse =>
        obtain ⟨correctedAgents, hcorrect, hnamed⟩ := exists_correctNames strOf h.named
        rw [hcorrect] at hfilter
        obtain rfl := Json.obj.inj (Except.ok.inj hfilter)
        have htools := hnew.tools
        rw [Json.lookup_setItems, if_pos rfl] at htools
        rw [← hinjective (Json.arr.inj (Option.some.inj htools))]
        exact hnamed
  · intro hfree
    choose newAgent hnewAgent hentries hothers using exists_correctTools []
    have hkept : List.Forall₂ (Kept names names) agents (agents.map newAgent) := by
      rw [List.forall₂_map_right_iff]
      exact List.forall₂_same.mpr fun agent _ => kept_of_copy (hentries agent) (hothers agent)
    have hnamed : AreNamed (agents.map newAgent) names :=
      h.named.map fun agent _ => hothers agent _ (by decide)
    split
    case isTrue hnil =>
        subst hnil
        exact ⟨config, [], names, rfl, h, hfree, List.Forall₂.nil⟩
    case isFalse =>
        rw [correctNames_of_free h.named hfree]
        refine ⟨_, agents.map newAgent, names, rfl, ⟨?_, hnamed, h.distinct⟩, hfree, hkept⟩
        rw [Json.lookup_setItems, if_pos rfl, List.map_map]
        exact congrArg (fun tools => some (Json.arr tools))
          (List.map_congr_left fun agent _ => hnewAgent agent)

/-- A front agent and its helper keep their names and each other. -/
theorem preserves_frontAndHelper :
    Preserves (fun _ => .ok []) [(str "tools", .arr
        [.obj [(str "name", .str (str "front")), (str "tools", .arr [.str (str "helper")])],
          .obj [(str "name", .str (str "helper"))]])]
      [[(str "name", .str (str "front")), (str "tools", .arr [.str (str "helper")])],
        [(str "name", .str (str "helper"))]]
      [str "front", str "helper"] :=
  (preserves_iff (fun _ => .ok []) [(str "tools", .arr
        [.obj [(str "name", .str (str "front")), (str "tools", .arr [.str (str "helper")])],
          .obj [(str "name", .str (str "helper"))]])]
      [[(str "name", .str (str "front")), (str "tools", .arr [.str (str "helper")])],
        [(str "name", .str (str "helper"))]]
      [str "front", str "helper"] ⟨rfl, rfl, by decide⟩).mpr (by decide)

end Configurations

/-- The new name of `a/b` is stored under the key `a/b`: the agent keeps its slash. -/
theorem not_preserves_slash :
    ¬ ∀ (strOf : StrOf) (config : List (PyStr × Json)) (agents : List (List (PyStr × Json)))
      (names : List PyStr), HasAgents config agents names →
        Preserves strOf config agents names := by
  intro h
  obtain ⟨newConfig, newAgents, newNames, hfilter, hnew, hfree, -⟩ :=
    h (fun _ => .ok []) [(str "tools", .arr [.obj [(str "name", .str (str "a/b"))]])]
      [[(str "name", .str (str "a/b"))]] [str "a/b"] ⟨rfl, rfl, by decide⟩
  obtain rfl : [(str "tools", .arr [.obj [(str "name", .str (str "a/b")),
      (str "a/b", .str (str "a_b"))]])] = newConfig := Json.obj.inj (Except.ok.inj hfilter)
  have hinjective : Function.Injective (List.map Json.obj) :=
    List.map_injective_iff.mpr fun _ _ => Json.obj.inj
  have hagents : [[(str "name", .str (str "a/b")), (str "a/b", .str (str "a_b"))]] = newAgents :=
    hinjective (Json.arr.inj (Option.some.inj hnew.tools))
  have hnamed : AreNamed newAgents [str "a/b"] := by
    rw [← hagents]
    rfl
  have hname : str "a/b" ∈ newNames := by
    rw [hnew.named.unique hnamed]
    exact List.mem_singleton.mpr rfl
  exact hfree _ hname (by decide)

end NameCorrectionConfigFilter

end NoraFleet.Networks
