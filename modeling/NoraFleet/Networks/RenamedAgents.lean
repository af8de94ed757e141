import Mathlib
import NoraFleet.Networks.ConfigTexts
import NoraFleet.Networks.ResolvedConfigs

/-!
# Agents that are renamed

What the correction of names makes of the agents of a configuration, and of what it has made.

* `correctNames_eq` — the agents with all corrections;
* `mem_stringsOfMembers_renamed` — the only new texts are corrected names;
* `sameValue_renamed` — names that were corrected are corrected to the same again.
-/

namespace NoraFleet.Networks

open Base Json

namespace NameCorrectionConfigFilter

/-- A name that is corrected: it has a slash, and is no description of a problem. -/
def IsCorrected (name : PyStr) : Prop :=
  47 ∈ name ∧ (str "Error: ").isPrefixOf (correctedName name) = false

instance : DecidablePred IsCorrected := fun name =>
  inferInstanceAs (Decidable (47 ∈ name ∧ (str "Error: ").isPrefixOf (correctedName name) = false))

/-- The name of an agent, if it is corrected. -/
def correction (agent : Members) : Option PyStr :=
  match lookup agent (str "name") with
  | some (.str name) => if IsCorrected name then some name else none
  | _ => none

/-- An agent with its correction. -/
def corrected (agent : Members) : Members :=
  match correction agent with
  | some name => Dict.setItems agent name (.str (correctedName name))
  | none => agent

/-- The references of an agent, corrected. -/
def followed (corrections : List PyStr) (agent : Members) : Members :=
  match lookup agent (str "tools") with
  | some (.arr (first :: rest)) =>
      Dict.setItems agent (str "tools") (.arr ((first :: rest).map (correctTool corrections)))
  | _ => agent

/-- All agents with all corrections. -/
def renamed (agents : List Members) : List Members :=
  agents.map fun agent => followed (agents.filterMap correction) (corrected agent)

section Names

variable {strOf : StrOf} {agent : Members} {agents : List Members}

theorem slash_not_mem_correctedName (name : PyStr) : 47 ∉ correctedName name := by
  unfold correctedName
  intro h
  obtain ⟨c, -, hc⟩ := List.mem_map.mp h
  split at hc
  · cases hc
  · rename_i hne
    exact hne hc

theorem correction_eq_some {name : PyStr} (h : correction agent = some name) :
    lookup agent (str "name") = some (.str name) ∧ IsCorrected name := by
  unfold correction at h
  split at h
  · rename_i other hname
    split at h
    · rename_i hcorrected
      obtain rfl := Option.some.inj h
      exact ⟨hname, hcorrected⟩
    · cases h
  · cases h

/-- An agent is corrected if its name is. -/
theorem correctAgent_eq_ok {result : Json × Option PyStr}
    (h : correctAgent strOf (.obj agent) = .ok result) :
    result = (.obj (corrected agent), correction agent) := by
  cases hname : lookup agent (str "name") with
  | none =>
      unfold correctAgent at h
      dsimp only at h
      rw [hname] at h
      unfold corrected correction
      rw [hname]
      exact (Except.ok.inj h).symm
  | some value =>
      cases value with
      | str name =>
          obtain ⟨newName, hnew, -⟩ := exists_validateName strOf name
          have hcorrectedName : newName = correctedName name ∨
              name = [] ∧ newName = str "Error: agent/tool name cannot be empty" := by
            cases name with
            | nil => exact .inr ⟨rfl, (Except.ok.inj hnew).symm⟩
            | cons c rest => exact .inl (Except.ok.inj hnew).symm
          rw [correctAgent_eq hname hnew] at h
          unfold corrected correction
          rw [hname]
          dsimp only
          by_cases hcorrected : IsCorrected name
          · rcases hcorrectedName with rfl | ⟨rfl, -⟩
            · have hne : correctedName name ≠ name := by
                intro heq
                have hslash := hcorrected.1
                rw [← heq] at hslash
                exact slash_not_mem_correctedName name hslash
              rw [if_neg (by simp [hcorrected.2, hne])] at h
              rw [if_pos hcorrected]
              exact (Except.ok.inj h).symm
            · exact absurd hcorrected.1 List.not_mem_nil
          · rw [if_pos] at h
            · rw [if_neg hcorrected]
              exact (Except.ok.inj h).symm
            · rcases hcorrectedName with rfl | ⟨rfl, rfl⟩
              · by_cases hslash : 47 ∈ name
                · have herror : (str "Error: ").isPrefixOf (correctedName name) = true := by
                    by_contra hfalse
                    exact hcorrected ⟨hslash, Bool.eq_false_iff.mpr hfalse⟩
                  rw [herror, Bool.true_or]
                · rw [correctedName_eq_self hslash, beq_self_eq_true, Bool.or_true]
              · decide
      | _ =>
          unfold correctAgent at h
          dsimp only at h
          rw [hname] at h
          dsimp only [Option.getD_some] at h
          unfold corrected correction
          rw [hname]
          split at h
          · cases h
          · exact (Except.ok.inj h).symm

theorem correctTools_obj (corrections : List PyStr) (agent : Members) :
    correctTools corrections (.obj agent) = .obj (followed corrections agent) := by
  unfold correctTools followed
  dsimp only
  cases lookup agent (str "tools") with
  | none => rfl
  | some tools =>
      cases tools with
      | arr items => cases items <;> rfl
      | _ => rfl

/-- **What becomes of all agents**, if all names can be written. -/
theorem correctNames_eq (hwritable : ∀ agent ∈ agents, HasWritableName strOf agent) :
    correctNames strOf (agents.map .obj) = .ok ((renamed agents).map .obj) := by
  have hmapM : (agents.map Json.obj).mapM (correctAgent strOf) =
      .ok (agents.map fun agent => (Json.obj (corrected agent), correction agent)) := by
    rw [List.mapM_map]
    refine mapM_eq_ok_map fun agent hagent => ?_
    obtain ⟨result, hresult⟩ := (exists_correctAgent_iff agent).mpr (hwritable agent hagent)
    show correctAgent strOf (.obj agent) = _
    rw [hresult, correctAgent_eq_ok hresult]
  unfold correctNames renamed
  rw [hmapM]
  refine congrArg Except.ok ?_
  dsimp only
  rw [List.map_map, List.map_map, List.map_map, List.filterMap_map]
  exact List.map_congr_left fun agent _ => correctTools_obj _ _

/-! ### What is read of an agent -/

/-- A list of references, corrected. -/
def followedTools (corrections : List PyStr) : Json → Json
  | .arr tools => .arr (tools.map (correctTool corrections))
  | tools => tools

theorem lookup_followed (corrections : List PyStr) (agent : Members) (key : PyStr) :
    lookup (followed corrections agent) key =
      if key = str "tools" then (lookup agent key).map (followedTools corrections)
      else lookup agent key := by
  unfold followed
  split
  · rename_i first rest htools
    rw [lookup_setItems]
    split
    · rename_i hkey
      rw [hkey, htools]
      rfl
    · rfl
  · rename_i hnot
    split
    · rename_i hkey
      rw [hkey]
      cases htools : lookup agent (str "tools") with
      | none => rfl
      | some tools =>
          cases tools with
          | arr items =>
              cases items with
              | nil => rfl
              | cons first rest => exact absurd htools (hnot first rest)
          | _ => rfl
    · rfl

theorem lookup_corrected (agent : Members) (key : PyStr) :
    lookup (corrected agent) key =
      if correction agent = some key then some (.str (correctedName key))
      else lookup agent key := by
  unfold corrected
  split
  · rename_i name hname
    rw [lookup_setItems, hname]
    by_cases hkey : key = name
    · rw [if_pos hkey, if_pos (by rw [hkey]), hkey]
    · rw [if_neg hkey, if_neg fun heq => hkey (Option.some.inj heq).symm]
  · rename_i hnone
    rw [hnone, if_neg (by simp)]

/-- Keys without slashes are not set by a correction. -/
theorem correction_ne_of_free (agent : Members) {key : PyStr} (hfree : 47 ∉ key) :
    correction agent ≠ some key :=
  fun h => hfree (correction_eq_some h).2.1

/-- An agent that is renamed keeps what is under other keys than its references, and its name. -/
theorem lookup_renamed (corrections : List PyStr) (agent : Members) {key : PyStr}
    (hfree : 47 ∉ key) (htools : key ≠ str "tools") :
    lookup (followed corrections (corrected agent)) key = lookup agent key := by
  rw [lookup_followed, if_neg htools, lookup_corrected,
    if_neg (correction_ne_of_free agent hfree)]

theorem correction_congr {other : Members}
    (h : lookup other (str "name") = lookup agent (str "name")) :
    correction other = correction agent := by
  unfold correction
  rw [h]

theorem correctTool_of_mem {corrections : List PyStr} {name : PyStr} (h : name ∈ corrections) :
    correctTool corrections (.str name) = .str (correctedName name) := by
  show Json.str _ = _
  rw [if_pos (List.contains_iff_mem.mpr h)]

theorem correctTool_of_not_mem {corrections : List PyStr} {name : PyStr} (h : name ∉ corrections) :
    correctTool corrections (.str name) = .str name := by
  show Json.str _ = _
  rw [if_neg (mt List.contains_iff_mem.mp h)]

/-- A reference that was corrected is none to be corrected. -/
theorem followedTools_followedTools (agents : List Members) (tools : Json) :
    followedTools (agents.filterMap correction)
        (followedTools (agents.filterMap correction) tools) =
      followedTools (agents.filterMap correction) tools := by
  have hslash : ∀ name ∈ agents.filterMap correction, 47 ∈ name := by
    intro name hname
    obtain ⟨agent, -, hagent⟩ := List.mem_filterMap.mp hname
    exact (correction_eq_some hagent).2.1
  cases tools with
  | arr items =>
      refine congrArg Json.arr ?_
      rw [List.map_map]
      refine List.map_congr_left fun item _ => ?_
      cases item with
      | str name =>
          rw [Function.comp_apply]
          by_cases hname : name ∈ agents.filterMap correction
          · rw [correctTool_of_mem hname]
            exact correctTool_of_not_mem fun hmem =>
              slash_not_mem_correctedName name (hslash _ hmem)
          · rw [correctTool_of_not_mem hname, correctTool_of_not_mem hname]
      | _ => rfl
  | _ => rfl

/-- The only new texts are corrected names. -/
theorem mem_stringsOfMembers_renamed (hagent : agent ∈ agents) {text : PyStr}
    (h : text ∈ stringsOfMembers (followed (agents.filterMap correction) (corrected agent))) :
    text ∈ stringsOfMembers agent ∨
      ∃ name ∈ agents.filterMap correction, text = correctedName name := by
  have hcorrected : text ∈ stringsOfMembers (corrected agent) →
      text ∈ stringsOfMembers agent ∨
        ∃ name ∈ agents.filterMap correction, text = correctedName name := by
    intro htext
    unfold corrected at htext
    split at htext
    · rename_i name hname
      rcases mem_stringsOfMembers_setItems htext with hnew | hold
      · exact .inr ⟨name, List.mem_filterMap.mpr ⟨agent, hagent, hname⟩,
          List.mem_singleton.mp hnew⟩
      · exact .inl hold
    · exact .inl htext
  unfold followed at h
  split at h
  · rename_i first rest htools
    rcases mem_stringsOfMembers_setItems h with hnew | hold
    · obtain ⟨item, hitem, htext⟩ := mem_stringsOfItems.mp hnew
      obtain ⟨entry, hentry, rfl⟩ := List.mem_map.mp hitem
      have hkept : text ∈ stringsOf entry → text ∈ stringsOfMembers (corrected agent) := by
        intro htext
        exact mem_stringsOfMembers.mpr ⟨_, mem_of_lookup htools,
          mem_stringsOfItems.mpr ⟨entry, hentry, htext⟩⟩
      cases entry with
      | str name =>
          by_cases hname : name ∈ agents.filterMap correction
          · rw [correctTool_of_mem hname] at htext
            exact .inr ⟨name, hname, List.mem_singleton.mp htext⟩
          · rw [correctTool_of_not_mem hname] at htext
            exact hcorrected (hkept htext)
      | _ => exact hcorrected (hkept htext)
    · exact hcorrected hold
  · exact hcorrected h

/-- One agent that was renamed, and what the correction makes of it. -/
theorem sameValue_followed {twice : Members}
    (hsame : SameValue (.obj twice)
      (.obj (followed (agents.filterMap correction) (corrected agent))))
    (hname : lookup twice (str "name") = lookup agent (str "name"))
    (htools : lookup twice (str "tools") =
      lookup (followed (agents.filterMap correction) (corrected agent)) (str "tools")) :
    SameValue (.obj (followed (agents.filterMap correction) (corrected twice)))
      (.obj (followed (agents.filterMap correction) (corrected agent))) := by
  intro path
  cases path with
  | nil => rfl
  | cons key rest =>
      rw [valueAt_obj, valueAt_obj]
      by_cases hkey : key = str "tools"
      · subst hkey
        have hfree : ∀ agent, correction agent ≠ some (str "tools") := fun agent =>
          correction_ne_of_free agent (by decide)
        rw [lookup_followed, if_pos rfl, lookup_corrected, if_neg (hfree _), htools,
          lookup_followed, if_pos rfl, lookup_corrected, if_neg (hfree _), Option.map_map]
        refine congrArg (fun tools : Option Json => tools.bind fun child => child.valueAt rest) ?_
        exact Option.map_congr fun tools _ => followedTools_followedTools agents tools
      · have hbefore := hsame (key :: rest)
        rw [valueAt_obj, valueAt_obj] at hbefore
        rw [lookup_followed, if_neg hkey, lookup_corrected, correction_congr hname]
        rw [lookup_followed, if_neg hkey, lookup_corrected] at hbefore ⊢
        split
        · rfl
        · rename_i hother
          rwa [if_neg hother] at hbefore

/-- **Names that were corrected are corrected to the same again**, in agents that are the same but
for what the correction does not read. -/
theorem sameValue_renamed {twice : List Members}
    (h : List.Forall₂ (fun agent once => SameValue (.obj agent) (.obj once) ∧
      lookup agent (str "name") = lookup once (str "name") ∧
      lookup agent (str "tools") = lookup once (str "tools")) twice (renamed agents)) :
    List.Forall₂ (fun agent once => SameValue (.obj agent) (.obj once)) (renamed twice)
      (renamed agents) := by
  unfold renamed at h ⊢
  rw [List.forall₂_map_right_iff] at h
  have hnames : List.Forall₂ (fun other agent : Members =>
      lookup other (str "name") = lookup agent (str "name")) twice agents := by
    refine h.imp fun other agent hagent => ?_
    rw [hagent.2.1]
    exact lookup_renamed _ agent (by decide) (by decide)
  have hcorrections : twice.filterMap correction = agents.filterMap correction := by
    clear h
    induction hnames with
    | nil => rfl
    | cons hfirst _ ih =>
        rw [List.filterMap_cons, List.filterMap_cons, correction_congr hfirst, ih]
  rw [hcorrections, List.forall₂_map_left_iff, List.forall₂_map_right_iff]
  refine h.imp fun other agent hagent => ?_
  obtain ⟨hsame, hname, htools⟩ := hagent
  rw [lookup_renamed _ agent (by decide) (by decide)] at hname
  exact sameValue_followed hsame hname htools

end Names

end NameCorrectionConfigFilter

end NoraFleet.Networks
