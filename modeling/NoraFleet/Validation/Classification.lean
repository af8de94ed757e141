import Mathlib
import NoraFleet.Validation.DanglingReferences

/-!
# What validators and the runtime take for a URL

The validators look at how a reference begins. The runtime parses it: an agent elsewhere has a
path, and an MCP tool is on a host, or has a path, with a segment `mcp`.

* `slash_of_beginsLikeUrl` — what begins like a URL has a slash behind its scheme;
* `classifiedAlike_iff` — the references that are classified alike.
-/

namespace NoraFleet.Validation

open Base Networks AbstractNetworkValidator

section Classification

variable (check : Urls.NetlocCheck)

/-- The validators take a reference for a URL or path if and only if the runtime can call it, and
neither of its functions raises. -/
def ClassifiedAlike (tool : PyStr) : Prop :=
  (∃ isExternalAgent, ExternalAgentParsing.isExternalAgent check tool = .ok isExternalAgent) ∧
    (isUrlOrPath tool = true ↔ ExternalAgentParsing.isMcpTool check (.str tool) = true ∨
      ExternalAgentParsing.isExternalAgent check tool = .ok true)

/-- A slash begins what is behind the scheme of a reference. -/
def HasSlash (tool : PyStr) : Prop := (Urls.splitScheme (Urls.stripped tool)).2.head? = some 47

/-- A reference begins with a slash, or with one of two schemes in lower case. -/
def BeginsLikeUrl (tool : PyStr) : Prop :=
  tool.head? = some 47 ∨ str "http://" <+: tool ∨ str "https://" <+: tool

/-- A reference that can be split, in a way that shows what it is: if it begins like a URL it has
something behind the slash of its path, or a host with a label `mcp`. If it does not, no slash
stands behind its scheme, or there is neither of the two. -/
def IsClear (tool : PyStr) : Prop :=
  ∃ parsed, Urls.urlparse check tool = .ok parsed ∧
    (BeginsLikeUrl tool → 2 ≤ parsed.path.length ∨ HasMcpHost check tool) ∧
    (¬BeginsLikeUrl tool → ¬HasSlash tool ∨ (parsed.path.length < 2 ∧ ¬HasMcpHost check tool))

variable {check}

/-- A reference can be looked at if it can be split. -/
theorem exists_isExternalAgent_iff (tool : PyStr) :
    (∃ isExternalAgent, ExternalAgentParsing.isExternalAgent check tool = .ok isExternalAgent) ↔
      ∃ parsed, Urls.urlparse check tool = .ok parsed := by
  unfold ExternalAgentParsing.isExternalAgent ExternalAgentParsing.parseExternalAgent
  by_cases hnil : tool = []
  · subst hnil
    rw [if_pos rfl]
    exact ⟨fun _ => ⟨_, rfl⟩, fun _ => ⟨_, rfl⟩⟩
  · rw [if_neg hnil]
    cases Urls.urlparse check tool with
    | error e => simp [Except.map]
    | ok parsed =>
        refine ⟨fun _ => ⟨_, rfl⟩, fun _ => ?_⟩
        dsimp only
        split
        · exact ⟨_, rfl⟩
        · split
          · exact ⟨_, rfl⟩
          · exact ⟨_, rfl⟩

theorem isUrlOrPath_iff (tool : PyStr) : isUrlOrPath tool = true ↔ BeginsLikeUrl tool := by
  unfold isUrlOrPath BeginsLikeUrl
  simp only [Bool.or_eq_true, List.isPrefixOf_iff_prefix]
  rw [or_assoc]
  refine or_congr_left ?_
  cases tool with
  | nil => simp [str]
  | cons c rest => simp [str, eq_comm]

/-- What begins like a URL has a slash behind its scheme. -/
theorem slash_of_beginsLikeUrl {tool : PyStr} (h : BeginsLikeUrl tool) : HasSlash tool := by
  rcases h with hhead | ⟨rest, rfl⟩ | ⟨rest, rfl⟩
  · -- a slash is no part of a scheme
    obtain ⟨rest, rfl⟩ := List.head?_eq_some_iff.mp hhead
    show (Urls.splitScheme (47 :: rest.filter _)).2.head? = some 47
    unfold Urls.splitScheme
    dsimp only
    rw [if_neg (by simp [Text.partition, Urls.isAlpha])]
    rfl
  · rfl
  · rfl

/-- With a slash behind the scheme, a path is longer than the slash. -/
theorem hasPath_iff {tool : PyStr} {parsed : ParseResult}
    (h : Urls.urlparse check tool = .ok parsed) (hslash : HasSlash tool) :
    HasPath check tool ↔ 2 ≤ parsed.path.length := by
  constructor
  · rintro ⟨other, hother, hlength, -⟩
    obtain rfl := Except.ok.inj (h.symm.trans hother)
    exact hlength
  · intro hlength
    rcases Urls.rooted_path h hslash with hnil | hhead
    · rw [hnil] at hlength
      cases hlength
    · exact ⟨parsed, h, hlength, hhead⟩

theorem not_recognized_of_not_hasSlash {tool : PyStr} (hslash : ¬HasSlash tool) :
    ¬Recognized check tool := by
  rw [recognized_iff]
  rintro (⟨other, hother, -, hhead⟩ | ⟨other, hother, -, hnetloc, -⟩)
  · exact Urls.path_of_head?_ne hother hslash hhead
  · exact hslash (Urls.head?_of_netloc_ne_nil hother hnetloc)

/-- **Classification.** The references that are classified alike are the clear ones. -/
theorem classifiedAlike_iff (check : Urls.NetlocCheck) (tool : PyStr) :
    ClassifiedAlike check tool ↔ IsClear check tool := by
  unfold ClassifiedAlike
  rw [exists_isExternalAgent_iff, or_comm, show (_ ∨ _) = Recognized check tool from rfl,
    isUrlOrPath_iff]
  constructor
  · rintro ⟨⟨parsed, hparsed⟩, halike⟩
    refine ⟨parsed, hparsed, fun hurl => ?_, fun hother => ?_⟩
    · rw [← hasPath_iff hparsed (slash_of_beginsLikeUrl hurl)]
      exact (recognized_iff tool).mp (halike.mp hurl)
    · by_cases hslash : HasSlash tool
      · right
        rw [recognized_iff, hasPath_iff hparsed hslash] at halike
        have hneither := mt halike.mpr hother
        rw [not_or, Nat.not_le] at hneither
        exact hneither
      · exact .inl hslash
  · rintro ⟨parsed, hparsed, hurl, hother⟩
    refine ⟨⟨parsed, hparsed⟩, fun h => ?_, fun h => ?_⟩
    · rw [recognized_iff, hasPath_iff hparsed (slash_of_beginsLikeUrl h)]
      exact hurl h
    · by_contra hnot
      rcases hother hnot with hslash | ⟨hshort, hhost⟩
      · exact not_recognized_of_not_hasSlash hslash h
      · by_cases hslash : HasSlash tool
        · rw [recognized_iff, hasPath_iff hparsed hslash] at h
          exact h.elim (Nat.not_le.mpr hshort) hhost
        · exact not_recognized_of_not_hasSlash hslash h

end Classification

/-- A host with half of a pair of brackets cannot be split. -/
theorem halfBracket_raises : ¬∀ (check : Urls.NetlocCheck) (tool : PyStr),
    ClassifiedAlike check tool := by
  intro h
  obtain ⟨⟨isExternalAgent, hraises⟩, -⟩ := h (fun _ => true) (str "http://[/agent")
  cases hraises

end NoraFleet.Validation
