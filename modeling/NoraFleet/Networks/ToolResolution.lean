import Mathlib.Data.List.Infix
import NoraFleet.Base.Flow
import NoraFleet.Base.Text

/-!
# Resolving the class of a coded tool

The activation factory appends the name of the agent network to `AGENT_TOOL_PATH`, unless
the path ends with that text already. The class of a coded tool is looked for in the
package so named, and then in one package above it for each part of the name, which leads
back to `AGENT_TOOL_PATH` if the name was appended, and above it if it was not.

* `below_of_appended` — the packages below a name that was appended;
* `resolve_stays_below_iff` — when every package that is handed to the resolver is
  `AGENT_TOOL_PATH` or below it.
-/

namespace NoraFleet.Networks

open Base

/-! ## Paths -/

/-- `name.replace("/", ".")`. -/
def dotted (name : PyStr) : PyStr := name.map fun c => if c = 47 then 46 else c

theorem length_splitOn_dotted (name : PyStr) :
    (name.splitOn 47).length ≤ ((dotted name).splitOn 46).length := by
  induction name with
  | nil => simp [dotted]
  | cons c rest ih =>
      have hcons : dotted (c :: rest) = (if c = 47 then 46 else c) :: dotted rest := rfl
      rw [hcons, List.splitOn_cons_eq_if_modifyHead, List.splitOn_cons_eq_if_modifyHead]
      by_cases hslash : c = 47
      · subst hslash
        simpa using ih
      · rw [if_neg hslash, if_neg (by simpa using hslash), List.length_modifyHead]
        split
        · exact Nat.le_succ_of_le ih
        · rw [List.length_modifyHead]
          exact ih

/-- `AGENT_TOOL_PATH`, by the segments of the package it names. -/
structure AgentToolPath where
  segments : List PyStr
  nonempty : segments ≠ []
  wellFormed : ∀ segment ∈ segments, segment ≠ [] ∧ 46 ∉ segment ∧ 47 ∉ segment

namespace AgentToolPath

variable (toolPath : AgentToolPath)

/-- The value of the variable. -/
def text : PyStr := [46].intercalate toolPath.segments

/-- A package is the one of the path, or is below it. -/
def Holds (package : PyStr) : Prop := toolPath.segments <+: package.splitOn 46

theorem splitOn_text : toolPath.text.splitOn 46 = toolPath.segments :=
  List.splitOn_intercalate 46 (fun segment h => (toolPath.wellFormed segment h).2.1)
    toolPath.nonempty

end AgentToolPath

/-! ## The search -/

/-- `_determine_agent_tool_path()`, of a path that is not a file path. -/
def determineAgentToolPath (toolPath : AgentToolPath) (networkName : PyStr) : PyStr :=
  let agentNetworkPath := dotted networkName
  if agentNetworkPath <:+ toolPath.text then toolPath.text
  else toolPath.text ++ 46 :: agentNetworkPath

/-- `Resolver([package]).resolve_class_in_module(class_name, module_name)`. -/
abbrev Resolver (Class : Type*) := PyStr → PyStr → PyStr → Except PyError (Option Class)

/-- `except (ValueError, AttributeError)`. -/
def isUnresolved (e : PyError) : Bool := e.isValueError || e = .attributeError

/-- Whether an attempt is the last one. -/
def endsSearch {Class : Type*} : Except PyError (Option Class) → Bool
  | .ok found => found.isSome
  | .error e => !isUnresolved e

/-- The packages that are handed to the resolver, and the class that is found. -/
structure Search (Class : Type*) where
  handed : List PyStr
  outcome : Except PyError Class

/-- The loop over packages. The last exception is raised again. -/
def tryPackages {Class : Type*} (attempt : PyStr → Except PyError (Option Class)) :
    List PyStr → PyError → Search Class
  | [], lastException => ⟨[], .error lastException⟩
  | package :: rest, lastException =>
      match attempt package with
      | .ok (some pythonClass) => ⟨[package], .ok pythonClass⟩
      | .ok none =>
          let search := tryPackages attempt rest lastException
          ⟨package :: search.handed, search.outcome⟩
      | .error e =>
          if isUnresolved e then
            let search := tryPackages attempt rest e
            ⟨package :: search.handed, search.outcome⟩
          else ⟨[package], .error e⟩

/-- `".".join(path_parts[:-i])`, for `i` above zero. -/
def levelUp (pathParts : List PyStr) (i : Nat) : PyStr :=
  [46].intercalate (pathParts.take (pathParts.length - i))

/-- The packages in the order in which they are tried. -/
def candidates (thisAgentToolPath : PyStr) (agentNetworkNameParts : List PyStr) : List PyStr :=
  thisAgentToolPath :: (List.range agentNetworkNameParts.length).map fun i =>
    levelUp (thisAgentToolPath.splitOn 46) (i + 1)

/-- `_attempt_resolve(class_name, module_name, ...)`. -/
def attemptResolve {Class : Type*} (agentToolPathOnly : Bool)
    (createType : PyStr → Except PyError (Option Class)) (resolver : Resolver Class)
    (className moduleName thisAgentToolPath : PyStr) (agentNetworkNameParts : List PyStr) :
    Search Class :=
  let phase2 := tryPackages (fun package => resolver package className moduleName)
    (candidates thisAgentToolPath agentNetworkNameParts) .valueError
  if agentToolPathOnly then phase2
  else
    match createType (moduleName ++ 46 :: className) with
    | .error e => ⟨[], .error e⟩
    | .ok (some pythonClass) => ⟨[], .ok pythonClass⟩
    | .ok none => phase2

/-- The class name that `build()` takes from a reference. -/
def classNameOf (fullClassRef : PyStr) : PyStr := ((fullClassRef.splitOn 46).getLast?).getD []

/-- The module name; `[:-0]` is empty. -/
def moduleNameOf (fullClassRef : PyStr) : PyStr :=
  let className := classNameOf fullClassRef
  let moduleName := if className = [] then [] else
    fullClassRef.take (fullClassRef.length - className.length)
  (moduleName.reverse.dropWhile (· = 46)).reverse

/-- `resolve_class(class_name, module_name)`, for a reference of an agent. -/
def resolveClass {Class : Type*} (agentToolPathOnly : Bool)
    (createType : PyStr → Except PyError (Option Class)) (resolver : Resolver Class)
    (toolPath : AgentToolPath) (networkName fullClassRef : PyStr) : Search Class :=
  attemptResolve agentToolPathOnly createType resolver (classNameOf fullClassRef)
    (moduleNameOf fullClassRef) (determineAgentToolPath toolPath networkName)
    (networkName.splitOn 47)

/-! ## Where it leads -/

/-- Every package that is handed over is one of the candidates. -/
theorem handed_subset {Class : Type*} (attempt : PyStr → Except PyError (Option Class))
    (packages : List PyStr) (lastException : PyError) :
    ∀ package ∈ (tryPackages attempt packages lastException).handed, package ∈ packages := by
  induction packages generalizing lastException with
  | nil => exact fun _ h => h
  | cons first rest ih =>
      have hrest : ∀ e package, package ∈ first :: (tryPackages attempt rest e).handed →
          package ∈ first :: rest := by
        intro e package h
        rcases List.mem_cons.mp h with rfl | h
        · exact List.mem_cons_self
        · exact List.mem_cons_of_mem _ (ih e package h)
      intro package h
      unfold tryPackages at h
      split at h
      · rw [List.mem_singleton.mp h]
        exact List.mem_cons_self
      · exact hrest _ package h
      · split at h
        · exact hrest _ package h
        · rw [List.mem_singleton.mp h]
          exact List.mem_cons_self

/-- The second candidate is handed over when the first attempt does not end the search. -/
theorem second_handed_iff {Class : Type*} (attempt : PyStr → Except PyError (Option Class))
    (first second : PyStr) (rest : List PyStr) (lastException : PyError) :
    (endsSearch (attempt first) = true ∧
        (tryPackages attempt (first :: second :: rest) lastException).handed = [first]) ∨
      (endsSearch (attempt first) = false ∧
        second ∈ (tryPackages attempt (first :: second :: rest) lastException).handed) := by
  have hsecond : ∀ e, second ∈ (tryPackages attempt (second :: rest) e).handed := by
    intro e
    unfold tryPackages
    split
    · exact List.mem_cons_self
    · exact List.mem_cons_self
    · split
      · exact List.mem_cons_self
      · exact List.mem_cons_self
  rw [tryPackages]
  cases hfirst : attempt first with
  | ok found =>
      cases found with
      | none => exact .inr ⟨rfl, List.mem_cons_of_mem _ (hsecond _)⟩
      | some pythonClass => exact .inl ⟨rfl, rfl⟩
  | error e =>
      cases hcaught : isUnresolved e with
      | true =>
          refine .inr ⟨by simp [endsSearch, hcaught], ?_⟩
          simp only [hcaught, if_true]
          exact List.mem_cons_of_mem _ (hsecond _)
      | false => exact .inl ⟨by simp [endsSearch, hcaught], by simp [hcaught]⟩

/-- The segments of a package some levels up, while there are any left. -/
theorem splitOn_levelUp {pathParts : List PyStr} (hdots : ∀ part ∈ pathParts, 46 ∉ part) {i : Nat}
    (hi : i < pathParts.length) :
    (levelUp pathParts i).splitOn 46 = pathParts.take (pathParts.length - i) := by
  apply List.splitOn_intercalate
  · intro part hpart
    exact hdots part (List.mem_of_mem_take hpart)
  · intro hnil
    have hlength := congrArg List.length hnil
    rw [List.length_take, List.length_nil] at hlength
    omega

section Candidates

variable {toolPath : AgentToolPath} {networkName : PyStr}

/-- Where the name was appended, no more levels are climbed than it has. -/
theorem below_of_appended (h : ¬ dotted networkName <:+ toolPath.text) :
    ∀ package ∈ candidates (determineAgentToolPath toolPath networkName)
      (networkName.splitOn 47), toolPath.Holds package := by
  have hpath : (determineAgentToolPath toolPath networkName).splitOn 46 =
      toolPath.segments ++ (dotted networkName).splitOn 46 := by
    unfold determineAgentToolPath
    rw [if_neg h, List.splitOn_append_cons_self, toolPath.splitOn_text]
  have hdots : ∀ part ∈ toolPath.segments ++ (dotted networkName).splitOn 46, 46 ∉ part := by
    intro part hpart
    rcases List.mem_append.mp hpart with hpart | hpart
    · exact (toolPath.wellFormed part hpart).2.1
    · exact not_mem_of_mem_splitOn hpart
  have hlength := length_splitOn_dotted networkName
  have hsegments := List.length_pos_of_ne_nil toolPath.nonempty
  intro package hpackage
  rcases List.mem_cons.mp hpackage with rfl | hpackage
  · rw [AgentToolPath.Holds, hpath]
    exact List.prefix_append _ _
  · obtain ⟨i, hi, rfl⟩ := List.mem_map.mp hpackage
    rw [List.mem_range] at hi
    rw [AgentToolPath.Holds, hpath, splitOn_levelUp hdots (by rw [List.length_append]; omega),
      List.prefix_take_iff]
    refine ⟨List.prefix_append _ _, ?_⟩
    rw [List.length_append]
    omega

theorem not_below_of_not_appended (toolPath : AgentToolPath) :
    ¬ toolPath.Holds (levelUp toolPath.segments 1) := by
  have hdots : ∀ part ∈ toolPath.segments, 46 ∉ part := fun part hpart =>
    (toolPath.wellFormed part hpart).2.1
  have hsegments := List.length_pos_of_ne_nil toolPath.nonempty
  intro hholds
  by_cases hone : toolPath.segments.length = 1
  · -- above a package of one segment is the package without a name
    obtain ⟨segment, hsegment⟩ := List.length_eq_one_iff.mp hone
    rw [AgentToolPath.Holds, hsegment] at hholds
    obtain ⟨rest, hrest⟩ := hholds
    have hempty : segment = [] := (List.cons.inj hrest).1
    have hmem : segment ∈ toolPath.segments := by
      rw [hsegment]
      exact List.mem_cons_self
    exact (toolPath.wellFormed segment hmem).1 hempty
  · rw [AgentToolPath.Holds, splitOn_levelUp hdots (by omega)] at hholds
    have hlength := hholds.length_le
    rw [List.length_take] at hlength
    omega

end Candidates

/-- With `AGENT_TOOL_PATH_ONLY`, the resolver is only handed packages at or below
`AGENT_TOOL_PATH` exactly when the path does not end with the text of the network's name, or
the search ends in the package of the path itself. -/
theorem resolve_stays_below_iff {Class : Type*}
    (createType : PyStr → Except PyError (Option Class)) (resolver : Resolver Class)
    (toolPath : AgentToolPath) (networkName fullClassRef : PyStr) :
    (∀ package ∈ (resolveClass true createType resolver toolPath networkName
      fullClassRef).handed, toolPath.Holds package) ↔
      ¬ dotted networkName <:+ toolPath.text ∨
        endsSearch (resolver toolPath.text (classNameOf fullClassRef)
          (moduleNameOf fullClassRef)) = true := by
  show (∀ package ∈ (tryPackages (fun package => resolver package (classNameOf fullClassRef)
    (moduleNameOf fullClassRef)) _ _).handed, _) ↔ _
  by_cases happended : dotted networkName <:+ toolPath.text
  · have hpath : determineAgentToolPath toolPath networkName = toolPath.text := by
      unfold determineAgentToolPath
      rw [if_pos happended]
    -- a name has at least one part, so there is a first level up
    obtain ⟨count, hcount⟩ : ∃ count, (networkName.splitOn 47).length = count + 1 :=
      Nat.exists_eq_succ_of_ne_zero
        (List.length_pos_of_ne_nil (List.splitOn_ne_nil 47 networkName)).ne'
    have hcandidates : candidates toolPath.text (networkName.splitOn 47) =
        toolPath.text :: levelUp toolPath.segments 1 ::
          (List.range count).map fun i => levelUp toolPath.segments (i + 1 + 1) := by
      rw [candidates, hcount, toolPath.splitOn_text, List.range_succ_eq_map, List.map_cons,
        List.map_map]
      rfl
    rw [hpath, hcandidates]
    rcases second_handed_iff (fun package => resolver package (classNameOf fullClassRef)
      (moduleNameOf fullClassRef)) toolPath.text (levelUp toolPath.segments 1) _ .valueError with
      ⟨hends, hhanded⟩ | ⟨hends, hhanded⟩
    · refine ⟨fun _ => .inr hends, fun _ package hpackage => ?_⟩
      rw [hhanded] at hpackage
      obtain rfl := List.mem_singleton.mp hpackage
      rw [AgentToolPath.Holds, toolPath.splitOn_text]
    · constructor
      · intro hbelow
        exact absurd (hbelow _ hhanded) (not_below_of_not_appended toolPath)
      · rintro (hnot | hfirst)
        · exact absurd happended hnot
        · rw [hends] at hfirst
          cases hfirst
  · exact ⟨fun _ => .inl happended, fun _ package hpackage =>
      below_of_appended happended package (handed_subset _ _ _ package hpackage)⟩

/-- The path `tools.math`. -/
def toolsMath : AgentToolPath where
  segments := [str "tools", str "math"]
  nonempty := by decide
  wellFormed := by decide

/-- A resolver that finds nothing. -/
def findsNothing : Resolver PyStr := fun _ _ _ => .error .valueError

/-- The class of an agent of the network `math` is also looked for in `tools`. -/
theorem resolve_leaves_tool_path :
    ¬ ∀ (createType : PyStr → Except PyError (Option PyStr)) (resolver : Resolver PyStr)
      (toolPath : AgentToolPath) (networkName fullClassRef : PyStr),
      ∀ package ∈ (resolveClass true createType resolver toolPath networkName
        fullClassRef).handed, toolPath.Holds package := by
  intro h
  have hhanded : str "tools" ∈ (resolveClass true (fun _ => .ok none) findsNothing toolsMath
      (str "math") (str "calculator.Adder")).handed := by decide +kernel
  have hholds := h (fun _ => .ok none) findsNothing toolsMath (str "math")
    (str "calculator.Adder") (str "tools") hhanded
  have hnot : ¬ toolsMath.segments <+: (str "tools").splitOn 46 := by decide
  exact hnot hholds

end NoraFleet.Networks
