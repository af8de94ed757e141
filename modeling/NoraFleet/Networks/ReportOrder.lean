import Mathlib
import NoraFleet.Base.SearchOrder
import NoraFleet.Networks.Connectivity

/-!
# The order of a report

The nodes of a network are to be reported breadth first. Each call that reports a node reports the
nodes it refers to before it returns, so they are reported depth first.

* `breadthFirst_iff` — the networks where that is the same.
-/

namespace NoraFleet.Networks

open Base

namespace ConnectivityReporter

section Order

variable {extractorGet : ExtractorGet} {urls : Urls.NetlocCheck} {strOf : StrOf}
  {reporter : ConnectivityReporter} {toolboxInfos : Option (List (PyStr × Json))}
  {frontMan : PyStr}

/-- The origins of a report are in breadth-first order: from the front man on, next is the first
tool that was not reported, of the node reported first among those with such tools. So no node
comes after one that is farther from the front man. -/
structure BreadthFirst (look : Traversal.Look PyStr Connectivity) (frontMan : PyStr)
    (report : List Connectivity) : Prop where
  next : Traversal.Complete (Traversal.wideNext look) frontMan (report.map Connectivity.origin)
  sorted : (report.map Connectivity.origin).Pairwise fun name other =>
    Traversal.distance look frontMan name ≤ Traversal.distance look frontMan other

/-- As far as a network is listed breadth first, the node listed last among those with tools that
are not listed has the same first such tool as the node listed first among them. -/
def LastFollowsFirst (look : Traversal.Look PyStr Connectivity) (frontMan : PyStr) : Prop :=
  ∀ listed, Traversal.Ordered (Traversal.wideNext look) frontMan listed →
    Traversal.deepNext look listed = Traversal.wideNext look listed

/-- What is reported of a network. -/
theorem exists_traverse_of_report {report : List Connectivity}
    (hload : reporter.loadToolbox = .ok toolboxInfos)
    (hfrontMan : reporter.inspector.findFrontMan = .ok (.str frontMan))
    (h : reportNetworkConnectivity extractorGet urls strOf reporter = .ok report) :
    ∃ seen, Traversal.traverse
        (reportOne extractorGet urls strOf reporter.inspector toolboxInfos)
        (reporter.inspector.agentSpecMap.length + 1) frontMan = .ok seen ∧
      report = seen.map Prod.snd := by
  unfold reportNetworkConnectivity at h
  rw [hload, hfrontMan] at h
  obtain ⟨seen, hseen, heq⟩ := exists_of_map_eq_ok h
  exact ⟨seen, hseen, heq.symm⟩

/-- **The report of a network is breadth first exactly if** in its graph the last node with tools
that are not listed always follows the first. -/
theorem breadthFirst_iff (extractorGet : ExtractorGet) (urls : Urls.NetlocCheck) (strOf : StrOf)
    (reporter : ConnectivityReporter) (toolboxInfos : Option (List (PyStr × Json)))
    (frontMan : PyStr) (report : List Connectivity)
    (hload : reporter.loadToolbox = .ok toolboxInfos)
    (hfrontMan : reporter.inspector.findFrontMan = .ok (.str frontMan))
    (h : reportNetworkConnectivity extractorGet urls strOf reporter = .ok report) :
    BreadthFirst (reportOne extractorGet urls strOf reporter.inspector toolboxInfos) frontMan
        report ↔
      LastFollowsFirst (reportOne extractorGet urls strOf reporter.inspector toolboxInfos)
        frontMan := by
  obtain ⟨seen, hseen, rfl⟩ := exists_traverse_of_report hload hfrontMan h
  have hlook := (Traversal.settled_of_traverse hseen Relation.ReflTransGen.refl).1
  have hroot := Traversal.isFound_iff.mpr (found_frontMan hfrontMan hlook)
  have horigins := origins_of_traverse hseen
  have hiff := Traversal.wide_traverse_iff hseen hroot
  rw [← horigins] at hiff
  constructor
  · intro hbreadth
    exact hiff.mp hbreadth.next
  · intro hfollows
    have hnext := hiff.mpr hfollows
    exact ⟨hnext, hnext.toOrdered.sorted⟩

end Order

/-- An agent with its tools. -/
def agentOf (name : String) (tools : List String) : Json × Json :=
  (.str (str name), .obj [(str "name", .str (str name)),
    (str "tools", .arr (tools.map fun tool => .str (str tool)))])

/-- A reporter for a network of agents. -/
def reporterOf (agents : List (Json × Json)) : ConnectivityReporter where
  inspector := ⟨[(str "tools", .arr (agents.map Prod.snd))], str "network", agents⟩
  toolboxFactory := some (.ok [])

/-- A front man with two tools, of which the second has two. -/
def secondHasTools : List (Json × Json) :=
  [agentOf "front" ["helper", "guide"], agentOf "helper" [],
    agentOf "guide" ["map", "helper", "diary"], agentOf "map" [], agentOf "diary" []]

/-- The condition, at such a front man. -/
theorem breadthFirst_secondHasTools :
    ∃ report, reportNetworkConnectivity dictionaryGet (fun _ => true) (fun _ => .ok [])
        (reporterOf secondHasTools) = .ok report ∧
      report.map Connectivity.origin =
        ["front", "helper", "guide", "map", "diary"].map str ∧
      (BreadthFirst (reportOne dictionaryGet (fun _ => true) (fun _ => .ok [])
          (reporterOf secondHasTools).inspector (some [])) (str "front") report ↔
        LastFollowsFirst (reportOne dictionaryGet (fun _ => true) (fun _ => .ok [])
          (reporterOf secondHasTools).inspector (some [])) (str "front")) :=
  ⟨_, rfl, rfl, breadthFirst_iff dictionaryGet (fun _ => true) (fun _ => .ok [])
    (reporterOf secondHasTools) (some []) (str "front") _ rfl rfl rfl⟩

/-- A front man with two tools, of which the first has one: that one is reported before the
second, which is nearer. -/
theorem tool_of_tool_reported_first :
    ¬ ∀ (extractorGet : ExtractorGet) (urls : Urls.NetlocCheck) (strOf : StrOf)
      (reporter : ConnectivityReporter) (toolboxInfos : Option (List (PyStr × Json)))
      (frontMan : PyStr) (report : List Connectivity),
      reporter.loadToolbox = .ok toolboxInfos →
      reporter.inspector.findFrontMan = .ok (.str frontMan) →
      reportNetworkConnectivity extractorGet urls strOf reporter = .ok report →
      BreadthFirst (reportOne extractorGet urls strOf reporter.inspector toolboxInfos) frontMan
        report := by
  intro h
  obtain ⟨report, hreport, horigins⟩ : ∃ report,
      reportNetworkConnectivity dictionaryGet (fun _ => true) (fun _ => .ok [])
        (reporterOf [agentOf "r" ["a", "b"], agentOf "a" ["c"], agentOf "b" [], agentOf "c" []]) =
          .ok report ∧
        report.map Connectivity.origin = [str "r", str "a"] ++ str "c" :: [str "b"] := ⟨_, rfl, rfl⟩
  have hbreadth := h dictionaryGet (fun _ => true) (fun _ => .ok [])
    (reporterOf [agentOf "r" ["a", "b"], agentOf "a" ["c"], agentOf "b" [], agentOf "c" []])
    (some []) (str "r") report rfl rfl hreport
  have hnext := hbreadth.next.steps _ _ _ horigins (List.cons_ne_nil _ _)
  have hb : Traversal.wideNext (reportOne dictionaryGet (fun _ => true) (fun _ => .ok [])
      (reporterOf [agentOf "r" ["a", "b"], agentOf "a" ["c"], agentOf "b" [],
        agentOf "c" []]).inspector (some [])) [str "r", str "a"] = some (str "b") := rfl
  exact absurd (Option.some.inj (hb.symm.trans hnext)) (by decide)

end ConnectivityReporter

end NoraFleet.Networks
