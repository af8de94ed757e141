import Mathlib.Data.List.Induction
import NoraFleet.Manifests.Restoring

/-!
# Later manifests win

A later entry of a network replaces an earlier one only within the storage class
that both ask for. The other class keeps what it has, and a periodic setting is
never taken back.

* `Stored.store` — what one entry does to the networks;
* `restoreAll_spec` — after the loop every class has the last entry that asked
  for it;
* `later_manifests_win_iff` — the last entry of every network decides exactly when
  no entry before it is left in force;
* `disabled_network_still_served` — a network that a later manifest disables.
-/

namespace NoraFleet.Manifests

open Base Json

variable {Name Network : Type*} [DecidableEq Name]

/-! ## Mentions -/

/-- `public` or `mcp` of an entry is truthy. -/
def isPublic (entry : Members) : Bool :=
  isPublicClass entry || ((lookup entry (str "mcp")).getD .null).truthy

/-- The periodic setting of an entry is on. -/
def isPeriodic (entry : Members) : Bool :=
  match lookup entry (str "periodic") with
  | none | some (.bool false) => false
  | some _ => true

/-- The entries of a manifest as dictionaries, by the names of their networks. -/
def mentionsOf (networkName : PyStr → Name) (rawManifest : Members) : List (Name × Members) :=
  (filterKeys rawManifest).filterMap fun entry =>
    (expandedValue entry.2).map fun expanded => (networkName entry.1, expanded)

/-- The same of all manifests, in their order. -/
def mentions (networkName : PyStr → Name) (manifestFiles : List (ManifestFile Network)) :
    List (Name × Members) :=
  manifestFiles.flatMap fun manifestFile => mentionsOf networkName manifestFile.rawManifest

/-- The last mention of a network of which `p` holds. -/
def lastMention (p : Members → Bool) (mentions : List (Name × Members)) (name : Name) :
    Option Members :=
  ((mentions.filter fun mention => decide (mention.1 = name) && p mention.2).getLast?).map Prod.snd

/-- Any mention. -/
abbrev anyMention : Members → Bool := fun _ => true

theorem lastMention_append (p : Members → Bool) (earlier later : List (Name × Members))
    (name : Name) :
    lastMention p (earlier ++ later) name =
      (lastMention p later name).or (lastMention p earlier name) := by
  unfold lastMention
  rw [List.filter_append, List.getLast?_append, Option.map_or]

theorem lastMention_singleton (p : Members → Bool) (mention : Name × Members) (name : Name) :
    lastMention p [mention] name =
      if mention.1 = name ∧ p mention.2 = true then some mention.2 else none := by
  unfold lastMention
  rw [List.filter_cons]
  by_cases hname : mention.1 = name
  · cases p mention.2 <;> simp [hname]
  · simp [hname]

/-- A last mention is a mention. -/
theorem mem_of_lastMention {p : Members → Bool} {mentions : List (Name × Members)} {name : Name}
    {entry : Members} (h : lastMention p mentions name = some entry) :
    (name, entry) ∈ mentions ∧ p entry = true := by
  obtain ⟨mention, hlast, rfl⟩ := Option.map_eq_some_iff.mp h
  obtain ⟨hmem, hcond⟩ := List.mem_filter.mp (List.mem_of_getLast? hlast)
  rw [Bool.and_eq_true, decide_eq_true_eq] at hcond
  obtain ⟨rfl, hp⟩ := hcond
  exact ⟨hmem, hp⟩

/-- The last mention of all is the last of those that it is among. -/
theorem lastMention_of_last {p : Members → Bool} {mentions : List (Name × Members)} {name : Name}
    {last : Members} (h : lastMention anyMention mentions name = some last) (hp : p last = true) :
    lastMention p mentions name = some last := by
  induction mentions using List.reverseRecOn with
  | nil => cases h
  | append_singleton rest mention ih =>
      rw [lastMention_append, lastMention_singleton] at h ⊢
      by_cases hname : mention.1 = name
      · rw [if_pos ⟨hname, rfl⟩] at h
        obtain rfl := Option.some.inj h
        rw [if_pos ⟨hname, hp⟩]
        rfl
      · rw [if_neg fun h => hname h.1] at h ⊢
        exact ih h

/-- A network that is not mentioned has no last mention. -/
theorem lastMention_eq_none {mentions : List (Name × Members)} {name : Name}
    (h : lastMention anyMention mentions name = none) :
    (∀ p : Members → Bool, lastMention p mentions name = none) ∧
      ∀ mention ∈ mentions, mention.1 ≠ name := by
  have hnone : ∀ mention ∈ mentions, mention.1 ≠ name := by
    intro mention hmem hname
    rw [lastMention, Option.map_eq_none_iff, List.getLast?_eq_none_iff, List.filter_eq_nil_iff] at h
    exact h mention hmem (by simp [hname])
  refine ⟨fun p => ?_, hnone⟩
  by_contra hsome
  obtain ⟨entry, hentry⟩ := Option.ne_none_iff_exists'.mp hsome
  exact hnone _ (mem_of_lastMention hentry).1 rfl

/-! ## What is stored -/

/-- The networks of one of the classes. -/
def AgentNetworks.of (agentNetworks : AgentNetworks Name Network) (isPublic : Bool) :
    Dict Name (Option Network) :=
  if isPublic then agentNetworks.publicNetworks else agentNetworks.protectedNetworks

/-- Every class has what the last mention that asked for it left: a network if
it is served. -/
def Stored (agentNetworks : AgentNetworks Name Network) (mentions : List (Name × Members)) :
    Prop :=
  ∀ (class' : Bool) (name : Name),
    ((agentNetworks.of class').get? name).map Option.isSome =
      (lastMention (fun entry => isPublic entry == class') mentions name).map serves

/-- The periodic configurations are those of all mentions that are on. -/
def Collected (periodicConfigs : Dict Name Json) (mentions : List (Name × Members)) : Prop :=
  ∀ name, name ∈ periodicConfigs ↔
    ∃ mention ∈ mentions, mention.1 = name ∧ isPeriodic mention.2 = true

/-- A filtered entry stands for a mention. -/
structure StandsFor (networkName : PyStr → Name) (entry : PyStr × Members)
    (mention : Name × Members) : Prop where
  name : networkName entry.1 = mention.1
  serves : serves entry.2 = serves mention.2
  isPublic : isPublicClass entry.2 = isPublic mention.2
  isPeriodic : (periodicConfig entry.2).isSome = isPeriodic mention.2

omit [DecidableEq Name] in
theorem isPeriodic_iff (entry : Members) : isPeriodic entry = true ↔
    ∃ setting, lookup entry (str "periodic") = some setting ∧ setting ≠ .bool false := by
  unfold isPeriodic
  cases lookup entry (str "periodic") with
  | none => simp
  | some setting =>
      cases setting with
      | bool b => cases b <;> simp
      | _ => simp

omit [DecidableEq Name] in
/-- What the filters make of an entry stands for it. -/
theorem standsFor_filtered {isValid : Json → Bool} {expanded entry : Members}
    (h : filterPeriodic isValid (filterMcp expanded) = .ok entry) (networkName : PyStr → Name)
    (key : PyStr) : StandsFor networkName (key, entry) (networkName key, expanded) := by
  have hkept : ∀ key, key ≠ str "mcp" → key ≠ str "public" → key ≠ str "periodic" →
      lookup entry key = lookup expanded key := by
    intro key hmcp hpublic hperiodic
    rw [lookup_filterPeriodic h hperiodic, lookup_filterMcp expanded key hmcp hpublic]
  refine ⟨rfl, ?_, ?_, ?_⟩
  · unfold serves
    rw [hkept (str "serve") (by decide) (by decide) (by decide)]
  · show isPublicClass entry = isPublic expanded
    unfold isPublicClass
    rw [lookup_filterPeriodic h (by decide)]
    exact isPublicClass_filterMcp expanded
  · rw [Bool.eq_iff_iff, isSome_periodicConfig_filterPeriodic h,
      lookup_filterMcp expanded (str "periodic") (by decide) (by decide)]
    exact (isPeriodic_iff expanded).symm

/-! ## The loops -/

omit [DecidableEq Name] in
/-- The filtered entries stand for the mentions of the manifest, one for one. -/
theorem standFor_filterDicts {isValid : Json → Bool} (networkName : PyStr → Name)
    (manifest : Members) {filtered : List (PyStr × Members)}
    (h : filterDicts isValid manifest = .ok filtered) :
    List.Forall₂ (StandsFor networkName) filtered (manifest.filterMap fun entry =>
      (expandedValue entry.2).map fun expanded => (networkName entry.1, expanded)) := by
  induction manifest generalizing filtered with
  | nil =>
      obtain rfl := Except.ok.inj h
      exact .nil
  | cons entry rest ih =>
      obtain ⟨key, value⟩ := entry
      simp only [filterDicts] at h
      rw [List.filterMap_cons]
      cases hexpanded : expandedValue value with
      | none =>
          rw [hexpanded] at h
          exact ih h
      | some expanded =>
          rw [hexpanded] at h
          dsimp only at h
          split at h
          · cases h
          · rename_i entry hentry
            obtain ⟨others, hothers, rfl⟩ := exists_of_map_eq_ok h
            exact .cons (standsFor_filtered hentry networkName key) (ih hothers)

/-- A network that is stored in a class is found there, and nowhere else is
touched. -/
theorem get?_of_store (agentNetworks : AgentNetworks Name Network) (isPublic class' : Bool)
    (networkName name : Name) (agentNetwork : Option Network) :
    ((if isPublic then
        { agentNetworks with
          publicNetworks := agentNetworks.publicNetworks.set networkName agentNetwork }
      else
        { agentNetworks with
          protectedNetworks := agentNetworks.protectedNetworks.set networkName agentNetwork } :
      AgentNetworks Name Network).of class').get? name =
      if networkName = name ∧ isPublic = class' then some agentNetwork
      else (agentNetworks.of class').get? name := by
  cases isPublic with
  | true =>
      cases class' with
      | true =>
          show (agentNetworks.publicNetworks.set networkName agentNetwork).get? name = _
          rw [Dict.get?_set]
          simp [AgentNetworks.of, eq_comm]
      | false => simp [AgentNetworks.of]
  | false =>
      cases class' with
      | true => simp [AgentNetworks.of]
      | false =>
          show (agentNetworks.protectedNetworks.set networkName agentNetwork).get? name = _
          rw [Dict.get?_set]
          simp [AgentNetworks.of, eq_comm]

/-- An entry is always stored: a network that is served is read. -/
theorem maybeStore_readOne (readNetwork : PyStr → Network) (networkName : PyStr → Name)
    (entry : PyStr × Members) (restoring : Restoring Name Network) :
    maybeStoreAgentNetwork (readOneAgentNetwork readNetwork entry.1 entry.2)
      (networkName entry.1) entry.2 restoring =
      { agentNetworks :=
          if isPublicClass entry.2 then
            { restoring.agentNetworks with
              publicNetworks := restoring.agentNetworks.publicNetworks.set (networkName entry.1)
                (readOneAgentNetwork readNetwork entry.1 entry.2) }
          else
            { restoring.agentNetworks with
              protectedNetworks := restoring.agentNetworks.protectedNetworks.set
                (networkName entry.1) (readOneAgentNetwork readNetwork entry.1 entry.2) }
        periodicConfigs :=
          match periodicConfig entry.2 with
          | some setting => restoring.periodicConfigs.set (networkName entry.1) setting
          | none => restoring.periodicConfigs } := by
  unfold maybeStoreAgentNetwork
  refine if_neg ?_
  unfold readOneAgentNetwork
  cases serves entry.2 <;> simp

/-- One entry that stands for a mention. -/
theorem Stored.store {restoring : Restoring Name Network} {stored collected : List (Name × Members)}
    (hstored : Stored restoring.agentNetworks stored)
    (hcollected : Collected restoring.periodicConfigs collected) {networkName : PyStr → Name}
    {entry : PyStr × Members} {mention : Name × Members}
    (h : StandsFor networkName entry mention) (readNetwork : PyStr → Network) :
    Stored (maybeStoreAgentNetwork (readOneAgentNetwork readNetwork entry.1 entry.2)
        (networkName entry.1) entry.2 restoring).agentNetworks (stored ++ [mention]) ∧
      Collected (maybeStoreAgentNetwork (readOneAgentNetwork readNetwork entry.1 entry.2)
        (networkName entry.1) entry.2 restoring).periodicConfigs (collected ++ [mention]) := by
  rw [maybeStore_readOne]
  constructor
  · intro class' name
    rw [lastMention_append, lastMention_singleton, get?_of_store, h.name, h.isPublic]
    by_cases hmention : mention.1 = name ∧ isPublic mention.2 = class'
    · rw [if_pos hmention, if_pos ⟨hmention.1, by simp [hmention.2]⟩]
      show some (readOneAgentNetwork readNetwork entry.1 entry.2).isSome = some (serves mention.2)
      rw [← h.serves]
      unfold readOneAgentNetwork
      cases serves entry.2 <;> rfl
    · rw [if_neg hmention, if_neg (by simpa using hmention), Option.none_or]
      exact hstored class' name
  · intro name
    have hon := h.isPeriodic
    simp only [List.mem_append, List.mem_singleton, or_and_right, exists_or, exists_eq_left]
    rw [← hcollected name, ← hon]
    cases periodicConfig entry.2 with
    | none => simp
    | some setting =>
        simp only [Option.isSome_some, and_true]
        rw [Dict.mem_set, h.name, or_comm, eq_comm]

/-- All entries of a manifest. -/
theorem storeAll_spec {networkName : PyStr → Name} (readNetwork : PyStr → Network)
    {oneManifest : List (PyStr × Members)} {mentions : List (Name × Members)}
    (h : List.Forall₂ (StandsFor networkName) oneManifest mentions)
    (restoring : Restoring Name Network) {stored collected : List (Name × Members)}
    (hstored : Stored restoring.agentNetworks stored)
    (hcollected : Collected restoring.periodicConfigs collected) :
    Stored (storeAll networkName readNetwork oneManifest restoring).agentNetworks
        (stored ++ mentions) ∧
      Collected (storeAll networkName readNetwork oneManifest restoring).periodicConfigs
        (collected ++ mentions) := by
  induction h generalizing restoring stored collected with
  | nil =>
      rw [List.append_nil, List.append_nil]
      exact ⟨hstored, hcollected⟩
  | cons hentry _ ih =>
      obtain ⟨hstored, hcollected⟩ := hstored.store hcollected hentry readNetwork
      have hrest := ih _ hstored hcollected
      rw [List.append_assoc, List.append_assoc] at hrest
      exact hrest

theorem get?_overlayDict {ν : Type*} (basis overlay : Dict Name ν) (name : Name) :
    (overlayDict basis overlay).get? name = (overlay.get? name).or (basis.get? name) := by
  have hfold : ∀ (l : List (Name × ν)) (_ : (l.map Prod.fst).Nodup) (basis : Dict Name ν),
      (l.foldl (fun basis entry => basis.set entry.1 entry.2) basis).get? name =
        ((l.find? fun entry => entry.1 = name).map Prod.snd).or (basis.get? name) := by
    intro l
    induction l with
    | nil => exact fun _ _ => rfl
    | cons entry rest ih =>
        intro hnodup basis
        rw [List.map_cons, List.nodup_cons] at hnodup
        rw [List.foldl_cons, ih hnodup.2, List.find?_cons, Dict.get?_set]
        by_cases hname : entry.1 = name
        · have hnone : rest.find? (fun entry => entry.1 = name) = none := by
            rw [List.find?_eq_none]
            intro other hother heq
            refine hnodup.1 (List.mem_map.mpr ⟨other, hother, ?_⟩)
            rw [hname]
            simpa using heq
          rw [hnone, if_pos hname.symm]
          simp [hname]
        · rw [if_neg (Ne.symm hname)]
          simp [hname]
  exact hfold overlay.items overlay.nodup basis

/-- A manifest that is laid over earlier ones. -/
theorem Stored.overlay {basis overlay : AgentNetworks Name Network}
    {earlier later : List (Name × Members)} (hbasis : Stored basis earlier)
    (hoverlay : Stored overlay later) : Stored (basis.overlay overlay) (earlier ++ later) := by
  intro class' name
  have hof : (basis.overlay overlay).of class' =
      overlayDict (basis.of class') (overlay.of class') := by
    cases class' with
    | true => rfl
    | false => rfl
  rw [hof, get?_overlayDict, lastMention_append, Option.map_or, Option.map_or, hbasis class' name,
    hoverlay class' name]

theorem stored_empty : Stored (⟨.empty, .empty⟩ : AgentNetworks Name Network) [] := by
  intro class' name
  cases class' with
  | true => rfl
  | false => rfl

/-- The loop over the manifests. -/
theorem restoreAll_spec {isValid : Json → Bool} {networkName : PyStr → Name}
    {manifestFiles : List (ManifestFile Network)} {restoring restored : Restoring Name Network}
    (h : restoreAll isValid networkName manifestFiles restoring = .ok restored)
    {before : List (Name × Members)} (hstored : Stored restoring.agentNetworks before)
    (hcollected : Collected restoring.periodicConfigs before) :
    Stored restored.agentNetworks (before ++ mentions networkName manifestFiles) ∧
      Collected restored.periodicConfigs (before ++ mentions networkName manifestFiles) := by
  induction manifestFiles generalizing restoring before with
  | nil =>
      obtain rfl := Except.ok.inj h
      rw [mentions, List.flatMap_nil, List.append_nil]
      exact ⟨hstored, hcollected⟩
  | cons manifestFile rest ih =>
      simp only [restoreAll] at h
      split at h
      · cases h
      · rename_i one hone
        obtain ⟨oneManifest, hmanifest, rfl⟩ := exists_of_map_eq_ok hone
        obtain ⟨filtered, hfiltered, rfl⟩ := exists_of_map_eq_ok hmanifest
        rw [filterServed_true] at h
        have hstand := standFor_filterDicts networkName _ hfiltered
        obtain ⟨honeStored, honeCollected⟩ :=
          storeAll_spec manifestFile.readNetwork hstand
            ⟨⟨.empty, .empty⟩, restoring.periodicConfigs⟩ stored_empty hcollected
        have hrest := ih h (hstored.overlay honeStored) honeCollected
        rw [List.nil_append, List.append_assoc] at hrest
        exact hrest

/-! ## What is restored -/

/-- The manifests can be restored exactly when their interactions, if they have
any, are dictionaries. -/
theorem exists_restoreAll_ok (isValid : Json → Bool) (networkName : PyStr → Name)
    (manifestFiles : List (ManifestFile Network)) (restoring : Restoring Name Network) :
    (∃ restored, restoreAll isValid networkName manifestFiles restoring = .ok restored) ↔
      ∀ manifestFile ∈ manifestFiles, ∀ entry ∈ filterKeys manifestFile.rawManifest,
        EntryShaped entry.2 := by
  induction manifestFiles generalizing restoring with
  | nil => simp [restoreAll]
  | cons manifestFile rest ih =>
      rw [List.forall_mem_cons, ← exists_filterDicts_ok isValid]
      simp only [restoreAll, restoreOneManifest, filterManifest]
      cases filterDicts isValid (filterKeys manifestFile.rawManifest) with
      | error e => simp [Except.map]
      | ok filtered =>
          simp only [Except.map, Except.ok.injEq, exists_eq', true_and]
          exact ih _

omit [DecidableEq Name] in
/-- What the last filter leaves of a class is what is served. -/
theorem mem_filterServed [DecidableEq Name] (storage : Dict Name (Option Network)) (name : Name) :
    name ∈ (filterServed false Option.isNone storage.items).map Prod.fst ↔
      (storage.get? name).map Option.isSome = some true := by
  simp only [filterServed, List.mem_map, List.mem_filter, Option.map_eq_some_iff]
  constructor
  · rintro ⟨entry, ⟨hmem, hserved⟩, rfl⟩
    exact ⟨entry.2, Dict.get?_eq_some_iff.mpr hmem, by simpa using hserved⟩
  · rintro ⟨agentNetwork, hget, hsome⟩
    exact ⟨(name, agentNetwork), ⟨Dict.get?_eq_some_iff.mp hget, by simpa using hsome⟩, rfl⟩

/-- The last mention of a network decides whether it is stored, where, and whether
it is periodic. -/
def LaterWins (mentions : List (Name × Members)) (restored : Restored Name Network) : Prop :=
  ∀ name,
    ((name ∈ restored.publicNetworks.map Prod.fst ∨
        name ∈ restored.protectedNetworks.map Prod.fst) ↔
      ∃ last, lastMention anyMention mentions name = some last ∧ serves last = true) ∧
    (∀ last, lastMention anyMention mentions name = some last → serves last = true →
      (name ∈ restored.publicNetworks.map Prod.fst ↔ isPublic last = true) ∧
        (name ∈ restored.protectedNetworks.map Prod.fst ↔ isPublic last = false)) ∧
    (name ∈ restored.periodicConfigs ↔
      (name ∈ restored.publicNetworks.map Prod.fst ∨
        name ∈ restored.protectedNetworks.map Prod.fst) ∧
      ∃ last, lastMention anyMention mentions name = some last ∧ isPeriodic last = true)

/-- The last mention of a network takes back what came before it: what asked for
the other class does not serve, and nothing was periodic unless it is. -/
def TakesBack (mentions : List (Name × Members)) : Prop :=
  ∀ name last, lastMention anyMention mentions name = some last →
    (∀ other, lastMention (fun entry => isPublic entry == !isPublic last) mentions name =
      some other → serves other = false) ∧
    ((∃ mention ∈ mentions, mention.1 = name ∧ isPeriodic mention.2 = true) →
      serves last = true ∧ isPeriodic last = true)

/-- The last mentions decide what the loop leaves exactly when every one of them takes
back what came before it. -/
theorem laterWins_iff {restoring : Restoring Name Network} {mentions : List (Name × Members)}
    (hstored : Stored restoring.agentNetworks mentions)
    (hcollected : Collected restoring.periodicConfigs mentions) :
    LaterWins mentions
      { publicNetworks :=
          filterServed false Option.isNone restoring.agentNetworks.publicNetworks.items
        protectedNetworks :=
          filterServed false Option.isNone restoring.agentNetworks.protectedNetworks.items
        periodicConfigs := restoring.periodicConfigs : Restored Name Network } ↔
      TakesBack mentions := by
  -- a network is served in a class if the last mention that asks for the class serves it
  have hpublic : ∀ name, name ∈ (filterServed false Option.isNone
      restoring.agentNetworks.publicNetworks.items).map Prod.fst ↔
      (lastMention (fun entry => isPublic entry == true) mentions name).map serves =
        some true := by
    intro name
    rw [mem_filterServed, ← hstored true name]
    rfl
  have hprotected : ∀ name, name ∈ (filterServed false Option.isNone
      restoring.agentNetworks.protectedNetworks.items).map Prod.fst ↔
      (lastMention (fun entry => isPublic entry == false) mentions name).map serves =
        some true := by
    intro name
    rw [mem_filterServed, ← hstored false name]
    rfl
  unfold LaterWins TakesBack
  refine forall_congr' fun name => ?_
  simp only [hpublic, hprotected, hcollected name]
  cases hlast : lastMention anyMention mentions name with
  | none =>
      obtain ⟨hnone, hnot⟩ := lastMention_eq_none hlast
      have hperiodic : ¬ ∃ mention ∈ mentions, mention.1 = name ∧ isPeriodic mention.2 = true :=
        fun ⟨mention, hmem, hname, _⟩ => hnot mention hmem hname
      simp [hnone, hperiodic]
  | some last =>
      have hown : lastMention (fun entry => isPublic entry == isPublic last) mentions name =
          some last := lastMention_of_last hlast (by simp)
      have hother : ∀ class' : Bool,
          (∀ other, lastMention (fun entry => isPublic entry == class') mentions name =
            some other → serves other = false) ↔
          ¬ (lastMention (fun entry => isPublic entry == class') mentions name).map serves =
            some true := by
        intro class'
        cases lastMention (fun entry => isPublic entry == class') mentions name with
        | none => simp
        | some other => simp
      have hperiodic : isPeriodic last = true →
          ∃ mention ∈ mentions, mention.1 = name ∧ isPeriodic mention.2 = true :=
        fun hon => ⟨(name, last), (mem_of_lastMention hlast).1, rfl, hon⟩
      simp only [Option.some.injEq, exists_eq_left', forall_eq', hother]
      generalize (∃ mention ∈ mentions, mention.1 = name ∧ isPeriodic mention.2 = true) = periodic
        at hperiodic ⊢
      -- the last mention has asked for one of the classes: the other one has to be free
      cases hclass : isPublic last with
      | true =>
          rw [hclass] at hown
          rw [hown, Option.map_some, Option.some.injEq, Bool.not_true]
          tauto
      | false =>
          rw [hclass] at hown
          rw [hown, Option.map_some, Option.some.injEq, Bool.not_false]
          tauto

/-- A network is restored as its last mention says, for all manifests and all
networks, exactly when the interactions of the manifests are dictionaries and the
last mention of every network takes back what came before it. -/
theorem later_manifests_win_iff (isValid : Json → Bool) (networkName : PyStr → Name)
    (manifestFiles : List (ManifestFile Network)) :
    (∃ restored, restoreFromFiles isValid networkName manifestFiles = .ok restored ∧
      LaterWins (mentions networkName manifestFiles) restored) ↔
      (∀ manifestFile ∈ manifestFiles, ∀ entry ∈ filterKeys manifestFile.rawManifest,
        EntryShaped entry.2) ∧ TakesBack (mentions networkName manifestFiles) := by
  rw [← exists_restoreAll_ok isValid networkName manifestFiles ⟨⟨.empty, .empty⟩, .empty⟩]
  have hcollected : Collected (.empty : Dict Name Json) [] := by simp [Collected]
  unfold restoreFromFiles
  constructor
  · rintro ⟨restored, hrestored, hwins⟩
    obtain ⟨restoring, hrestoring, rfl⟩ := exists_of_map_eq_ok hrestored
    obtain ⟨hstored, hperiodic⟩ := restoreAll_spec hrestoring stored_empty hcollected
    exact ⟨⟨restoring, hrestoring⟩, (laterWins_iff hstored hperiodic).mp hwins⟩
  · rintro ⟨⟨restoring, hrestoring⟩, htakes⟩
    obtain ⟨hstored, hperiodic⟩ := restoreAll_spec hrestoring stored_empty hcollected
    refine ⟨_, ?_, (laterWins_iff hstored hperiodic).mpr htakes⟩
    rw [hrestoring]
    rfl

/-- A manifest of one entry, with numbers for networks. -/
def oneEntry (value : Json) : ManifestFile ℕ where
  rawManifest := [(str "a.hocon", value)]
  readNetwork := fun _ => 0

/-- A network that an earlier manifest serves in public, and a later one does not
serve, is served still: the later one asks for the protected class. -/
theorem disabled_network_still_served :
    ¬ ∀ manifestFiles : List (ManifestFile ℕ), ∃ restored,
      restoreFromFiles (fun _ => true) id manifestFiles = .ok restored ∧
        LaterWins (mentions id manifestFiles) restored := by
  intro h
  obtain ⟨restored, hrestored, hwins⟩ :=
    h [oneEntry (.bool true), oneEntry (.obj [(str "serve", .bool false)])]
  obtain rfl := Except.ok.inj hrestored
  obtain ⟨last, hlast, hserves⟩ := (hwins (str "a.hocon")).1.mp (.inl (by decide))
  obtain rfl := Option.some.inj hlast
  exact absurd hserves (by decide)

end NoraFleet.Manifests
