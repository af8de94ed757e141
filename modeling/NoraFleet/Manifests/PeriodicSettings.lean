import NoraFleet.Manifests.Restoring

/-!
# Periodic settings

The filter of a manifest validates the schedules of periodic interactions, and
the initiator of periodic events makes an iterator of each. The filter expects a
list of dictionaries, validates without the flag that the initiator passes on,
and takes the default schedule as valid.

* `exists_filterInteraction_iff` — what becomes of one interaction;
* `exists_filterEntry_iff` — what becomes of one entry;
* `starts_up_iff` — the filter returns and the initiator starts exactly when
  every entry is fine;
* `bad_interactions_stop_manifest` — entries that are not.
-/

namespace NoraFleet.Manifests

open Base Json

/-! ## The initiator -/

/-- An interaction with its iterator. -/
structure AgentInteraction (CronIter : Type) where
  agentNetwork : PyStr
  interaction : Members
  cronIter : CronIter

/-- `interaction.get("enable", True)`. -/
def isEnabled (interaction : Members) : Bool :=
  ((lookup interaction (str "enable")).getD (.bool true)).truthy

/-- `interaction.get("cron_schedule", DEFAULT_CRON_SCHEDULE)`. -/
def cronSchedule (interaction : Members) : Json :=
  (lookup interaction (str "cron_schedule")).getD defaultCronSchedule

/-- `interaction.get("second_at_beginning", False)`. -/
def secondAtBeginning (interaction : Members) : Json :=
  (lookup interaction (str "second_at_beginning")).getD (.bool false)

variable {CronIter : Type} (croniter : Json → Json → Option CronIter)

/-- One interaction; a disabled one is skipped. -/
def setUpInteraction (agentNetwork : PyStr) :
    Json → Except PyError (Option (AgentInteraction CronIter))
  | .obj interaction =>
      if isEnabled interaction then
        match croniter (cronSchedule interaction) (secondAtBeginning interaction) with
        | none => .error .valueError
        | some cronIter => .ok (some ⟨agentNetwork, interaction, cronIter⟩)
      else .ok none
  | _ => .error .attributeError

/-- The interactions of one network. -/
def setUpConfig (agentNetwork : PyStr) : Json → Except PyError (List (AgentInteraction CronIter))
  | .obj periodicConfig =>
      match ((lookup periodicConfig (str "interactions")).getD (.arr [])).iterate with
      | none => .error .typeError
      | some interactions =>
          (interactions.mapM (setUpInteraction croniter agentNetwork)).map fun list =>
            list.filterMap id
  | _ => .error .attributeError

/-- `set_up_agent_interactions(start_time, periodic_configs)`. -/
def setUpAgentInteractions (periodicConfigs : List (PyStr × Json)) :
    Except PyError (List (AgentInteraction CronIter)) :=
  (periodicConfigs.mapM fun entry => setUpConfig croniter entry.1 entry.2).map List.flatten

/-- The periodic configurations of a filtered manifest. -/
def periodicConfigs (filtered : List (PyStr × Members)) : List (PyStr × Json) :=
  filtered.filterMap fun entry => (periodicConfig entry.2).map fun setting => (entry.1, setting)

/-- `croniter.is_valid(expression)`. -/
def isValid (expression : Json) : Bool := (croniter expression (.bool false)).isSome

/-! ## What is fine -/

/-- An interaction that is a dictionary, and whose schedule, if it is left
enabled, makes an iterator with its own flag. -/
def InteractionFine : Json → Prop
  | .obj interaction =>
      match lookup interaction (str "cron_schedule") with
      | none | some .null =>
          isEnabled interaction = true →
            (croniter defaultCronSchedule (secondAtBeginning interaction)).isSome = true
      | some schedule =>
          isValid croniter schedule = true → isEnabled interaction = true →
            (croniter schedule (secondAtBeginning interaction)).isSome = true
  | _ => False

/-- A setting with interactions that are all fine. -/
def SettingFine (value : Json) : Prop :=
  ∃ interactions,
    ((lookup (expandedSetting value) (str "interactions")).getD (.arr [])).iterate =
      some interactions ∧
    ∀ interaction ∈ interactions, InteractionFine croniter interaction

/-- An entry that is skipped, whose periodic setting is off, or fine. -/
def EntryFine (value : Json) : Prop :=
  ∀ expanded setting, expandedValue value = some expanded →
    lookup expanded (str "periodic") = some setting → setting ≠ .bool false →
    SettingFine croniter setting

/-! ## Interactions -/

/-- A disabled interaction never raises, an enabled one when there is no
iterator. -/
theorem exists_setUpInteraction_iff (agentNetwork : PyStr) (interaction : Members) :
    (∃ r, setUpInteraction croniter agentNetwork (.obj interaction) = .ok r) ↔
      (isEnabled interaction = true →
        (croniter (cronSchedule interaction) (secondAtBeginning interaction)).isSome = true) := by
  simp only [setUpInteraction]
  cases isEnabled interaction with
  | false => simp
  | true =>
      cases croniter (cronSchedule interaction) (secondAtBeginning interaction) with
      | none => simp
      | some cronIter => simp

/-- What the filter leaves of one interaction is set up exactly when the
interaction is fine. -/
theorem exists_filterInteraction_iff (agentNetwork : PyStr) (item : Json) :
    (∃ filtered, filterInteraction (isValid croniter) item = .ok filtered ∧
      ∃ r, setUpInteraction croniter agentNetwork filtered = .ok r) ↔
      InteractionFine croniter item := by
  have hdefault : ∀ interaction,
      (∃ r, setUpInteraction croniter agentNetwork (.obj (Dict.setItems interaction
        (str "cron_schedule") defaultCronSchedule)) = .ok r) ↔
      (isEnabled interaction = true →
        (croniter defaultCronSchedule (secondAtBeginning interaction)).isSome = true) := by
    intro interaction
    rw [exists_setUpInteraction_iff]
    unfold isEnabled cronSchedule secondAtBeginning
    rw [lookup_setItems, lookup_setItems, lookup_setItems, if_neg (by decide), if_pos rfl,
      if_neg (by decide)]
    rfl
  have hgiven : ∀ interaction schedule, lookup interaction (str "cron_schedule") = some schedule →
      ((∃ filtered, (if isValid croniter schedule then Except.ok (.obj interaction)
        else .ok (.obj (Dict.setItems interaction (str "enable") (.bool false))) :
          Except PyError Json) = .ok filtered ∧
        ∃ r, setUpInteraction croniter agentNetwork filtered = .ok r) ↔
      (isValid croniter schedule = true → isEnabled interaction = true →
        (croniter schedule (secondAtBeginning interaction)).isSome = true)) := by
    intro interaction schedule hschedule
    cases isValid croniter schedule with
    | true =>
        have hset := exists_setUpInteraction_iff croniter agentNetwork interaction
        have hcron : cronSchedule interaction = schedule := by
          unfold cronSchedule
          rw [hschedule]
          rfl
        rw [hcron] at hset
        simpa using hset
    | false =>
        -- it is disabled, so no iterator is made
        have hset := exists_setUpInteraction_iff croniter agentNetwork
          (Dict.setItems interaction (str "enable") (.bool false))
        have hdisabled :
            isEnabled (Dict.setItems interaction (str "enable") (.bool false)) = false := by
          unfold isEnabled
          rw [lookup_setItems, if_pos rfl]
          rfl
        rw [hdisabled] at hset
        simpa using hset
  cases item with
  | obj interaction =>
      simp only [filterInteraction, InteractionFine]
      cases hschedule : lookup interaction (str "cron_schedule") with
      | none => simpa using hdefault interaction
      | some schedule =>
          cases schedule with
          | null => simpa using hdefault interaction
          | _ => exact hgiven interaction _ hschedule
  | _ => simp [filterInteraction, InteractionFine]

/-! ## Settings -/

/-- The filtered interactions are what a loop over them goes through. -/
theorem iterate_filtered {isValid : Json → Bool} {interactions : Json} {items filtered : List Json}
    (hitems : interactions.iterate = some items)
    (hfiltered : items.mapM (filterInteraction isValid) = .ok filtered) :
    (withItems filtered interactions).iterate = some filtered := by
  have hnone : ∀ (text : PyStr) (rest : List Json),
      (Json.str text :: rest).mapM (filterInteraction isValid) ≠ .ok filtered := by
    intro text rest h
    rw [List.mapM_cons] at h
    cases h
  cases interactions with
  | arr _ => rfl
  | obj members =>
      obtain rfl := Option.some.inj hitems
      cases members with
      | nil => exact congrArg some (Except.ok.inj hfiltered)
      | cons member rest => exact absurd hfiltered (hnone _ _)
  | str s =>
      obtain rfl := Option.some.inj hitems
      cases s with
      | nil => exact congrArg some (Except.ok.inj hfiltered)
      | cons c rest => exact absurd hfiltered (hnone _ _)
  | _ => cases hitems

/-- The set-up of a network whose interactions are known. -/
theorem exists_setUpConfig_iff (agentNetwork : PyStr) {config : Members} {items : List Json}
    (hitems : ((lookup config (str "interactions")).getD (.arr [])).iterate = some items) :
    (∃ list, setUpConfig croniter agentNetwork (.obj config) = .ok list) ↔
      ∀ item ∈ items, ∃ r, setUpInteraction croniter agentNetwork item = .ok r := by
  have hloop := mapM_ok_iff (setUpInteraction croniter agentNetwork) (fun _ => True) items
  simp only [and_true, implies_true] at hloop
  rw [← hloop]
  simp only [setUpConfig, hitems]
  cases items.mapM (setUpInteraction croniter agentNetwork) with
  | error e => simp [Except.map]
  | ok list => simp [Except.map]

/-- What the filter leaves of the interactions is set up exactly when the setting
is fine. -/
theorem exists_filterInteractions_iff (agentNetwork : PyStr) (setting : Json) :
    (∃ filtered, filterInteractions (isValid croniter)
        ((lookup (expandedSetting setting) (str "interactions")).getD (.arr [])) = .ok filtered ∧
      ∃ list, setUpConfig croniter agentNetwork
        (.obj (Dict.setItems (expandedSetting setting) (str "interactions") filtered)) = .ok list) ↔
      SettingFine croniter setting := by
  unfold SettingFine filterInteractions
  generalize (lookup (expandedSetting setting) (str "interactions")).getD (.arr []) = interactions
  cases hitems : interactions.iterate with
  | none => simp
  | some items =>
      have hconfig : ∀ filtered itemsFiltered, Json.iterate filtered = some itemsFiltered →
          ((∃ list, setUpConfig croniter agentNetwork (.obj (Dict.setItems
            (expandedSetting setting) (str "interactions") filtered)) = .ok list) ↔
          ∀ item ∈ itemsFiltered, ∃ r, setUpInteraction croniter agentNetwork item = .ok r) := by
        intro filtered itemsFiltered hiterate
        refine exists_setUpConfig_iff croniter agentNetwork ?_
        rw [lookup_setItems, if_pos rfl]
        exact hiterate
      have hloop := mapM_ok_iff (filterInteraction (isValid croniter))
        (fun filtered => ∃ r, setUpInteraction croniter agentNetwork filtered = .ok r) items
      simp only [exists_filterInteraction_iff] at hloop
      simp only [Option.some.injEq, exists_eq_left']
      rw [← hloop]
      cases hfiltered : items.mapM (filterInteraction (isValid croniter)) with
      | error e => simp [Except.map]
      | ok itemsFiltered =>
          have hset := hconfig _ _ (iterate_filtered hitems hfiltered)
          simp only [Except.map, Except.ok.injEq, exists_eq_left']
          exact hset

/-! ## Entries -/

/-- The initiator can set the interactions of an entry up, if it has any. -/
def EntryStarts (agentNetwork : PyStr) (manifestDict : Members) : Prop :=
  ∀ setting, periodicConfig manifestDict = some setting →
    ∃ list, setUpConfig croniter agentNetwork setting = .ok list

/-- What the filter makes of an entry starts exactly when the entry is fine. -/
theorem exists_filterEntry_iff (agentNetwork : PyStr) {value : Json} {expanded : Members}
    (hexpanded : expandedValue value = some expanded) :
    (∃ entry, filterPeriodic (isValid croniter) (filterMcp expanded) = .ok entry ∧
      EntryStarts croniter agentNetwork entry) ↔ EntryFine croniter value := by
  have hperiodic := lookup_filterMcp expanded (str "periodic") (by decide) (by decide)
  have hfine : EntryFine croniter value ↔ ∀ setting,
      lookup (filterMcp expanded) (str "periodic") = some setting → setting ≠ .bool false →
      SettingFine croniter setting := by
    rw [hperiodic]
    constructor
    · exact fun h setting => h expanded setting hexpanded
    · intro h other setting hother
      obtain rfl := Option.some.inj (hexpanded.symm.trans hother)
      exact h setting
  rw [hfine]
  by_cases hon : ∃ setting, lookup (filterMcp expanded) (str "periodic") = some setting ∧
      setting ≠ .bool false
  · obtain ⟨setting, hsetting, hon⟩ := hon
    rw [filterPeriodic_on hsetting hon]
    have hstarts : ∀ interactions, EntryStarts croniter agentNetwork
        (Dict.setItems (filterMcp expanded) (str "periodic")
          (.obj (Dict.setItems (expandedSetting setting) (str "interactions") interactions))) ↔
        ∃ list, setUpConfig croniter agentNetwork (.obj (Dict.setItems (expandedSetting setting)
          (str "interactions") interactions)) = .ok list := by
      intro interactions
      unfold EntryStarts
      rw [periodicConfig_set_obj _ (setItems_ne_nil _ _ _)]
      simp
    have hiff := exists_filterInteractions_iff croniter agentNetwork setting
    constructor
    · rintro ⟨entry, hentry, hentryStarts⟩ other hother _
      obtain rfl := Option.some.inj (hsetting.symm.trans hother)
      obtain ⟨interactions, hinteractions, rfl⟩ := exists_of_map_eq_ok hentry
      exact hiff.mp ⟨interactions, hinteractions, (hstarts interactions).mp hentryStarts⟩
    · intro h
      obtain ⟨interactions, hinteractions, hlist⟩ := hiff.mpr (h setting hsetting hon)
      refine ⟨_, ?_, (hstarts interactions).mpr hlist⟩
      rw [hinteractions]
      rfl
  · have hoff : ∀ setting, lookup (filterMcp expanded) (str "periodic") = some setting →
        setting = .bool false := by
      intro setting hsetting
      by_contra hne
      exact hon ⟨setting, hsetting, hne⟩
    obtain ⟨entry, hentry, hperiodicOff⟩ := filterPeriodic_off (isValid croniter) hoff
    refine iff_of_true ⟨entry, hentry, ?_⟩ fun setting hsetting hne =>
      absurd (hoff setting hsetting) hne
    intro setting hsetting
    unfold periodicConfig at hsetting
    rw [hperiodicOff] at hsetting
    cases hsetting

/-! ## Manifests -/

/-- What the filter returns, and that the initiator starts with it, for a whole
manifest. -/
theorem exists_filterDicts_iff (manifest : Members) :
    (∃ filtered, filterDicts (isValid croniter) manifest = .ok filtered ∧
      ∀ entry ∈ filtered, EntryStarts croniter entry.1 entry.2) ↔
      ∀ entry ∈ manifest, EntryFine croniter entry.2 := by
  refine @exists_filterDicts_forall (isValid croniter) (EntryStarts croniter)
    (fun _ value => EntryFine croniter value) ?_ ?_ manifest
  · intro key value hnone expanded setting hsome
    rw [hnone] at hsome
    cases hsome
  · intro key value expanded hexpanded
    exact exists_filterEntry_iff croniter key hexpanded

/-- The filter keeps every entry that is a boolean or a dictionary. -/
theorem keys_filterDicts {isValid : Json → Bool} (manifest : Members)
    {filtered : List (PyStr × Members)} (h : filterDicts isValid manifest = .ok filtered) :
    filtered.map Prod.fst =
      (manifest.filter fun entry => (expandedValue entry.2).isSome).map Prod.fst := by
  induction manifest generalizing filtered with
  | nil =>
      obtain rfl := Except.ok.inj h
      rfl
  | cons entry rest ih =>
      obtain ⟨key, value⟩ := entry
      simp only [filterDicts] at h
      rw [List.filter_cons]
      cases hexpanded : expandedValue value with
      | none =>
          rw [hexpanded] at h
          exact ih h
      | some expanded =>
          rw [hexpanded] at h
          dsimp only at h
          split at h
          · cases h
          · obtain ⟨others, hothers, rfl⟩ := exists_of_map_eq_ok h
            rw [List.map_cons, ih hothers]
            rfl

/-- The initiator can set up what the filter returns if it can set up every
entry of it. -/
theorem exists_setUpAgentInteractions_iff (filtered : List (PyStr × Members)) :
    (∃ list, setUpAgentInteractions croniter (periodicConfigs filtered) = .ok list) ↔
      ∀ entry ∈ filtered, EntryStarts croniter entry.1 entry.2 := by
  have hloop := mapM_ok_iff (fun entry => setUpConfig croniter entry.1 entry.2) (fun _ => True)
    (periodicConfigs filtered)
  simp only [and_true, implies_true] at hloop
  have hset : (∃ list, setUpAgentInteractions croniter (periodicConfigs filtered) = .ok list) ↔
      ∃ r, (periodicConfigs filtered).mapM (fun entry => setUpConfig croniter entry.1 entry.2) =
        .ok r := by
    unfold setUpAgentInteractions
    cases (periodicConfigs filtered).mapM fun entry => setUpConfig croniter entry.1 entry.2 with
    | error e => simp [Except.map]
    | ok list => simp [Except.map]
  rw [hset, hloop]
  unfold periodicConfigs EntryStarts
  simp only [List.mem_filterMap, Option.map_eq_some_iff]
  constructor
  · intro h entry hentry setting hsetting
    exact h (entry.1, setting) ⟨entry, hentry, setting, hsetting, rfl⟩
  · rintro h _ ⟨entry, hentry, setting, hsetting, rfl⟩
    exact h entry hentry setting hsetting

/-- The filter returns, with every entry that is a boolean or a dictionary, and
the initiator sets up all that it leaves enabled. -/
def StartsUp (manifest : Members) : Prop :=
  ∃ filtered, filterDicts (isValid croniter) manifest = .ok filtered ∧
    filtered.map Prod.fst =
      (manifest.filter fun entry => (expandedValue entry.2).isSome).map Prod.fst ∧
    ∃ list, setUpAgentInteractions croniter (periodicConfigs filtered) = .ok list

/-- A manifest starts up exactly when every entry is fine: its interactions are
dictionaries in something iterable, and every schedule of an enabled one, valid
or the default, makes an iterator with the interaction's own flag. -/
theorem starts_up_iff (manifest : Members) :
    StartsUp croniter manifest ↔ ∀ entry ∈ manifest, EntryFine croniter entry.2 := by
  rw [← exists_filterDicts_iff]
  constructor
  · rintro ⟨filtered, hfiltered, -, hlist⟩
    exact ⟨filtered, hfiltered, (exists_setUpAgentInteractions_iff croniter filtered).mp hlist⟩
  · rintro ⟨filtered, hfiltered, hstarts⟩
    exact ⟨filtered, hfiltered, keys_filterDicts manifest hfiltered,
      (exists_setUpAgentInteractions_iff croniter filtered).mpr hstarts⟩

/-- A manifest in which one entry has no list of interactions, and another is
plain. -/
def noInteractions : Members :=
  [(str "a.hocon", .obj [(str "periodic", .obj [(str "interactions", .null)])]),
    (str "b.hocon", .bool true)]

/-- Not every manifest starts up, though there is an iterator for every schedule and flag:
the filter raises on interactions that are null. -/
theorem bad_interactions_stop_manifest :
    ¬ ∀ manifest, StartsUp (fun schedule flag => some (schedule, flag)) manifest := by
  intro h
  obtain ⟨filtered, hfiltered, -, -⟩ := h noInteractions
  cases hfiltered

end NoraFleet.Manifests
