import NoraFleet.Base.Flow
import NoraFleet.Base.Json

/-!
# The filters of a manifest

A manifest maps network keys to entries, booleans or dictionaries. A chain of
filters strips the keys, makes dictionaries of the booleans, and fills in what a
dictionary leaves out.

Whether `croniter` takes a schedule is a parameter: it is not part of the
program.
-/

namespace NoraFleet.Manifests

open Base Json

/-- A dictionary, in the order of its keys. -/
abbrev Members := List (PyStr × Json)

/-! ## Keys and entries -/

/-- `ManifestKeyConfigFilter.filter_config`. -/
def filterKeys (basisConfig : Members) : Members :=
  basisConfig.foldl (fun filtered entry => Dict.setItems filtered (strip entry.1) entry.2) []

/-- The dictionary that an entry stands for; there is none for what is neither a
boolean nor a dictionary. -/
def expandedValue : Json → Option Members
  | .bool value => some [
      (str "serve", .bool value),
      (str "public", .bool value),
      (str "mcp", .bool true),
      (str "periodic", .bool false)]
  | .obj value => some value
  | _ => none

/-- `McpManifestDictConfigFilter.filter_config`. -/
def filterMcp (basisConfig : Members) : Members :=
  let basisConfig :=
    if (lookup basisConfig (str "mcp")).isNone then
      Dict.setItems basisConfig (str "mcp") (.bool false)
    else basisConfig
  if ((lookup basisConfig (str "mcp")).getD .null).truthy then
    Dict.setItems basisConfig (str "public") (.bool true)
  else basisConfig

/-! ## Periodic settings -/

/-- `DEFAULT_CRON_SCHEDULE`. -/
def defaultCronSchedule : Json := .str (str "*/1 * * * * 0")

/-- The interaction of the template. -/
def templateInteraction (cronSchedule : Json) : Json :=
  .obj [
    (str "enable", .bool true),
    (str "cron_schedule", cronSchedule),
    (str "second_at_beginning", .bool false),
    (str "text", .str (str "Do your thing")),
    (str "sly_data", .obj []),
    (str "metadata", .obj [(str "user_id", .str (str "system"))])]

/-- The template with the interactions in it. -/
def template (interactions : Json) : Members := [(str "interactions", interactions)]

/-- What the setting makes of the template. -/
def expandedSetting : Json → Members
  | .str cronSchedule => template (.arr [templateInteraction (.str cronSchedule)])
  | .obj value =>
      if (lookup value (str "interactions")).isNone then template (.arr [.obj value])
      else
        value.foldl (fun setting entry => Dict.setItems setting entry.1 entry.2)
          (template (.arr [templateInteraction defaultCronSchedule]))
  | _ => template (.arr [templateInteraction defaultCronSchedule])

/-- The late validation of one interaction. -/
def filterInteraction (isValid : Json → Bool) : Json → Except PyError Json
  | .obj interaction =>
      match lookup interaction (str "cron_schedule") with
      | none | some .null =>
          .ok (.obj (Dict.setItems interaction (str "cron_schedule") defaultCronSchedule))
      | some cronSchedule =>
          if isValid cronSchedule then .ok (.obj interaction)
          else .ok (.obj (Dict.setItems interaction (str "enable") (.bool false)))
  | _ => .error .attributeError

/-- The interactions with their items as they are after the loop. Only a list has
items that the loop can go through. -/
def withItems (items : List Json) : Json → Json
  | .arr _ => .arr items
  | other => other

/-- The late validation of all interactions. -/
def filterInteractions (isValid : Json → Bool) (interactions : Json) : Except PyError Json :=
  match interactions.iterate with
  | none => .error .typeError
  | some items =>
      (items.mapM (filterInteraction isValid)).map fun filtered => withItems filtered interactions

/-- `PeriodicManifestDictConfigFilter.filter_config`. -/
def filterPeriodic (isValid : Json → Bool) (basisConfig : Members) : Except PyError Members :=
  match lookup basisConfig (str "periodic") with
  | none => .ok (Dict.setItems basisConfig (str "periodic") (.bool false))
  | some (.bool false) => .ok basisConfig
  | some value =>
      let setting := expandedSetting value
      let interactions := (lookup setting (str "interactions")).getD (.arr [])
      (filterInteractions isValid interactions).map fun interactions =>
        Dict.setItems basisConfig (str "periodic")
          (.obj (Dict.setItems setting (str "interactions") interactions))

/-! ## Manifests -/

/-- `ManifestDictConfigFilter.filter_config`. -/
def filterDicts (isValid : Json → Bool) : Members → Except PyError (List (PyStr × Members))
  | [] => .ok []
  | (key, value) :: rest =>
      match expandedValue value with
      | none => filterDicts isValid rest
      | some expanded =>
          match filterPeriodic isValid (filterMcp expanded) with
          | .error e => .error e
          | .ok entry => (filterDicts isValid rest).map fun filtered => (key, entry) :: filtered

/-- `ServedManifestConfigFilter.filter_config`, of values that are skipped when
`skip` says so. -/
def filterServed {Key Value : Type*} (entryForSkipped : Bool) (skip : Value → Bool)
    (basisConfig : List (Key × Value)) : List (Key × Value) :=
  basisConfig.filter fun entry => !skip entry.2 || entryForSkipped

/-- `manifest_dict.get("serve", False)`. -/
def serves (manifestDict : Members) : Bool :=
  ((lookup manifestDict (str "serve")).getD (.bool false)).truthy

/-- `manifest_dict.get("public")`, as a condition. -/
def isPublicClass (manifestDict : Members) : Bool :=
  ((lookup manifestDict (str "public")).getD .null).truthy

/-- The periodic setting of a filtered entry, if it is on. -/
def periodicConfig (manifestDict : Members) : Option Json :=
  match lookup manifestDict (str "periodic") with
  | some setting => if setting.truthy then some setting else none
  | none => none

/-- `ManifestFilterChain.filter_config`. -/
def filterManifest (isValid : Json → Bool) (rawManifest : Members) :
    Except PyError (List (PyStr × Members)) :=
  (filterDicts isValid (filterKeys rawManifest)).map
    (filterServed true fun manifestDict => !serves manifestDict)

/-! ## What the filters keep -/

/-- The filter for MCP touches no other key. -/
theorem lookup_filterMcp (basisConfig : Members) (key : PyStr) (hmcp : key ≠ str "mcp")
    (hpublic : key ≠ str "public") :
    lookup (filterMcp basisConfig) key = lookup basisConfig key := by
  have hfilled : lookup (if (lookup basisConfig (str "mcp")).isNone then
      Dict.setItems basisConfig (str "mcp") (.bool false) else basisConfig) key =
      lookup basisConfig key := by
    split
    · rw [lookup_setItems, if_neg hmcp]
    · rfl
  unfold filterMcp
  dsimp only
  generalize (if (lookup basisConfig (str "mcp")).isNone then
    Dict.setItems basisConfig (str "mcp") (.bool false) else basisConfig) = filled at hfilled ⊢
  split
  · rw [lookup_setItems, if_neg hpublic, hfilled]
  · exact hfilled

/-- A setting that is not `False` is expanded and validated. -/
theorem filterPeriodic_on {isValid : Json → Bool} {basisConfig : Members} {setting : Json}
    (h : lookup basisConfig (str "periodic") = some setting) (hon : setting ≠ .bool false) :
    filterPeriodic isValid basisConfig =
      (filterInteractions isValid
        ((lookup (expandedSetting setting) (str "interactions")).getD (.arr []))).map
        fun interactions => Dict.setItems basisConfig (str "periodic")
          (.obj (Dict.setItems (expandedSetting setting) (str "interactions") interactions)) := by
  unfold filterPeriodic
  rw [h]
  cases setting with
  | bool b =>
      cases b with
      | true => rfl
      | false => exact absurd rfl hon
  | _ => rfl

/-- A setting that is missing or `False` is off. -/
theorem filterPeriodic_off (isValid : Json → Bool) {basisConfig : Members}
    (h : ∀ setting, lookup basisConfig (str "periodic") = some setting → setting = .bool false) :
    ∃ entry, filterPeriodic isValid basisConfig = .ok entry ∧
      lookup entry (str "periodic") = some (.bool false) := by
  unfold filterPeriodic
  cases hsetting : lookup basisConfig (str "periodic") with
  | none =>
      refine ⟨_, rfl, ?_⟩
      rw [lookup_setItems, if_pos rfl]
  | some setting =>
      obtain rfl := h setting hsetting
      exact ⟨basisConfig, rfl, hsetting⟩

/-- A setting that is expanded is on. -/
theorem periodicConfig_set_obj (manifestDict : Members) {setting : Members} (h : setting ≠ []) :
    periodicConfig (Dict.setItems manifestDict (str "periodic") (.obj setting)) =
      some (.obj setting) := by
  unfold periodicConfig
  rw [lookup_setItems, if_pos rfl]
  cases setting with
  | nil => exact absurd rfl h
  | cons member rest => rfl

/-- Where skipped entries have an entry, the filter for what is served drops
nothing. -/
theorem filterServed_true {Key Value : Type*} (skip : Value → Bool)
    (basisConfig : List (Key × Value)) : filterServed true skip basisConfig = basisConfig := by
  simp [filterServed]

/-- The filter of periodic settings touches no other key. -/
theorem lookup_filterPeriodic {isValid : Json → Bool} {basisConfig entry : Members}
    (h : filterPeriodic isValid basisConfig = .ok entry) {key : PyStr}
    (hkey : key ≠ str "periodic") :
    lookup entry key = lookup basisConfig key := by
  unfold filterPeriodic at h
  split at h
  · obtain rfl := Except.ok.inj h
    rw [lookup_setItems, if_neg hkey]
  · obtain rfl := Except.ok.inj h
    rfl
  · obtain ⟨interactions, -, rfl⟩ := exists_of_map_eq_ok h
    rw [lookup_setItems, if_neg hkey]

/-- The filter for MCP makes what is an MCP tool public. -/
theorem isPublicClass_filterMcp (basisConfig : Members) :
    isPublicClass (filterMcp basisConfig) = (isPublicClass basisConfig ||
      ((lookup basisConfig (str "mcp")).getD .null).truthy) := by
  have hmcp : ((lookup (if (lookup basisConfig (str "mcp")).isNone then
      Dict.setItems basisConfig (str "mcp") (.bool false) else basisConfig) (str "mcp")).getD
      .null).truthy = ((lookup basisConfig (str "mcp")).getD .null).truthy := by
    cases hlookup : lookup basisConfig (str "mcp") with
    | none =>
        simp only [Option.isNone_none, if_true]
        rw [lookup_setItems, if_pos rfl]
        rfl
    | some mcp =>
        rw [Option.isNone_some, if_neg Bool.false_ne_true, hlookup]
  have hpublic : isPublicClass (if (lookup basisConfig (str "mcp")).isNone then
      Dict.setItems basisConfig (str "mcp") (.bool false) else basisConfig) =
      isPublicClass basisConfig := by
    unfold isPublicClass
    split
    · rw [lookup_setItems, if_neg (by decide)]
    · rfl
  unfold filterMcp
  dsimp only
  rw [hmcp]
  generalize (if (lookup basisConfig (str "mcp")).isNone then
    Dict.setItems basisConfig (str "mcp") (.bool false) else basisConfig) = filled at hpublic ⊢
  cases ((lookup basisConfig (str "mcp")).getD .null).truthy with
  | true =>
      rw [if_pos rfl, Bool.or_true]
      unfold isPublicClass
      rw [lookup_setItems, if_pos rfl]
      rfl
  | false => rw [if_neg Bool.false_ne_true, Bool.or_false, hpublic]

/-- The filter of periodic settings leaves a setting on if it is not `False`. -/
theorem isSome_periodicConfig_filterPeriodic {isValid : Json → Bool} {basisConfig entry : Members}
    (h : filterPeriodic isValid basisConfig = .ok entry) :
    (periodicConfig entry).isSome = true ↔
      ∃ setting, lookup basisConfig (str "periodic") = some setting ∧ setting ≠ .bool false := by
  by_cases hon : ∃ setting, lookup basisConfig (str "periodic") = some setting ∧
      setting ≠ .bool false
  · refine iff_of_true ?_ hon
    obtain ⟨setting, hsetting, hne⟩ := hon
    rw [filterPeriodic_on hsetting hne] at h
    obtain ⟨interactions, -, rfl⟩ := exists_of_map_eq_ok h
    rw [periodicConfig_set_obj _ (setItems_ne_nil _ _ _)]
    rfl
  · have hoff : ∀ setting, lookup basisConfig (str "periodic") = some setting →
        setting = .bool false := by
      intro setting hsetting
      by_contra hne
      exact hon ⟨setting, hsetting, hne⟩
    obtain ⟨off, hoffEntry, hlookup⟩ := filterPeriodic_off isValid hoff
    obtain rfl := Except.ok.inj (h.symm.trans hoffEntry)
    refine iff_of_false ?_ hon
    unfold periodicConfig
    rw [hlookup]
    simp [truthy]

/-! ## When the filters return -/

/-- What a loop over interactions can go through: dictionaries. -/
def InteractionsShaped (interactions : Json) : Prop :=
  ∃ items, interactions.iterate = some items ∧ ∀ item ∈ items, ∃ members, item = .obj members

/-- The filter returns exactly when it finds dictionaries. -/
theorem exists_filterInteractions_ok (isValid : Json → Bool) (interactions : Json) :
    (∃ filtered, filterInteractions isValid interactions = .ok filtered) ↔
      InteractionsShaped interactions := by
  have hitem : ∀ item, (∃ filtered, filterInteraction isValid item = .ok filtered) ↔
      ∃ members, item = .obj members := by
    intro item
    cases item with
    | obj members =>
        refine iff_of_true ?_ ⟨members, rfl⟩
        simp only [filterInteraction]
        split
        · exact ⟨_, rfl⟩
        · exact ⟨_, rfl⟩
        · split
          · exact ⟨_, rfl⟩
          · exact ⟨_, rfl⟩
    | _ => simp [filterInteraction]
  unfold filterInteractions InteractionsShaped
  cases interactions.iterate with
  | none => simp
  | some items =>
      have hloop := mapM_ok_iff (filterInteraction isValid) (fun _ => True) items
      simp only [and_true, implies_true, hitem] at hloop
      simp only [Option.some.injEq, exists_eq_left']
      rw [← hloop]
      cases items.mapM (filterInteraction isValid) with
      | error e => simp [Except.map]
      | ok filtered => simp [Except.map]

/-- The interactions of an entry, if it has any, are dictionaries. -/
def EntryShaped (value : Json) : Prop :=
  ∀ expanded setting, expandedValue value = some expanded →
    lookup expanded (str "periodic") = some setting → setting ≠ .bool false →
    InteractionsShaped ((lookup (expandedSetting setting) (str "interactions")).getD (.arr []))

theorem exists_filterPeriodic_ok (isValid : Json → Bool) {value : Json} {expanded : Members}
    (hexpanded : expandedValue value = some expanded) :
    (∃ entry, filterPeriodic isValid (filterMcp expanded) = .ok entry) ↔ EntryShaped value := by
  have hperiodic := lookup_filterMcp expanded (str "periodic") (by decide) (by decide)
  by_cases hon : ∃ setting, lookup expanded (str "periodic") = some setting ∧
      setting ≠ .bool false
  · obtain ⟨setting, hsetting, hon⟩ := hon
    rw [filterPeriodic_on (hperiodic.trans hsetting) hon]
    have hshaped := exists_filterInteractions_ok isValid
      ((lookup (expandedSetting setting) (str "interactions")).getD (.arr []))
    constructor
    · rintro ⟨entry, hentry⟩ other otherSetting hother hotherSetting _
      obtain rfl := Option.some.inj (hexpanded.symm.trans hother)
      obtain rfl := Option.some.inj (hsetting.symm.trans hotherSetting)
      obtain ⟨interactions, hinteractions, -⟩ := exists_of_map_eq_ok hentry
      exact hshaped.mp ⟨interactions, hinteractions⟩
    · intro h
      obtain ⟨interactions, hinteractions⟩ :=
        hshaped.mpr (h expanded setting hexpanded hsetting hon)
      rw [hinteractions]
      exact ⟨_, rfl⟩
  · have hoff : ∀ setting, lookup (filterMcp expanded) (str "periodic") = some setting →
        setting = .bool false := by
      intro setting hsetting
      by_contra hne
      exact hon ⟨setting, hperiodic.symm.trans hsetting, hne⟩
    obtain ⟨entry, hentry, -⟩ := filterPeriodic_off isValid hoff
    refine iff_of_true ⟨entry, hentry⟩ fun other setting hother hsetting hne => ?_
    obtain rfl := Option.some.inj (hexpanded.symm.trans hother)
    exact absurd ⟨setting, hsetting, hne⟩ hon

/-- What is made of a manifest has a property when what is made of every entry has it; entries
that are skipped need nothing. -/
theorem exists_filterDicts_forall (isValid : Json → Bool) {Good : PyStr → Members → Prop}
    {Fine : PyStr → Json → Prop}
    (hskipped : ∀ key value, expandedValue value = none → Fine key value)
    (hentry : ∀ key value expanded, expandedValue value = some expanded →
      ((∃ entry, filterPeriodic isValid (filterMcp expanded) = .ok entry ∧ Good key entry) ↔
        Fine key value))
    (manifest : Members) :
    (∃ filtered, filterDicts isValid manifest = .ok filtered ∧
      ∀ entry ∈ filtered, Good entry.1 entry.2) ↔
      ∀ entry ∈ manifest, Fine entry.1 entry.2 := by
  induction manifest with
  | nil => simp [filterDicts]
  | cons entry rest ih =>
      obtain ⟨key, value⟩ := entry
      rw [List.forall_mem_cons, ← ih]
      simp only [filterDicts]
      cases hexpanded : expandedValue value with
      | none => simp [hskipped key value hexpanded]
      | some expanded =>
          rw [← hentry key value expanded hexpanded]
          dsimp only
          cases filterPeriodic isValid (filterMcp expanded) with
          | error e => simp
          | ok filteredEntry =>
              cases filterDicts isValid rest with
              | error e => simp [Except.map]
              | ok filtered =>
                  simp only [Except.map, Except.ok.injEq, exists_eq_left', List.forall_mem_cons]

/-- A manifest can be filtered exactly when every entry can. -/
theorem exists_filterDicts_ok (isValid : Json → Bool) (manifest : Members) :
    (∃ filtered, filterDicts isValid manifest = .ok filtered) ↔
      ∀ entry ∈ manifest, EntryShaped entry.2 := by
  have hfiltered := @exists_filterDicts_forall isValid (fun _ _ => True)
    (fun _ value => EntryShaped value) (by
      intro key value hnone expanded setting hsome
      rw [hnone] at hsome
      cases hsome) (by
      intro key value expanded hexpanded
      simpa using exists_filterPeriodic_ok isValid hexpanded) manifest
  simpa using hfiltered

end NoraFleet.Manifests
