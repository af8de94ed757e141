import NoraFleet.Messages.SlyDataRedactor

/-!
# Sly data in traces

A trace shows the keys of the sly data, and the values of those keys that the
redactor lets through. The redactor says under which names it lets them through,
and those are compared with the keys of the data: a key that another is translated
to is shown with its own value.

* `discreet_iff` — when values that are not let through have no influence.
-/

namespace NoraFleet.Messages

open Base Networks

/-- `TracedMessage.translate_for_trace(key, value)`, of dictionaries. -/
def TracedMessage.translateForTrace (key : PyStr) (value : Option SlyData) :
    Option (PyStr × SlyData) :=
  match value with
  | none => none
  | some value => if value.items.isEmpty then none else some (key, value)

namespace AgentFrameworkMessage

/-- The keys of a dictionary, if there is one. -/
def keysOf : Option SlyData → List PyStr
  | none => []
  | some redacted => redacted.keys

/-- The set of keys whose values are let through. -/
def allowSlyDataKeys (extractorGet : ExtractorGet) (redactor : Option SlyDataRedactor)
    (newValue : SlyData) : Except PyError (List PyStr) :=
  match redactor with
  | none => .ok []
  | some redactor =>
      match redactor.filterConfig extractorGet newValue with
      | .error e => .error e
      | .ok redacted => .ok (keysOf redacted)

/-- Keep the keys, and the values of those that are allowed. -/
def redactValues (allowed : List PyStr) (value : SlyData) : SlyData where
  items := value.items.map fun entry =>
    (entry.1, if entry.1 ∈ allowed then entry.2 else .str (str "<redacted>"))
  nodup := by
    rw [List.map_map]
    exact value.nodup

/-- `translate_for_trace(key, value)`, of dictionaries. -/
def translateForTrace (extractorGet : ExtractorGet) (redactor : Option SlyDataRedactor)
    (key : PyStr) (value : Option SlyData) : Except PyError (Option (PyStr × SlyData)) :=
  match TracedMessage.translateForTrace key value with
  | none => .ok none
  | some (newKey, newValue) =>
      if newKey = [] then .ok none
      else if newKey = str "sly_data" then
        match allowSlyDataKeys extractorGet redactor newValue with
        | .error e => .error e
        | .ok allowed => .ok (some (newKey, redactValues allowed newValue))
      else .ok (some (newKey, newValue))

end AgentFrameworkMessage

/-- The redactor that a chat session makes for its traces. -/
def tracingRedactor (frontManSpec : Json) : SlyDataRedactor :=
  ⟨frontManSpec, [str "allow.to_tracing.sly_data"], false⟩

section Influence

variable (extractorGet : ExtractorGet) (frontManSpec : Json)

/-- The trace of sly data. -/
def trace (slyData : SlyData) : Except PyError (Option (PyStr × SlyData)) :=
  AgentFrameworkMessage.translateForTrace extractorGet (some (tracingRedactor frontManSpec))
    (str "sly_data") (some slyData)

/-- The setting of an agent for its traces lets a key through. -/
def tracesKey (key : PyStr) : Bool :=
  match (tracingRedactor frontManSpec).allowDict extractorGet with
  | .error _ => false
  | .ok setting => letsThrough setting key

/-- Equal dictionaries: the same values under the same keys, in any order. -/
def SameItems (d e : SlyData) : Prop := ∀ key, d.get? key = e.get? key

/-- Equal traces. -/
def SameTrace (first second : Except PyError (Option (PyStr × SlyData))) : Prop :=
  match first, second with
  | .error e, .error e' => e = e'
  | .ok none, .ok none => True
  | .ok (some (key, value)), .ok (some (key', value')) => key = key' ∧ SameItems value value'
  | _, _ => False

/-- Sly data with the same keys, and the same values under those that are let through. -/
structure Agrees (slyData other : SlyData) : Prop where
  keys : ∀ key, key ∈ other ↔ key ∈ slyData
  values : ∀ key, tracesKey extractorGet frontManSpec key = true →
    other.get? key = slyData.get? key

/-- Nothing that is not let through has an influence on the trace. -/
def Discreet (slyData : SlyData) : Prop :=
  ∀ other, Agrees extractorGet frontManSpec slyData other →
    SameTrace (trace extractorGet frontManSpec other) (trace extractorGet frontManSpec slyData)

/-- A key that is given is let through under the name of another key of the data, which
is not let through. -/
def translatesToPrivate (slyData : SlyData) : Bool :=
  match (tracingRedactor frontManSpec).allowDict extractorGet with
  | .error _ => false
  | .ok setting => (configured setting).any fun member =>
      given slyData member.1 &&
        match SlyDataRedactor.destination member.1 member.2 with
        | none => false
        | some key => decide (key ∈ slyData) && !letsThrough setting key

end Influence

/-! ## What a trace shows -/

theorem get?_redactValues (allowed : List PyStr) (value : SlyData) (key : PyStr) :
    (AgentFrameworkMessage.redactValues allowed value).get? key =
      (value.get? key).map fun v => if key ∈ allowed then v else .str (str "<redacted>") := by
  unfold Dict.get? AgentFrameworkMessage.redactValues
  simp only [List.find?_map, Option.map_map]
  have hcomp : ((fun e : PyStr × Json => decide (e.1 = key)) ∘ fun entry : PyStr × Json =>
      (entry.1, if entry.1 ∈ allowed then entry.2 else .str (str "<redacted>"))) =
      fun e => decide (e.1 = key) := rfl
  rw [hcomp]
  cases hfind : value.items.find? fun e => decide (e.1 = key) with
  | none => rfl
  | some entry =>
      have hkey : entry.1 = key := by simpa using List.find?_some hfind
      simp [hkey]

theorem keys_maybeEmpty (redactor : SlyDataRedactor) (redacted : SlyData) :
    AgentFrameworkMessage.keysOf (redactor.maybeEmpty redacted) = redacted.keys := by
  unfold SlyDataRedactor.maybeEmpty
  split
  · rename_i hempty
    rw [Bool.and_eq_true] at hempty
    rw [Dict.keys, List.isEmpty_iff.mp hempty.2]
    rfl
  · rfl

section Influence

variable {extractorGet : ExtractorGet} {frontManSpec setting : Json}

/-- The trace of sly data that are not empty, for a setting that does not raise. -/
theorem trace_eq (hsetting : (tracingRedactor frontManSpec).allowDict extractorGet = .ok setting)
    {slyData : SlyData} (hempty : slyData.items.isEmpty = false)
    (hrefused : SlyDataRedactor.refused setting false = none) :
    trace extractorGet frontManSpec slyData = .ok (some (str "sly_data",
      AgentFrameworkMessage.redactValues (SlyDataRedactor.kept setting slyData).keys slyData)) := by
  have hname : str "sly_data" ≠ [] := by decide
  have hallowed : AgentFrameworkMessage.allowSlyDataKeys extractorGet
      (some (tracingRedactor frontManSpec)) slyData =
      .ok (SlyDataRedactor.kept setting slyData).keys := by
    unfold AgentFrameworkMessage.allowSlyDataKeys SlyDataRedactor.filterConfig
    simp only [hsetting, SlyDataRedactor.filterBy_eq, hempty, hrefused, keys_maybeEmpty]
  unfold trace AgentFrameworkMessage.translateForTrace TracedMessage.translateForTrace
  simp only [hempty, Bool.false_eq_true, if_false, hname, if_true, hallowed]

/-- A key that a setting has a name for is let through. -/
theorem letsThrough_of_mem {member : PyStr × Json} {key : PyStr}
    (hmember : member ∈ configured setting)
    (hkey : SlyDataRedactor.destination member.1 member.2 = some key) :
    letsThrough setting member.1 = true := by
  have hany : (configured setting).any (fun other => decide (other.1 = member.1) &&
      (SlyDataRedactor.destination member.1 other.2).isSome) = true := by
    refine List.any_eq_true.mpr ⟨member, hmember, ?_⟩
    simp [hkey]
  unfold letsThrough
  split
  · exact absurd hmember List.not_mem_nil
  · exact hany

/-- Data that agree have the same keys let through. -/
theorem mem_kept_iff_of_agrees
    (hsetting : (tracingRedactor frontManSpec).allowDict extractorGet = .ok setting)
    {slyData other : SlyData} (h : Agrees extractorGet frontManSpec slyData other) (key : PyStr) :
    key ∈ SlyDataRedactor.kept setting other ↔ key ∈ SlyDataRedactor.kept setting slyData := by
  rw [SlyDataRedactor.mem_kept, SlyDataRedactor.mem_kept, h.keys]
  refine or_congr_right (exists_congr fun member => and_congr_right fun hmember =>
    and_congr_left fun hkey => ?_)
  have htraces : tracesKey extractorGet frontManSpec member.1 = true := by
    unfold tracesKey
    rw [hsetting]
    exact letsThrough_of_mem hmember hkey
  rw [given, given, h.values member.1 htraces]

theorem isEmpty_of_agrees {slyData other : SlyData}
    (h : Agrees extractorGet frontManSpec slyData other) :
    other.items.isEmpty = slyData.items.isEmpty := by
  have hnone : ∀ d : SlyData, d.items.isEmpty = true ↔ ∀ key, key ∉ d := by
    intro d
    rw [List.isEmpty_iff, ← List.map_eq_nil_iff (f := Prod.fst)]
    exact List.eq_nil_iff_forall_not_mem
  rw [Bool.eq_iff_iff, hnone, hnone]
  exact forall_congr' fun key => not_congr (h.keys key)

/-- The condition, for a setting that is found. -/
theorem translatesToPrivate_iff
    (hsetting : (tracingRedactor frontManSpec).allowDict extractorGet = .ok setting)
    (slyData : SlyData) :
    translatesToPrivate extractorGet frontManSpec slyData = true ↔
      ∃ member ∈ configured setting, ∃ key, given slyData member.1 = true ∧
        SlyDataRedactor.destination member.1 member.2 = some key ∧ key ∈ slyData ∧
          letsThrough setting key = false := by
  unfold translatesToPrivate
  rw [hsetting]
  simp only [List.any_eq_true, Bool.and_eq_true]
  refine exists_congr fun member => and_congr_right fun _ => ?_
  cases SlyDataRedactor.destination member.1 member.2 with
  | none => simp
  | some key => simp

theorem get?_eq_none {slyData : SlyData} {key : PyStr} (h : key ∉ slyData) :
    slyData.get? key = none := by
  rw [Option.eq_none_iff_forall_ne_some]
  exact fun v hv => h (Dict.mem_of_get?_eq_some hv)

/-- Where the setting cannot be found or applied, or there are no data, the trace does
not depend on their values. -/
theorem trace_eq_of_same_shape {slyData other : SlyData}
    (hempty : other.items.isEmpty = slyData.items.isEmpty)
    (h : slyData.items.isEmpty = true ∨
      (∃ e, (tracingRedactor frontManSpec).allowDict extractorGet = .error e) ∨
        ∃ setting e, (tracingRedactor frontManSpec).allowDict extractorGet = .ok setting ∧
          SlyDataRedactor.refused setting false = some e) :
    SameTrace (trace extractorGet frontManSpec other)
      (trace extractorGet frontManSpec slyData) := by
  have hname : str "sly_data" ≠ [] := by decide
  unfold trace AgentFrameworkMessage.translateForTrace TracedMessage.translateForTrace
  cases hdata : slyData.items.isEmpty with
  | true =>
      rw [hdata] at hempty
      simp only [hempty, hdata, if_true]
      trivial
  | false =>
      rw [hdata] at hempty
      rcases h with h | ⟨e, hsetting⟩ | ⟨setting, e, hsetting, hrefused⟩
      · rw [h] at hdata
        cases hdata
      · simp only [hempty, hdata, Bool.false_eq_true, if_false, hname, if_true,
          AgentFrameworkMessage.allowSlyDataKeys, SlyDataRedactor.filterConfig, hsetting]
        rfl
      · simp only [hempty, hdata, Bool.false_eq_true, if_false, hname, if_true,
          AgentFrameworkMessage.allowSlyDataKeys, SlyDataRedactor.filterConfig, hsetting,
          SlyDataRedactor.filterBy_eq, hrefused]
        rfl

/-- Without such a key, the trace is the same. -/
theorem discreet_of_not_translates {slyData : SlyData}
    (h : translatesToPrivate extractorGet frontManSpec slyData = false) :
    Discreet extractorGet frontManSpec slyData := by
  intro other hagrees
  have hempty := isEmpty_of_agrees hagrees
  cases hsetting : (tracingRedactor frontManSpec).allowDict extractorGet with
  | error e =>
      exact trace_eq_of_same_shape hempty (.inr (.inl ⟨e, hsetting⟩))
  | ok setting =>
  cases hdata : slyData.items.isEmpty with
  | true => exact trace_eq_of_same_shape hempty (.inl hdata)
  | false =>
  cases hrefused : SlyDataRedactor.refused setting false with
  | some e => exact trace_eq_of_same_shape hempty (.inr (.inr ⟨setting, e, hsetting, hrefused⟩))
  | none =>
      rw [trace_eq hsetting hdata hrefused, trace_eq hsetting (hempty.trans hdata) hrefused]
      refine ⟨rfl, fun key => ?_⟩
      have hsame := mem_kept_iff_of_agrees hsetting hagrees key
      rw [get?_redactValues, get?_redactValues]
      by_cases hkept : key ∈ SlyDataRedactor.kept setting slyData
      · -- a key that is shown is let through, or not in the data
        have hget : other.get? key = slyData.get? key := by
          rcases (SlyDataRedactor.mem_kept setting slyData key).mp hkept with
            ⟨htrue, -⟩ | ⟨member, hmember, hgiven, hkey⟩
          · refine hagrees.values key ?_
            unfold tracesKey
            rw [hsetting, htrue]
            rfl
          · by_cases hmem : key ∈ slyData
            · refine hagrees.values key ?_
              unfold tracesKey
              rw [hsetting]
              by_contra hnot
              have hprivate := (translatesToPrivate_iff hsetting slyData).mpr
                ⟨member, hmember, key, hgiven, hkey, hmem, Bool.eq_false_iff.mpr hnot⟩
              exact Bool.false_ne_true (h.symm.trans hprivate)
            · rw [get?_eq_none hmem, get?_eq_none fun h => hmem ((hagrees.keys key).mp h)]
        have hshown : key ∈ (SlyDataRedactor.kept setting slyData).keys := hkept
        have hshown' : key ∈ (SlyDataRedactor.kept setting other).keys := hsame.mpr hkept
        simp only [hget, if_pos hshown, if_pos hshown']
      · -- a key that is not shown is there in both, or in none
        have hhidden : key ∉ (SlyDataRedactor.kept setting slyData).keys := hkept
        have hhidden' : key ∉ (SlyDataRedactor.kept setting other).keys :=
          fun h => hkept (hsame.mp h)
        simp only [if_neg hhidden, if_neg hhidden']
        by_cases hmem : key ∈ slyData
        · obtain ⟨v, hv⟩ := Dict.exists_get?_of_mem hmem
          obtain ⟨w, hw⟩ := Dict.exists_get?_of_mem ((hagrees.keys key).mpr hmem)
          rw [hv, hw]
          rfl
        · rw [get?_eq_none hmem, get?_eq_none fun h => hmem ((hagrees.keys key).mp h)]

theorem exists_ne (v : Json) : ∃ w, w ≠ v := by
  cases v with
  | null => exact ⟨.bool true, by simp⟩
  | _ => exact ⟨.null, by simp⟩

/-- A setting that has a key let through under another's name does not raise. -/
theorem refused_eq_none {member : PyStr × Json} {key : PyStr}
    (hmember : member ∈ configured setting)
    (hkey : SlyDataRedactor.destination member.1 member.2 = some key)
    (hprivate : letsThrough setting key = false) :
    SlyDataRedactor.refused setting false = none := by
  cases setting with
  | obj members =>
      unfold SlyDataRedactor.refused
      split
      · rfl
      · rfl
  | arr keys =>
      -- a list lets keys through under their own names
      obtain ⟨item, -, hitem⟩ := List.mem_filterMap.mp hmember
      have hself : SlyDataRedactor.destination member.1 member.2 = some member.1 := by
        cases item with
        | str text =>
            obtain rfl := Option.some.inj hitem
            rfl
        | _ => cases hitem
      obtain rfl : member.1 = key := Option.some.inj (hself.symm.trans hkey)
      exact absurd (hprivate.symm.trans (letsThrough_of_mem hmember hkey)) Bool.false_ne_true
  | _ => exact absurd hmember List.not_mem_nil

/-- With such a key, its value has an influence on the trace. -/
theorem not_discreet_of_translates {slyData : SlyData}
    (h : translatesToPrivate extractorGet frontManSpec slyData = true) :
    ¬Discreet extractorGet frontManSpec slyData := by
  intro hdiscreet
  cases hsetting : (tracingRedactor frontManSpec).allowDict extractorGet with
  | error e =>
      unfold translatesToPrivate at h
      rw [hsetting] at h
      cases h
  | ok setting =>
  obtain ⟨member, hmember, key, hgiven, hkey, hmem, hprivate⟩ :=
    (translatesToPrivate_iff hsetting slyData).mp h
  obtain ⟨v, hv⟩ := Dict.exists_get?_of_mem hmem
  -- another value under the private key, and the same name is shown with it
  obtain ⟨w, hw⟩ := exists_ne v
  have hget : (slyData.set key w).get? key = some w := by
    rw [Dict.get?_set, if_pos rfl]
  have hagrees : Agrees extractorGet frontManSpec slyData (slyData.set key w) := by
    constructor
    · intro other
      rw [Dict.mem_set]
      constructor
      · rintro (rfl | hother)
        · exact hmem
        · exact hother
      · exact .inr
    · intro other htraces
      unfold tracesKey at htraces
      rw [hsetting] at htraces
      have hne : other ≠ key := by
        rintro rfl
        exact Bool.false_ne_true (hprivate.symm.trans htraces)
      rw [Dict.get?_set, if_neg hne]
  have hdata : slyData.items.isEmpty = false := by
    cases hitems : slyData.items with
    | nil =>
        have hnone : key ∈ slyData.items.map Prod.fst := hmem
        rw [hitems] at hnone
        exact absurd hnone List.not_mem_nil
    | cons => rfl
  have hrefused := refused_eq_none hmember hkey hprivate
  have hsame := hdiscreet _ hagrees
  rw [trace_eq hsetting hdata hrefused,
    trace_eq hsetting ((isEmpty_of_agrees hagrees).trans hdata) hrefused] at hsame
  have hshown : key ∈ SlyDataRedactor.kept setting slyData :=
    (SlyDataRedactor.mem_kept setting slyData key).mpr (.inr ⟨member, hmember, hgiven, hkey⟩)
  have hshown' : key ∈ (SlyDataRedactor.kept setting (slyData.set key w)).keys :=
    (mem_kept_iff_of_agrees hsetting hagrees key).mpr hshown
  have hvalues := hsame.2 key
  rw [get?_redactValues, get?_redactValues, hget, hv] at hvalues
  simp only [Option.map_some, if_pos hshown', if_pos (show key ∈ (SlyDataRedactor.kept setting
    slyData).keys from hshown)] at hvalues
  exact hw (Option.some.inj hvalues)

end Influence

/-- **Sly data in traces.** Values that are not let through have no influence on the
trace exactly where no key that is given is let through under the name of a key of
the data that is not let through itself. -/
theorem discreet_iff (extractorGet : ExtractorGet) (frontManSpec : Json) (slyData : SlyData) :
    Discreet extractorGet frontManSpec slyData ↔
      translatesToPrivate extractorGet frontManSpec slyData = false := by
  constructor
  · intro h
    exact Bool.eq_false_iff.mpr fun htrue => not_discreet_of_translates htrue h
  · exact discreet_of_not_translates

/-- The front man lets `secret` through, under the name `api_key`. -/
def translatingSpec : Json :=
  .obj [(str "allow", .obj [(str "to_tracing", .obj [(str "sly_data",
    .obj [(str "secret", .str (str "api_key"))])])])]

/-- The value of `api_key` is not let through, and is shown. -/
theorem apiKey_not_discreet : ¬Discreet dictionaryGet translatingSpec
    ⟨[(str "secret", .int 1), (str "api_key", .int 2)], by decide +kernel⟩ :=
  not_discreet_of_translates (by decide +kernel)

end NoraFleet.Messages
