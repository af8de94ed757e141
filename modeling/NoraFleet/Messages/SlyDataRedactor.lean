import NoraFleet.Base.Dict
import NoraFleet.Networks.AgentNetwork

/-!
# Redacting sly data

`SlyDataRedactor.filter_config` lets through what an agent's specification allows:
everything, a list of keys, or a dictionary of keys that are let through under
their own name or under another. By default nothing is.

* `SlyDataRedactor.filterBy_eq` — how `filter_config` ends;
* `SlyDataRedactor.mem_kept` — the keys of what is let through.
-/

namespace NoraFleet.Messages

open Base Networks

/-- A dictionary of private data. -/
abbrev SlyData := Dict PyStr Json

/-- `SlyDataRedactor`. -/
structure SlyDataRedactor where
  agentToolSpec : Json
  configKeys : List PyStr
  allowEmptyDict : Bool

namespace SlyDataRedactor

variable (redactor : SlyDataRedactor)

/-- `maybe_empty(test_dict)`. -/
def maybeEmpty (testDict : SlyData) : Option SlyData :=
  if !redactor.allowEmptyDict && testDict.items.isEmpty then none else some testDict

/-- The setting of the last config key that has one. -/
def allowDict (extractorGet : ExtractorGet) : Except PyError Json :=
  redactor.configKeys.foldlM
    (fun allowDict configKey => extractorGet redactor.agentToolSpec configKey allowDict) (.obj [])

/-- The values that a dictionary can have as keys. -/
def hashable : Json → Bool
  | .arr _ => false
  | .obj _ => false
  | _ => true

/-- The keys of a list, let through under their own names. Sly data has only strings as
keys, so that others make no difference. -/
def trueDict (keys : List Json) : List (PyStr × Json) :=
  keys.filterMap fun
    | .str key => some (key, .bool true)
    | _ => none

/-- The name that a key is let through under, if it is. -/
def destination (sourceKey : PyStr) : Json → Option PyStr
  | .str destKey => some destKey
  | .bool true => some sourceKey
  | _ => none

/-- What a configured key lets through, and under which name. A value of `None` is as
good as none. -/
def allowed (basisConfig : SlyData) (member : PyStr × Json) : Option (PyStr × Json) :=
  match basisConfig.get? member.1 with
  | none => none
  | some .null => none
  | some sourceValue => (destination member.1 member.2).map fun key => (key, sourceValue)

/-- The loop over the keys that are configured. -/
def redact (basisConfig : SlyData) : List (PyStr × Json) → SlyData → SlyData
  | [], redacted => redacted
  | member :: rest, redacted =>
      match allowed basisConfig member with
      | none => redact basisConfig rest redacted
      | some (key, sourceValue) => redact basisConfig rest (redacted.set key sourceValue)

/-- `filter_config(basis_config)`, once the setting is found. -/
def filterBy (allowDict : Json) (basisConfig : SlyData) : Except PyError (Option SlyData) :=
  if !allowDict.truthy then .ok (redactor.maybeEmpty .empty)
  else match allowDict with
    | .bool _ => .ok (redactor.maybeEmpty basisConfig)
    | _ =>
        if basisConfig.items.isEmpty then .ok (redactor.maybeEmpty .empty)
        else match allowDict with
          | .arr keys =>
              if keys.all hashable then
                .ok (redactor.maybeEmpty (redact basisConfig (trueDict keys) .empty))
              else .error .typeError
          | .obj members => .ok (redactor.maybeEmpty (redact basisConfig members .empty))
          | _ => .error .attributeError

/-- `filter_config(basis_config)`. -/
def filterConfig (extractorGet : ExtractorGet) (basisConfig : SlyData) :
    Except PyError (Option SlyData) :=
  match redactor.allowDict extractorGet with
  | .error e => .error e
  | .ok allowDict => redactor.filterBy allowDict basisConfig

end SlyDataRedactor

/-! ## What a setting lets through -/

/-- The keys that a setting speaks of, with the names it gives them. -/
def configured : Json → List (PyStr × Json)
  | .arr keys => SlyDataRedactor.trueDict keys
  | .obj members => members
  | _ => []

/-- A setting lets a key through: the setting is true, or maps the key to true or to a
string. -/
def letsThrough (setting : Json) (key : PyStr) : Bool :=
  match setting with
  | .bool b => b
  | _ => (configured setting).any fun member =>
      decide (member.1 = key) && (SlyDataRedactor.destination key member.2).isSome

/-- The value of a key is there, and is not `None`. -/
def given (slyData : SlyData) (key : PyStr) : Bool :=
  match slyData.get? key with
  | none => false
  | some .null => false
  | some _ => true

namespace SlyDataRedactor

variable (redactor : SlyDataRedactor)

theorem allowed_iff (basisConfig : SlyData) (member : PyStr × Json) (key : PyStr) :
    (∃ sourceValue, allowed basisConfig member = some (key, sourceValue)) ↔
      given basisConfig member.1 = true ∧ destination member.1 member.2 = some key := by
  unfold allowed given
  cases basisConfig.get? member.1 with
  | none => simp
  | some sourceValue =>
      cases sourceValue with
      | null => simp
      | _ => simp

/-- The keys of what the loop lets through. -/
theorem mem_redact (basisConfig : SlyData) (members : List (PyStr × Json)) (redacted : SlyData)
    (key : PyStr) :
    key ∈ redact basisConfig members redacted ↔ key ∈ redacted ∨ ∃ member ∈ members,
      given basisConfig member.1 = true ∧ destination member.1 member.2 = some key := by
  induction members generalizing redacted with
  | nil => simp [redact]
  | cons member rest ih =>
      have hallowed := allowed_iff basisConfig member key
      rw [List.exists_mem_cons_iff, ← hallowed]
      unfold redact
      cases hmember : allowed basisConfig member with
      | none =>
          rw [ih]
          simp
      | some moved =>
          obtain ⟨name, sourceValue⟩ := moved
          rw [ih, Dict.mem_set]
          simp only [Option.some.injEq, Prod.mk.injEq, exists_and_left, exists_eq', and_true]
          rw [or_comm (a := key = name), or_assoc, eq_comm (a := key)]

/-- What a setting makes of a dictionary, where it does not raise. -/
def kept (setting : Json) (basisConfig : SlyData) : SlyData :=
  match setting with
  | .bool true => basisConfig
  | _ => redact basisConfig (configured setting) .empty

/-- What a setting raises for a dictionary that is empty or not. -/
def refused (setting : Json) (isEmpty : Bool) : Option PyError :=
  if !setting.truthy || isEmpty then none
  else match setting with
    | .bool _ => none
    | .arr keys => if keys.all hashable then none else some .typeError
    | .obj _ => none
    | _ => some .attributeError

/-- Nothing is let through from an empty dictionary. -/
theorem redact_of_isEmpty {basisConfig : SlyData} (h : basisConfig.items.isEmpty = true)
    (members : List (PyStr × Json)) (redacted : SlyData) :
    redact basisConfig members redacted = redacted := by
  have hnone : ∀ key, basisConfig.get? key = none := by
    intro key
    rw [Dict.get?, List.isEmpty_iff.mp h]
    rfl
  induction members with
  | nil => rfl
  | cons member rest ih =>
      have hmember : allowed basisConfig member = none := by
        unfold allowed
        rw [hnone]
      unfold redact
      rw [hmember]
      exact ih

/-- A setting that is false, empty or `None` lets nothing through. -/
theorem kept_of_falsy {setting : Json} (h : setting.truthy = false) (basisConfig : SlyData) :
    kept setting basisConfig = .empty := by
  cases setting with
  | bool b =>
      cases b with
      | false => rfl
      | true => cases h
  | arr keys =>
      obtain rfl : keys = [] := by simpa [Json.truthy] using h
      rfl
  | obj members =>
      obtain rfl : members = [] := by simpa [Json.truthy] using h
      rfl
  | _ => rfl

/-- How `filter_config` ends, once the setting is found. -/
theorem filterBy_eq (setting : Json) (basisConfig : SlyData) :
    redactor.filterBy setting basisConfig =
      match refused setting basisConfig.items.isEmpty with
      | some e => .error e
      | none => .ok (redactor.maybeEmpty (kept setting basisConfig)) := by
  cases htruthy : setting.truthy with
  | false => simp [filterBy, refused, htruthy, kept_of_falsy htruthy]
  | true =>
      cases hempty : basisConfig.items.isEmpty with
      | false =>
          cases setting with
          | arr keys =>
              simp only [filterBy, refused, htruthy, hempty, Bool.not_true, Bool.or_self,
                Bool.false_eq_true, if_false]
              split
              · rfl
              · rfl
          | bool b =>
              obtain rfl : b = true := htruthy
              rfl
          | _ => simp [filterBy, refused, htruthy, hempty, kept, configured]
      | true =>
          have hnone := fun members => redact_of_isEmpty hempty members .empty
          cases setting with
          | bool b =>
              obtain rfl : b = true := htruthy
              simp [filterBy, refused, kept, Json.truthy]
          | _ => simp [filterBy, refused, htruthy, hempty, kept, configured, hnone]

/-- The keys of what is let through. -/
theorem mem_kept (setting : Json) (basisConfig : SlyData) (key : PyStr) :
    key ∈ kept setting basisConfig ↔ setting = .bool true ∧ key ∈ basisConfig ∨
      ∃ member ∈ configured setting,
        given basisConfig member.1 = true ∧ destination member.1 member.2 = some key := by
  have hredact := mem_redact basisConfig (configured setting) .empty key
  simp only [Dict.not_mem_empty, false_or] at hredact
  unfold kept
  split
  · simp [configured]
  · rename_i hne
    rw [hredact, or_iff_right fun h => hne h.1]

end SlyDataRedactor

end NoraFleet.Messages
