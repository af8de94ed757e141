import Mathlib
import NoraFleet.Messages.SlyDataRedactor

/-!
# What redacted sly data depends on

A redactor reads no more of the sly data than the keys that its setting lets through: two
dictionaries that agree on these come out the same. What does come out is the value of a
key that is mapped to true, or to the name that the value has then.

* `redact_congr` — the loop over the keys that are configured reads these only;
* `filterConfig_noninterference` — the same of `filter_config`, for a setting of each form.
-/

namespace NoraFleet.Messages

open Base Networks

/-- The forms of a setting: a boolean, a list of strings, or a dictionary whose values
are booleans or strings. An absent setting is an empty dictionary. -/
def AllowSetting : Json → Prop
  | .bool _ => True
  | .arr keys => ∀ key ∈ keys, ∃ name, key = .str name
  | .obj members => ∀ member ∈ members, (∃ b, member.2 = .bool b) ∨ ∃ name, member.2 = .str name
  | _ => False

/-- Two dictionaries have the same values for the keys that a setting lets through. -/
def AgreeOn (setting : Json) (d e : SlyData) : Prop :=
  ∀ key, letsThrough setting key = true → d.get? key = e.get? key

/-- Two results are equal: both are `None`, or dictionaries with the same items. -/
def EqualResults : Option SlyData → Option SlyData → Prop
  | none, none => True
  | some d, some e => ∀ key, d.get? key = e.get? key
  | _, _ => False

/-- A setting maps a source key to a name: all keys to themselves, a key to itself, or to
another name. -/
def MapsTo (setting : Json) (sourceKey name : PyStr) : Prop :=
  setting = .bool true ∧ name = sourceKey ∨
    ∃ destKey, (sourceKey, destKey) ∈ configured setting ∧
      (destKey = .bool true ∧ name = sourceKey ∨ destKey = .str name)

namespace SlyDataRedactor

/-- A key that is let through has a name then. -/
theorem destination_eq_some_iff {sourceKey name : PyStr} {destKey : Json} :
    destination sourceKey destKey = some name ↔
      destKey = .bool true ∧ name = sourceKey ∨ destKey = .str name := by
  cases destKey with
  | bool b => cases b <;> simp [destination, eq_comm]
  | str s => simp [destination]
  | _ => simp [destination]

/-- What is let through of a key that is configured. -/
theorem allowed_eq_some_iff {basisConfig : SlyData} {member : PyStr × Json} {name : PyStr}
    {value : Json} :
    allowed basisConfig member = some (name, value) ↔
      basisConfig.get? member.1 = some value ∧ value ≠ .null ∧
        destination member.1 member.2 = some name := by
  unfold allowed
  cases basisConfig.get? member.1 with
  | none => simp
  | some sourceValue =>
      cases sourceValue with
      | null =>
          constructor
          · intro h
            cases h
          · rintro ⟨h, hne, -⟩
            exact absurd (Option.some.inj h).symm hne
      | _ =>
          simp only [Option.map_eq_some_iff, Prod.mk.injEq]
          constructor
          · rintro ⟨other, hname, rfl, rfl⟩
            exact ⟨rfl, by simp, hname⟩
          · rintro ⟨h, -, hname⟩
            exact ⟨name, hname, rfl, Option.some.inj h⟩

/-- Of a key that is not let through, nothing is read. -/
theorem allowed_congr {d e : SlyData} {member : PyStr × Json}
    (h : (destination member.1 member.2).isSome = true → d.get? member.1 = e.get? member.1) :
    allowed d member = allowed e member := by
  cases hname : destination member.1 member.2 with
  | none =>
      have hnone : ∀ basisConfig : SlyData, allowed basisConfig member = none := by
        intro basisConfig
        apply Option.eq_none_iff_forall_ne_some.mpr
        rintro ⟨name, value⟩ hsome
        rw [allowed_eq_some_iff, hname] at hsome
        cases hsome.2.2
      rw [hnone, hnone]
  | some name =>
      unfold allowed
      rw [h (by rw [hname]; rfl)]

/-- The loop reads only keys that are let through. -/
theorem redact_congr {d e : SlyData} {members : List (PyStr × Json)} (redacted : SlyData)
    (h : ∀ member ∈ members, (destination member.1 member.2).isSome = true →
      d.get? member.1 = e.get? member.1) :
    redact d members redacted = redact e members redacted := by
  induction members generalizing redacted with
  | nil => rfl
  | cons member rest ih =>
      rw [List.forall_mem_cons] at h
      have hmember : allowed d member = allowed e member := allowed_congr h.1
      rw [redact, redact, hmember]
      cases allowed e member with
      | none => exact ih redacted h.2
      | some moved => exact ih _ h.2

/-- The values of what the loop lets through. -/
theorem get?_redact {basisConfig : SlyData} {members : List (PyStr × Json)} {redacted : SlyData}
    {name : PyStr} {value : Json}
    (h : (redact basisConfig members redacted).get? name = some value) :
    redacted.get? name = some value ∨
      ∃ member ∈ members, allowed basisConfig member = some (name, value) := by
  induction members generalizing redacted with
  | nil => exact .inl h
  | cons member rest ih =>
      rw [redact] at h
      rw [List.exists_mem_cons_iff]
      cases hmember : allowed basisConfig member with
      | none =>
          rw [hmember] at h
          exact (ih h).imp_right .inr
      | some moved =>
          rw [hmember] at h
          rcases ih h with hset | hrest
          · rw [Dict.get?_set] at hset
            split at hset
            case isTrue hname =>
                obtain rfl := Option.some.inj hset
                subst hname
                exact .inr (.inl rfl)
            case isFalse hname => exact .inl hset
          · exact .inr (.inr hrest)

theorem refused_of_allowSetting {setting : Json} (h : AllowSetting setting) (isEmpty : Bool) :
    refused setting isEmpty = none := by
  unfold refused
  split
  · rfl
  · cases setting with
    | bool b => rfl
    | obj members => rfl
    | arr keys =>
        have hall : keys.all hashable = true := by
          rw [List.all_eq_true]
          intro key hkey
          obtain ⟨name, rfl⟩ := h key hkey
          rfl
        simp [hall]
    | null => cases h
    | int n => cases h
    | float x => cases h
    | str s => cases h

theorem get?_kept_congr {setting : Json} {d e : SlyData} (h : AgreeOn setting d e) (key : PyStr) :
    (kept setting d).get? key = (kept setting e).get? key := by
  have hredact : (∃ b, setting = .bool b) ∨
      redact d (configured setting) .empty = redact e (configured setting) .empty := by
    cases setting with
    | bool b => exact .inl ⟨b, rfl⟩
    | _ =>
        right
        apply redact_congr
        intro member hmember hsome
        apply h
        show List.any _ _ = true
        rw [List.any_eq_true]
        exact ⟨member, hmember, by simp [hsome]⟩
  rcases hredact with ⟨b, rfl⟩ | hredact
  · cases b with
    | false => rfl
    | true => exact h key rfl
  · unfold kept
    split
    · exact h key rfl
    · rw [hredact]

/-- The values of what is kept. -/
theorem get?_kept {setting : Json} {basisConfig : SlyData} {name : PyStr} {value : Json}
    (h : (kept setting basisConfig).get? name = some value) :
    ∃ sourceKey, basisConfig.get? sourceKey = some value ∧ MapsTo setting sourceKey name := by
  unfold kept at h
  split at h
  · exact ⟨name, h, .inl ⟨rfl, rfl⟩⟩
  · rcases get?_redact h with h | ⟨member, hmember, hallowed⟩
    · cases h
    · obtain ⟨hget, -, hname⟩ := allowed_eq_some_iff.mp hallowed
      exact ⟨member.1, hget, .inr ⟨member.2, hmember, destination_eq_some_iff.mp hname⟩⟩

theorem isEmpty_congr {d e : SlyData} (h : ∀ key, d.get? key = e.get? key) :
    d.items.isEmpty = e.items.isEmpty := by
  have hempty : ∀ {d e : SlyData}, (∀ key, d.get? key = e.get? key) →
      d.items.isEmpty = true → e.items.isEmpty = true := by
    intro d e h hd
    rw [List.isEmpty_iff] at hd ⊢
    apply List.eq_nil_iff_forall_not_mem.mpr
    rintro ⟨key, value⟩ hmem
    have hget := Dict.get?_eq_some_iff.mpr hmem
    rw [← h key, Dict.get?_eq_some_iff, hd] at hget
    cases hget
  apply Bool.eq_iff_iff.mpr
  exact ⟨hempty h, hempty fun key => (h key).symm⟩

variable (redactor : SlyDataRedactor)

theorem maybeEmpty_congr {d e : SlyData} (h : ∀ key, d.get? key = e.get? key) :
    EqualResults (redactor.maybeEmpty d) (redactor.maybeEmpty e) := by
  unfold maybeEmpty
  rw [isEmpty_congr h]
  split
  · trivial
  · exact h

/-- `filter_config` with a setting of one of the forms. -/
theorem filterConfig_of_allowSetting {extractorGet : ExtractorGet} {setting : Json}
    (hsetting : redactor.allowDict extractorGet = .ok setting) (hform : AllowSetting setting)
    (basisConfig : SlyData) :
    redactor.filterConfig extractorGet basisConfig =
      .ok (redactor.maybeEmpty (kept setting basisConfig)) := by
  unfold filterConfig
  rw [hsetting]
  show redactor.filterBy setting basisConfig = _
  rw [filterBy_eq, refused_of_allowSetting hform]

/-- Where no config key is found, the setting is an empty dictionary. -/
theorem allowDict_of_absent {extractorGet : ExtractorGet}
    (h : ∀ configKey ∈ redactor.configKeys, ∀ default,
      extractorGet redactor.agentToolSpec configKey default = .ok default) :
    redactor.allowDict extractorGet = .ok (.obj []) := by
  have hfold : ∀ (configKeys : List PyStr) (found : Json),
      (∀ configKey ∈ configKeys, ∀ default,
        extractorGet redactor.agentToolSpec configKey default = .ok default) →
      configKeys.foldlM (fun allowDict configKey =>
        extractorGet redactor.agentToolSpec configKey allowDict) found = .ok found := by
    intro configKeys
    induction configKeys with
    | nil => exact fun _ _ => rfl
    | cons configKey rest ih =>
        intro found hall
        rw [List.forall_mem_cons] at hall
        rw [List.foldlM_cons, hall.1]
        exact ih found hall.2
  exact hfold _ _ h

/-- **Redaction.** For a setting of one of the forms, two dictionaries that agree on the
keys it lets through have equal results, and every value of a result is the value of a key
that is mapped to true or to the name of the value. Where no config key is found, or the
setting is false or empty, the result is empty. -/
theorem filterConfig_noninterference (extractorGet : ExtractorGet) (setting : Json)
    (hsetting : redactor.allowDict extractorGet = .ok setting) (hform : AllowSetting setting) :
    (∀ d e, AgreeOn setting d e → ∃ dResult eResult,
      redactor.filterConfig extractorGet d = .ok dResult ∧
      redactor.filterConfig extractorGet e = .ok eResult ∧ EqualResults dResult eResult) ∧
    (∀ basisConfig result, redactor.filterConfig extractorGet basisConfig = .ok (some result) →
      ∀ name value, result.get? name = some value →
        ∃ sourceKey, basisConfig.get? sourceKey = some value ∧ MapsTo setting sourceKey name) ∧
    ((∀ configKey ∈ redactor.configKeys, ∀ default,
        extractorGet redactor.agentToolSpec configKey default = .ok default) ∨
        setting.truthy = false →
      ∀ basisConfig, redactor.filterConfig extractorGet basisConfig =
        .ok (redactor.maybeEmpty .empty)) := by
  have hfilter := redactor.filterConfig_of_allowSetting hsetting hform
  refine ⟨?_, ?_, ?_⟩
  · intro d e hagree
    exact ⟨_, _, hfilter d, hfilter e, redactor.maybeEmpty_congr (get?_kept_congr hagree)⟩
  · intro basisConfig result hresult name value hget
    rw [hfilter] at hresult
    have hkept : redactor.maybeEmpty (kept setting basisConfig) = some result :=
      Except.ok.inj hresult
    unfold maybeEmpty at hkept
    split at hkept
    · cases hkept
    · obtain rfl := Option.some.inj hkept
      exact get?_kept hget
  · intro hnothing basisConfig
    have hfalsy : setting.truthy = false := by
      rcases hnothing with habsent | hfalsy
      · obtain rfl := Except.ok.inj (hsetting.symm.trans (redactor.allowDict_of_absent habsent))
        rfl
      · exact hfalsy
    rw [hfilter, kept_of_falsy hfalsy]

/-- A specification that lets a key through, and the other under the name of that. -/
def collidingSpec : Json :=
  .obj [(str "allow", .obj [(str "to_upstream", .obj [(str "sly_data",
    .obj [(str "token", .bool true), (str "secret", .str (str "token"))])])])]

/-- Data that differs in a key that is not configured. -/
theorem filterConfig_noninterference_colliding :
    ∃ dResult eResult,
      filterConfig ⟨collidingSpec, [str "allow.to_upstream.sly_data"], true⟩ dictionaryGet
        ⟨[(str "token", .int 1), (str "hidden", .int 2)], by decide +kernel⟩ = .ok dResult ∧
      filterConfig ⟨collidingSpec, [str "allow.to_upstream.sly_data"], true⟩ dictionaryGet
        ⟨[(str "token", .int 1), (str "hidden", .int 3)], by decide +kernel⟩ = .ok eResult ∧
      EqualResults dResult eResult := by
  refine (filterConfig_noninterference ⟨collidingSpec, [str "allow.to_upstream.sly_data"], true⟩
    dictionaryGet (.obj [(str "token", .bool true), (str "secret", .str (str "token"))]) rfl
    ?_).1 _ _ ?_
  · intro member hmember
    rcases List.mem_cons.mp hmember with rfl | hmember
    · exact .inl ⟨true, rfl⟩
    · obtain rfl := List.mem_singleton.mp hmember
      exact .inr ⟨_, rfl⟩
  · intro key hkey
    have hhidden : key ≠ str "hidden" := by
      rintro rfl
      revert hkey
      decide +kernel
    simp only [Dict.get?, List.find?_cons, List.find?_nil]
    rw [show decide (str "hidden" = key) = false from decide_eq_false (Ne.symm hhidden)]

end SlyDataRedactor

end NoraFleet.Messages
