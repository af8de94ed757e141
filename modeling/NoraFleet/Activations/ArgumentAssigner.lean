import Mathlib
import NoraFleet.Base.Braces
import NoraFleet.Base.Flow

/-!
# Sentences for the arguments of a call

`ArgumentAssigner` tells the chat stream of an agent what arguments it is called with, in
one sentence for each of them. Such a sentence becomes a part of a prompt template, where a
brace begins a placeholder. The braces in a value are doubled where its declared type is
`string` and it is no container; other texts are left as they are.

* `asString_eq_of_item` — nothing is doubled in what is in a list;
* `value_safe_iff` — the values whose text is a template of itself;
* `inert_iff` — the arguments whose sentences have no live placeholder.
-/

namespace NoraFleet.Activations

open Base

namespace ArgumentAssigner

/-- `value_type == name`. -/
def isType (valueType : Json) (name : String) : Bool :=
  match valueType with
  | .str s => s = str name
  | _ => false

/-- `isinstance(args_value, dict)`. -/
def isDict : Json → Bool
  | .obj _ => true
  | _ => false

/-- `isinstance(args_value, list)`. -/
def isList : Json → Bool
  | .arr _ => true
  | _ => false

/-- `str(args_value)`, of a value that is no container. -/
def strOf : Json → Except PyError PyStr
  | .null => .ok (str "None")
  | .bool b => .ok (if b then str "True" else str "False")
  | .int n =>
      match reprInt n with
      | none => .error .valueError
      | some text => .ok text
  | .float .nan => .ok (str "nan")
  | .float (.inf negative) => .ok (if negative then str "-inf" else str "inf")
  | .float (.fin q) => .ok (reprFloat q)
  | .str s => .ok s
  | .arr _ | .obj _ => .ok []

/-- `json.dumps(args_value)[1:-1]`. -/
def dumped (room : Nat) (argsValue : Json) : Except PyError PyStr :=
  match Json.dumps ⟨1, 1, none⟩ room argsValue with
  | .error .valueError => .error .valueError
  | .error .recursionError => .error .recursionError
  | .ok text => .ok (text.drop 1).dropLast

/-- `", ".join(str_values)`. -/
def joined (strValues : List PyStr) : PyStr := [44, 32].intercalate strValues

mutual

/-- `get_args_value_as_string(args_value, value_type)`, for a way to escape braces. The
type of what is in a list is not known. -/
def asString (escape : PyStr → PyStr) (room : Nat) (argsValue valueType : Json) :
    Except PyError PyStr :=
  if isType valueType "dict" || isDict argsValue then dumped room argsValue
  else if isType valueType "array" || isList argsValue then
    match argsValue with
    | .arr items => (itemStrings escape room items).map joined
    | .str s => .ok (joined (s.map fun c => [c]))
    | _ => .error .typeError
  else if isType valueType "string" then
    (strOf argsValue).map fun text => escape (str "'" ++ text ++ str "'")
  else strOf argsValue

/-- The strings of the items of a list. -/
def itemStrings (escape : PyStr → PyStr) (room : Nat) :
    List Json → Except PyError (List PyStr)
  | [] => .ok []
  | item :: rest =>
      match asString escape room item .null with
      | .error e => .error e
      | .ok itemStr => (itemStrings escape room rest).map (itemStr :: ·)

end

/-- `get_args_value_as_string(args_value, value_type)`. -/
def getArgsValueAsString (room : Nat) (argsValue valueType : Json) : Except PyError PyStr :=
  asString Text.doubleBraces room argsValue valueType

/-- The type that the properties declare for an argument; `none` where it is not one of
them. Without properties, no type is known. -/
def typeOf (properties : List (PyStr × Json)) (argsName : PyStr) : Except PyError (Option Json) :=
  if properties.isEmpty then .ok (some .null)
  else
    let argAttribute := (Json.lookup properties argsName).getD .null
    if argAttribute.truthy then
      match argAttribute with
      | .obj members => .ok (some ((Json.lookup members (str "type")).getD .null))
      | _ => .error .attributeError
    else .ok none

/-- `assignment_verb`. -/
def verb (valueType argsValue : Json) : PyStr :=
  if isType valueType "array" || isList argsValue then str "are" else str "is"

/-- `f"The {args_name} {assignment_verb} {args_value_str}."`. -/
def sentence (argsName assignmentVerb argsValueStr : PyStr) : PyStr :=
  str "The " ++ argsName ++ str " " ++ assignmentVerb ++ str " " ++ argsValueStr ++ str "."

/-- The sentence for one argument, if it gets one. -/
def assignOne (room : Nat) (properties : List (PyStr × Json)) (argument : PyStr × Json) :
    Except PyError (Option PyStr) :=
  match argument.2 with
  | .null => .ok none
  | argsValue =>
      match typeOf properties argument.1 with
      | .error e => .error e
      | .ok none => .ok none
      | .ok (some valueType) =>
          (getArgsValueAsString room argsValue valueType).map fun argsValueStr =>
            some (sentence argument.1 (verb valueType argsValue) argsValueStr)

/-- `assign(args)`. -/
def assign (room : Nat) (properties : List (PyStr × Json)) :
    List (PyStr × Json) → Except PyError (List PyStr)
  | [] => .ok []
  | argument :: rest =>
      match assignOne room properties argument with
      | .error e => .error e
      | .ok none => assign room properties rest
      | .ok (some assignment) => (assign room properties rest).map (assignment :: ·)

/-! ## Live placeholders -/

/-- The argument gets a sentence. -/
def isAssigned (properties : List (PyStr × Json)) (argument : PyStr × Json) : Bool :=
  match argument.2, typeOf properties argument.1 with
  | .null, _ => false
  | _, .ok (some _) => true
  | _, _ => false

/-- A sentence in which every brace of the value is doubled: substituted into, it gives the
text of the value, of which nothing is escaped. -/
def GivesVerbatim (room : Nat) (properties : List (PyStr × Json)) (argument : PyStr × Json)
    (assignment : PyStr) : Prop :=
  ∃ valueType verbatim text, typeOf properties argument.1 = .ok (some valueType) ∧
    asString id room argument.2 valueType = .ok verbatim ∧
    assignment = sentence argument.1 (verb valueType argument.2) text ∧
    text = Text.doubleBraces verbatim ∧ Text.substitute text = some verbatim

/-- All arguments that get a sentence get one without a live placeholder. -/
def Inert (room : Nat) (properties args : List (PyStr × Json)) : Prop :=
  ∃ assignments, assign room properties args = .ok assignments ∧
    List.Forall₂ (GivesVerbatim room properties) (args.filter (isAssigned properties)) assignments

/-- A value can be written as a document, and without its first and last character that
has no braces. -/
def SafeDump (room : Nat) : Json → Prop
  | .obj members =>
      (Json.obj members).depth ≤ room ∧ (Json.obj members).intsFit = true ∧
        Json.noBracesMembers members = true
  | v => v.depth ≤ room ∧ v.intsFit = true ∧ v.noBraces = true

/-- A value has a text without braces. -/
inductive SafeItem (room : Nat) : Json → Prop where
  | obj {members : List (PyStr × Json)} :
      SafeDump room (.obj members) → SafeItem room (.obj members)
  | arr {items : List Json} : (∀ item ∈ items, SafeItem room item) → SafeItem room (.arr items)
  | text {v : Json} : isDict v = false → isList v = false → v.intsFit = true →
      v.noBraces = true → SafeItem room v

/-- A value of a declared type has a text that is a template of itself. -/
def SafeValue (room : Nat) (valueType argsValue : Json) : Prop :=
  if isType valueType "dict" || isDict argsValue then SafeDump room argsValue
  else if isType valueType "array" || isList argsValue then
    (∃ items, argsValue = .arr items ∧ ∀ item ∈ items, SafeItem room item) ∨
      ∃ s, argsValue = .str s ∧ s.all Text.notBrace = true
  else if isType valueType "string" then argsValue.intsFit = true
  else SafeItem room argsValue

/-- An argument is left out, or has a safe value. -/
def SafeArgument (room : Nat) (properties : List (PyStr × Json)) (argument : PyStr × Json) : Prop :=
  argument.2 = .null ∨ typeOf properties argument.1 = .ok none ∨
    ∃ valueType, typeOf properties argument.1 = .ok (some valueType) ∧
      SafeValue room valueType argument.2

/-! ## Texts of values -/

theorem exists_dumped_iff (room : Nat) (v : Json) :
    (∃ text, dumped room v = .ok text) ↔ v.depth ≤ room ∧ v.intsFit = true := by
  rw [← Json.exists_dumpValue_ok_iff ⟨1, 1, none⟩ v room 0]
  unfold dumped Json.dumps
  cases Json.dumpValue ⟨1, 1, none⟩ v room 0 with
  | error e => cases e <;> simp
  | ok text => simp

/-- Where the ends of a document are no braces, its braces are between them. -/
theorem all_notBrace_inner {first last : Nat} {inner : PyStr} (hfirst : Text.notBrace first = true)
    (hlast : Text.notBrace last = true) :
    ((first :: (inner ++ [last])).drop 1).dropLast.all Text.notBrace =
      (first :: (inner ++ [last])).all Text.notBrace := by
  rw [List.drop_one, List.tail_cons, List.dropLast_concat, List.all_cons, List.all_append,
    List.all_cons, List.all_nil, hfirst, hlast, Bool.true_and, Bool.and_true, Bool.and_true]

theorem all_notBrace_dumped {room : Nat} {v : Json} {text : PyStr} (hdict : isDict v = false)
    (h : dumped room v = .ok text) : text.all Text.notBrace = v.noBraces := by
  unfold dumped at h
  cases hdumps : Json.dumps ⟨1, 1, none⟩ room v with
  | error e =>
      rw [hdumps] at h
      cases e <;> cases h
  | ok document =>
      rw [hdumps] at h
      obtain rfl := Except.ok.inj h
      have hall := Json.all_notBrace_of_dumps hdumps
      cases hfree : v.noBraces with
      | true =>
          rw [hfree] at hall
          rw [List.all_eq_true] at hall ⊢
          intro c hc
          exact hall c (List.mem_of_mem_drop (List.mem_of_mem_dropLast hc))
      | false =>
          rw [hfree] at hall
          cases v with
          | str s =>
              obtain rfl := Except.ok.inj hdumps
              unfold Json.stringText at hall ⊢
              rw [all_notBrace_inner rfl rfl, hall]
          | arr items =>
              unfold Json.dumps Json.dumpValue at hdumps
              obtain ⟨room', texts, -, -, htext⟩ := Json.dumpContainer_ok hdumps
              obtain ⟨inner, rfl, -⟩ := Json.all_notBrace_container htext
              rw [all_notBrace_inner rfl rfl, hall]
          | obj members => cases hdict
          | null => cases hfree
          | bool b => cases hfree
          | int n => cases hfree
          | float x => cases hfree

theorem dumped_safe_iff (room : Nat) (v : Json) :
    (∃ text, dumped room v = .ok text ∧ text.all Text.notBrace = true) ↔ SafeDump room v := by
  have hwritten := exists_dumped_iff room v
  have hbraces : ∀ text, dumped room v = .ok text →
      (SafeDump room v ↔ v.depth ≤ room ∧ v.intsFit = true ∧ text.all Text.notBrace = true) := by
    intro text htext
    cases v with
    | obj members =>
        unfold dumped at htext
        cases hdumps : Json.dumps ⟨1, 1, none⟩ room (.obj members) with
        | error e =>
            rw [hdumps] at htext
            cases e <;> cases htext
        | ok document =>
            rw [hdumps] at htext
            obtain rfl := Except.ok.inj htext
            rw [Json.all_notBrace_of_dumps_obj hdumps]
            rfl
    | _ =>
        rw [all_notBrace_dumped rfl htext]
        rfl
  have hwritable : SafeDump room v → v.depth ≤ room ∧ v.intsFit = true := by
    cases v <;> exact fun h => ⟨h.1, h.2.1⟩
  constructor
  · rintro ⟨text, htext, hfree⟩
    obtain ⟨hdepth, hfit⟩ := hwritten.mp ⟨text, htext⟩
    exact (hbraces text htext).mpr ⟨hdepth, hfit, hfree⟩
  · intro hsafe
    obtain ⟨text, htext⟩ := hwritten.mpr (hwritable hsafe)
    exact ⟨text, htext, ((hbraces text htext).mp hsafe).2.2⟩

theorem strOf_int (n : ℤ) : strOf (.int n) = (reprInt n).elim (.error .valueError) .ok := by
  rw [strOf]
  cases reprInt n <;> rfl

/-- `str` of a value that is no container. -/
theorem strOf_spec {v : Json} (hdict : isDict v = false) (hlist : isList v = false) :
    ((∃ text, strOf v = .ok text) ↔ v.intsFit = true) ∧
      ∀ text, strOf v = .ok text → text.all Text.notBrace = v.noBraces := by
  cases v with
  | null => exact ⟨iff_of_true ⟨_, rfl⟩ rfl, fun text h => by cases h; rfl⟩
  | bool b => cases b <;> exact ⟨iff_of_true ⟨_, rfl⟩ rfl, fun text h => by cases h; rfl⟩
  | int n =>
      constructor
      · have hfits : (Json.int n).intsFit = true ↔
            ¬ Json.maxStrDigits < (digitsOf n.natAbs).length := by
          show decide _ = true ↔ _
          rw [decide_eq_true_eq, not_lt]
        rw [hfits, strOf_int]
        unfold reprInt
        split_ifs with hlong <;> simp [hlong]
      · intro text h
        rw [strOf_int] at h
        cases hrepr : reprInt n with
        | none =>
            rw [hrepr] at h
            cases h
        | some repr =>
            rw [hrepr] at h
            obtain rfl := Except.ok.inj h
            exact Json.all_notBrace_of_numeral (Json.numeral_reprInt hrepr)
  | float x =>
      cases x with
      | fin q =>
          refine ⟨iff_of_true ⟨_, rfl⟩ rfl, fun text h => ?_⟩
          obtain rfl := Except.ok.inj h
          exact Json.all_notBrace_of_numeral (Json.numeral_reprFloat q)
      | inf negative =>
          cases negative <;> exact ⟨iff_of_true ⟨_, rfl⟩ rfl, fun text h => by cases h; rfl⟩
      | nan => exact ⟨iff_of_true ⟨_, rfl⟩ rfl, fun text h => by cases h; rfl⟩
  | str s => exact ⟨iff_of_true ⟨_, rfl⟩ rfl, fun text h => by cases h; rfl⟩
  | arr items => cases hlist
  | obj members => cases hdict

theorem all_notBrace_joined (strValues : List PyStr) :
    (joined strValues).all Text.notBrace = strValues.all fun text => text.all Text.notBrace := by
  induction strValues with
  | nil => rfl
  | cons first rest ih =>
      cases rest with
      | nil => simp [joined, List.intercalate]
      | cons second others =>
          have hcons : joined (first :: second :: others) =
              first ++ ([44, 32] ++ joined (second :: others)) := by
            simp [joined, List.intercalate]
          rw [hcons, List.all_append, List.all_append, ih]
          rfl

/-! ## Lists -/

/-- A list that is not declared a dictionary is joined. -/
theorem asString_arr (escape : PyStr → PyStr) (room : Nat) (items : List Json) {valueType : Json}
    (htype : isType valueType "dict" = false) :
    asString escape room (.arr items) valueType = (itemStrings escape room items).map joined := by
  unfold asString
  rw [htype, if_neg (by simp [isDict]), if_pos (by simp [isList])]

/-- A value of no declared type that is no container. -/
theorem asString_of_text (escape : PyStr → PyStr) (room : Nat) {v : Json}
    (hdict : isDict v = false) (hlist : isList v = false) :
    asString escape room v .null = strOf v := by
  unfold asString
  rw [hdict, hlist]
  rfl

mutual

/-- What is in a list has no declared type, so that nothing is escaped in it. -/
theorem asString_eq_of_item (escape : PyStr → PyStr) (room : Nat) :
    ∀ v : Json, asString escape room v .null = asString id room v .null
  | .arr items => by
      rw [asString_arr _ _ _ rfl, asString_arr _ _ _ rfl, itemStrings_eq escape room items]
  | .null => rfl
  | .bool _ => rfl
  | .int _ => rfl
  | .float _ => rfl
  | .str _ => rfl
  | .obj _ => rfl

/-- The same, of all items. -/
theorem itemStrings_eq (escape : PyStr → PyStr) (room : Nat) :
    ∀ items : List Json, itemStrings escape room items = itemStrings id room items
  | [] => rfl
  | item :: rest => by
      rw [itemStrings, itemStrings, asString_eq_of_item escape room item,
        itemStrings_eq escape room rest]

end

/-- A value that is no container has a text without braces exactly where it is safe. -/
theorem text_safe_iff (room : Nat) {v : Json} (hdict : isDict v = false)
    (hlist : isList v = false) :
    (∃ text, asString id room v .null = .ok text ∧ text.all Text.notBrace = true) ↔
      SafeItem room v := by
  obtain ⟨hwritten, hbraces⟩ := strOf_spec hdict hlist
  rw [asString_of_text id room hdict hlist]
  constructor
  · rintro ⟨text, htext, hfree⟩
    exact SafeItem.text hdict hlist (hwritten.mp ⟨text, htext⟩)
      ((hbraces text htext).symm.trans hfree)
  · intro h
    cases h with
    | obj => cases hdict
    | arr => cases hlist
    | text _ _ hfit hfree =>
        obtain ⟨text, htext⟩ := hwritten.mpr hfit
        exact ⟨text, htext, (hbraces text htext).trans hfree⟩

mutual

/-- An item has a text without braces exactly where it is safe. -/
theorem item_safe_iff (room : Nat) :
    ∀ v : Json, (∃ text, asString id room v .null = .ok text ∧ text.all Text.notBrace = true) ↔
      SafeItem room v
  | .obj members => by
      have hdumped : asString id room (.obj members) .null = dumped room (.obj members) := by
        unfold asString
        rfl
      rw [hdumped, dumped_safe_iff]
      constructor
      · exact SafeItem.obj
      · intro h
        cases h with
        | obj hsafe => exact hsafe
        | text hdict => cases hdict
  | .arr items => by
      rw [asString_arr id room items rfl]
      have hitems := items_safe_iff room items
      constructor
      · rintro ⟨text, htext, hfree⟩
        cases hstrings : itemStrings id room items with
        | error e =>
            rw [hstrings] at htext
            cases htext
        | ok strValues =>
            rw [hstrings] at htext
            obtain rfl := Except.ok.inj htext
            rw [all_notBrace_joined] at hfree
            exact SafeItem.arr (hitems.mp ⟨strValues, hstrings, hfree⟩)
      · intro h
        cases h with
        | arr hsafe =>
            obtain ⟨strValues, hstrings, hfree⟩ := hitems.mpr hsafe
            rw [hstrings]
            exact ⟨_, rfl, (all_notBrace_joined strValues).trans hfree⟩
        | text _ hlist => cases hlist
  | .null => text_safe_iff room rfl rfl
  | .bool _ => text_safe_iff room rfl rfl
  | .int _ => text_safe_iff room rfl rfl
  | .float _ => text_safe_iff room rfl rfl
  | .str _ => text_safe_iff room rfl rfl

/-- The same, of all items. -/
theorem items_safe_iff (room : Nat) :
    ∀ items : List Json, (∃ strValues, itemStrings id room items = .ok strValues ∧
        (strValues.all fun text => text.all Text.notBrace) = true) ↔
      ∀ item ∈ items, SafeItem room item
  | [] => by simp [itemStrings]
  | item :: rest => by
      rw [List.forall_mem_cons, ← item_safe_iff room item, ← items_safe_iff room rest, itemStrings]
      cases asString id room item .null with
      | error e => simp
      | ok itemStr =>
          cases itemStrings id room rest with
          | error e => simp [Except.map]
          | ok strValues => simp [Except.map]

end

/-! ## Values with a declared type -/

/-- A text is a template of itself when it has no braces. -/
theorem exists_verbatim_iff (outcome : Except PyError PyStr) :
    (∃ text verbatim, outcome = .ok text ∧ outcome = .ok verbatim ∧
        text = Text.doubleBraces verbatim) ↔
      ∃ text, outcome = .ok text ∧ text.all Text.notBrace = true := by
  cases outcome with
  | error e => simp
  | ok text =>
      constructor
      · rintro ⟨first, second, hfirst, hsecond, hdouble⟩
        obtain rfl := Except.ok.inj (hfirst.symm.trans hsecond)
        exact ⟨first, hfirst, (Text.doubleBraces_eq_self_iff first).mp hdouble.symm⟩
      · rintro ⟨first, hfirst, hfree⟩
        exact ⟨first, first, hfirst, hfirst, ((Text.doubleBraces_eq_self_iff first).mpr hfree).symm⟩

/-- The text of a value has its braces doubled exactly where the value is safe. -/
theorem value_safe_iff (room : Nat) (valueType argsValue : Json) :
    (∃ text verbatim, getArgsValueAsString room argsValue valueType = .ok text ∧
        asString id room argsValue valueType = .ok verbatim ∧
        text = Text.doubleBraces verbatim) ↔
      SafeValue room valueType argsValue := by
  by_cases hdict : (isType valueType "dict" || isDict argsValue) = true
  · -- a dictionary is dumped as it is, whatever is escaped
    have hdumped : ∀ escape, asString escape room argsValue valueType = dumped room argsValue := by
      intro escape
      unfold asString
      rw [if_pos hdict]
    rw [getArgsValueAsString, hdumped, hdumped, exists_verbatim_iff, dumped_safe_iff, SafeValue,
      if_pos hdict]
  rw [SafeValue, if_neg hdict]
  by_cases hlist : (isType valueType "array" || isList argsValue) = true
  · rw [if_pos hlist]
    -- only lists and strings can be gone through as an array
    have hraises : (∀ items, argsValue ≠ .arr items) → (∀ s, argsValue ≠ .str s) → ∀ escape,
        asString escape room argsValue valueType = .error .typeError := by
      intro harr hstr escape
      unfold asString
      rw [if_neg hdict, if_pos hlist]
      cases argsValue with
      | arr items => exact absurd rfl (harr items)
      | str s => exact absurd rfl (hstr s)
      | _ => rfl
    cases argsValue with
    | arr items =>
        have htype : isType valueType "dict" = false := by simpa [isDict] using hdict
        rw [getArgsValueAsString, asString_arr _ _ _ htype, asString_arr _ _ _ htype,
          itemStrings_eq, exists_verbatim_iff,
          ← @asString_arr id room items .null rfl, item_safe_iff]
        constructor
        · intro h
          cases h with
          | arr hsafe => exact .inl ⟨items, rfl, hsafe⟩
          | text _ hnot => cases hnot
        · rintro (⟨others, hothers, hsafe⟩ | ⟨s, hs, -⟩)
          · obtain rfl := Json.arr.inj hothers
            exact SafeItem.arr hsafe
          · cases hs
    | str s =>
        -- a string is a list of its characters
        have hjoined : ∀ escape, asString escape room (.str s) valueType =
            .ok (joined (s.map fun c => [c])) := by
          intro escape
          unfold asString
          rw [if_neg hdict, if_pos hlist]
        have hchars : (joined (s.map fun c => [c])).all Text.notBrace = s.all Text.notBrace := by
          rw [all_notBrace_joined, List.all_map]
          apply congrArg s.all
          funext c
          exact Bool.and_true _
        rw [getArgsValueAsString, hjoined, hjoined, exists_verbatim_iff]
        constructor
        · rintro ⟨text, htext, hfree⟩
          obtain rfl := Except.ok.inj htext
          exact .inr ⟨s, rfl, hchars.symm.trans hfree⟩
        · rintro (⟨items, hitems, -⟩ | ⟨other, hother, hfree⟩)
          · cases hitems
          · obtain rfl := Json.str.inj hother
            exact ⟨_, rfl, hchars.trans hfree⟩
    | obj members => simp [isDict] at hdict
    | _ =>
        have hnever := hraises (by simp) (by simp)
        rw [getArgsValueAsString, hnever, hnever, exists_verbatim_iff]
        simp
  have hnotDict : isDict argsValue = false := by
    simp only [Bool.or_eq_true, not_or, Bool.not_eq_true] at hdict
    exact hdict.2
  have hnotList : isList argsValue = false := by
    simp only [Bool.or_eq_true, not_or, Bool.not_eq_true] at hlist
    exact hlist.2
  obtain ⟨hwritten, -⟩ := strOf_spec hnotDict hnotList
  rw [if_neg hlist]
  by_cases hstring : isType valueType "string" = true
  · -- strings are the ones that are escaped
    have hquoted : ∀ escape, asString escape room argsValue valueType =
        (strOf argsValue).map fun text => escape (str "'" ++ text ++ str "'") := by
      intro escape
      unfold asString
      rw [if_neg hdict, if_neg hlist, if_pos hstring]
    rw [getArgsValueAsString, hquoted, hquoted, if_pos hstring, ← hwritten]
    cases strOf argsValue with
    | error e => simp [Except.map]
    | ok text => simp [Except.map]
  · have hplain : ∀ escape, asString escape room argsValue valueType = strOf argsValue := by
      intro escape
      unfold asString
      rw [if_neg hdict, if_neg hlist, if_neg hstring]
    rw [getArgsValueAsString, hplain, hplain, exists_verbatim_iff, if_neg hstring,
      ← text_safe_iff room hnotDict hnotList, asString_of_text id room hnotDict hnotList]

/-! ## Sentences -/

section Sentences

variable (room : Nat) (properties : List (PyStr × Json))

/-- An argument without a sentence. -/
theorem inert_cons_of_skipped {argument : PyStr × Json} (rest : List (PyStr × Json))
    (hone : assignOne room properties argument = .ok none)
    (hassigned : isAssigned properties argument = false) :
    Inert room properties (argument :: rest) ↔ Inert room properties rest := by
  rw [Inert, Inert, assign, hone,
    List.filter_cons_of_neg (by rw [hassigned]; exact Bool.false_ne_true)]

/-- The sentence of an argument, and the others. -/
theorem inert_cons_of_assigned {argsName : PyStr} {argsValue valueType : Json}
    (rest : List (PyStr × Json))
    (hnull : argsValue ≠ .null) (htype : typeOf properties argsName = .ok (some valueType)) :
    Inert room properties ((argsName, argsValue) :: rest) ↔
      SafeValue room valueType argsValue ∧ Inert room properties rest := by
  have hone : assignOne room properties (argsName, argsValue) =
      (getArgsValueAsString room argsValue valueType).map fun argsValueStr =>
        some (sentence argsName (verb valueType argsValue) argsValueStr) := by
    unfold assignOne
    rw [htype]
    cases argsValue with
    | null => exact absurd rfl hnull
    | _ => rfl
  have hassigned : isAssigned properties (argsName, argsValue) = true := by
    unfold isAssigned
    rw [htype]
    cases argsValue with
    | null => exact absurd rfl hnull
    | _ => rfl
  rw [← value_safe_iff, Inert, Inert, assign, hone, List.filter_cons_of_pos hassigned]
  constructor
  · rintro ⟨assignments, hassign, hall⟩
    cases htext : getArgsValueAsString room argsValue valueType with
    | error e =>
        rw [htext] at hassign
        cases hassign
    | ok text =>
        rw [htext] at hassign
        cases hrest : assign room properties rest with
        | error e =>
            rw [hrest] at hassign
            cases hassign
        | ok others =>
            rw [hrest] at hassign
            obtain rfl := Except.ok.inj hassign
            obtain ⟨hfirst, hothers⟩ := List.forall₂_cons.mp hall
            obtain ⟨valueType', verbatim, text', htype', hverbatim, hsentence, hdouble, -⟩ := hfirst
            obtain rfl := Option.some.inj (Except.ok.inj (htype.symm.trans htype'))
            have hsame : text = text' := by
              unfold sentence at hsentence
              exact List.append_cancel_left (List.append_cancel_right hsentence)
            exact ⟨⟨text, verbatim, rfl, hverbatim, hsame.trans hdouble⟩, others, rfl, hothers⟩
  · rintro ⟨⟨text, verbatim, htext, hverbatim, hdouble⟩, others, hrest, hothers⟩
    rw [htext, hrest]
    refine ⟨_, rfl, List.Forall₂.cons ?_ hothers⟩
    exact ⟨valueType, verbatim, text, htype, hverbatim, rfl, hdouble,
      hdouble ▸ Text.substitute_doubleBraces verbatim⟩

end Sentences

/-- **Arguments.** All arguments are told of in sentences without a live placeholder exactly
where every argument is left out, or has a value that is safe for its declared type. -/
theorem inert_iff (room : Nat) (properties args : List (PyStr × Json)) :
    Inert room properties args ↔ ∀ argument ∈ args, SafeArgument room properties argument := by
  induction args with
  | nil => exact iff_of_true ⟨[], rfl, List.Forall₂.nil⟩ (fun _ h => absurd h List.not_mem_nil)
  | cons argument rest ih =>
      obtain ⟨argsName, argsValue⟩ := argument
      rw [List.forall_mem_cons, ← ih]
      -- null is left out, and so is what is not declared
      by_cases hnull : argsValue = .null
      · subst hnull
        rw [inert_cons_of_skipped room properties rest rfl rfl]
        exact (and_iff_right (.inl rfl)).symm
      cases htype : typeOf properties argsName with
      | error e =>
          -- attributes that cannot be read raise
          have hraises : assignOne room properties (argsName, argsValue) = .error e := by
            unfold assignOne
            rw [htype]
            cases argsValue with
            | null => exact absurd rfl hnull
            | _ => rfl
          have hlive : ¬ SafeArgument room properties (argsName, argsValue) := by
            rintro (h | h | ⟨valueType, h, -⟩)
            · exact hnull h
            · rw [htype] at h
              cases h
            · rw [htype] at h
              cases h
          rw [Inert, assign, hraises]
          simp [hlive]
      | ok declared =>
          cases declared with
          | none =>
              have hone : assignOne room properties (argsName, argsValue) = .ok none := by
                unfold assignOne
                rw [htype]
                cases argsValue <;> rfl
              have hassigned : isAssigned properties (argsName, argsValue) = false := by
                unfold isAssigned
                rw [htype]
                cases argsValue <;> rfl
              rw [inert_cons_of_skipped room properties rest hone hassigned]
              exact (and_iff_right (.inr (.inl htype))).symm
          | some valueType =>
              rw [inert_cons_of_assigned room properties rest hnull htype]
              apply and_congr_left'
              constructor
              · exact fun h => .inr (.inr ⟨valueType, htype, h⟩)
              · rintro (h | h | ⟨valueType', h, hsafe⟩)
                · exact absurd h hnull
                · rw [htype] at h
                  cases h
                · rw [htype] at h
                  obtain rfl := Option.some.inj (Except.ok.inj h)
                  exact hsafe

/-- The braces of a dictionary in a dictionary are live. -/
theorem nestedDict_live :
    ¬ ∀ (room : Nat) (properties args : List (PyStr × Json)), Inert room properties args := by
  intro h
  have hinert := h 1000 [] [(str "filter", .obj [(str "where", .obj [])])]
  rw [@inert_cons_of_assigned 1000 [] _ _ .null [] (by simp) rfl] at hinert
  cases hinert.1.2.2

end ArgumentAssigner

end NoraFleet.Activations
