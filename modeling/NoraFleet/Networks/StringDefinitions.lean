import Mathlib
import NoraFleet.Base.Rewriting
import NoraFleet.Networks.ConfigFilters

/-!
# Definitions of strings

`StringCommonDefsConfigFilter` goes over the definitions once and over the tools once. Each time it
applies every key in turn, in the order in which the definitions are listed. A reference whose key
had its turn before is left.

* `filterConfig_relisted` — what the filter makes of the definitions in any order;
* `resolves_iff` — which definitions are resolved completely and in any order.
-/

namespace NoraFleet.Networks

open Base Rewriting

/-! ## Strings of a value -/

mutual

/-- A change to all strings of a value, other than the keys of its dictionaries. -/
def mapStrings (change : PyStr → PyStr) : Json → Json
  | .str s => .str (change s)
  | .arr items => .arr (mapStringsItems change items)
  | .obj members => .obj (mapStringsMembers change members)
  | value => value

/-- The same, to a list. -/
def mapStringsItems (change : PyStr → PyStr) : List Json → List Json
  | [] => []
  | item :: rest => mapStrings change item :: mapStringsItems change rest

/-- The same, to a dictionary. -/
def mapStringsMembers (change : PyStr → PyStr) : List (PyStr × Json) → List (PyStr × Json)
  | [] => []
  | (key, value) :: rest => (key, mapStrings change value) :: mapStringsMembers change rest

end

mutual

/-- The strings of a value, other than the keys of its dictionaries. -/
def stringsOf : Json → List PyStr
  | .str s => [s]
  | .arr items => stringsOfItems items
  | .obj members => stringsOfMembers members
  | _ => []

/-- The strings of a list. -/
def stringsOfItems : List Json → List PyStr
  | [] => []
  | item :: rest => stringsOf item ++ stringsOfItems rest

/-- The strings of a dictionary. -/
def stringsOfMembers : List (PyStr × Json) → List PyStr
  | [] => []
  | (_, value) :: rest => stringsOf value ++ stringsOfMembers rest

end

mutual

/-- The keys of the dictionaries of a value. -/
def keysOf : Json → List PyStr
  | .arr items => keysOfItems items
  | .obj members => keysOfMembers members
  | _ => []

/-- The keys of the dictionaries of a list. -/
def keysOfItems : List Json → List PyStr
  | [] => []
  | item :: rest => keysOf item ++ keysOfItems rest

/-- The keys of a dictionary, and of those in it. -/
def keysOfMembers : List (PyStr × Json) → List PyStr
  | [] => []
  | (key, value) :: rest => key :: keysOf value ++ keysOfMembers rest

end

mutual

/-- The strings are changed. -/
theorem stringsOf_mapStrings (change : PyStr → PyStr) :
    ∀ value, stringsOf (mapStrings change value) = (stringsOf value).map change
  | .str _ => rfl
  | .arr items => stringsOfItems_mapStrings change items
  | .obj members => stringsOfMembers_mapStrings change members
  | .null | .bool _ | .int _ | .float _ => rfl

theorem stringsOfItems_mapStrings (change : PyStr → PyStr) :
    ∀ items, stringsOfItems (mapStringsItems change items) = (stringsOfItems items).map change
  | [] => rfl
  | item :: rest => by
      rw [mapStringsItems, stringsOfItems, stringsOfItems, List.map_append,
        stringsOf_mapStrings change item, stringsOfItems_mapStrings change rest]

theorem stringsOfMembers_mapStrings (change : PyStr → PyStr) :
    ∀ members, stringsOfMembers (mapStringsMembers change members) =
      (stringsOfMembers members).map change
  | [] => rfl
  | (key, value) :: rest => by
      rw [mapStringsMembers, stringsOfMembers, stringsOfMembers, List.map_append,
        stringsOf_mapStrings change value, stringsOfMembers_mapStrings change rest]

end

mutual

/-- The keys are not. -/
theorem keysOf_mapStrings (change : PyStr → PyStr) :
    ∀ value, keysOf (mapStrings change value) = keysOf value
  | .str _ => rfl
  | .arr items => keysOfItems_mapStrings change items
  | .obj members => keysOfMembers_mapStrings change members
  | .null | .bool _ | .int _ | .float _ => rfl

theorem keysOfItems_mapStrings (change : PyStr → PyStr) :
    ∀ items, keysOfItems (mapStringsItems change items) = keysOfItems items
  | [] => rfl
  | item :: rest => by
      rw [mapStringsItems, keysOfItems, keysOfItems, keysOf_mapStrings change item,
        keysOfItems_mapStrings change rest]

theorem keysOfMembers_mapStrings (change : PyStr → PyStr) :
    ∀ members, keysOfMembers (mapStringsMembers change members) = keysOfMembers members
  | [] => rfl
  | (key, value) :: rest => by
      rw [mapStringsMembers, keysOfMembers, keysOfMembers, keysOf_mapStrings change value,
        keysOfMembers_mapStrings change rest]

end

mutual

/-- Nothing is changed where no string is. -/
theorem mapStrings_eq_self {change : PyStr → PyStr} (h : ∀ s, change s = s) :
    ∀ value, mapStrings change value = value
  | .str s => congrArg Json.str (h s)
  | .arr items => congrArg Json.arr (mapStringsItems_eq_self h items)
  | .obj members => congrArg Json.obj (mapStringsMembers_eq_self h members)
  | .null | .bool _ | .int _ | .float _ => rfl

theorem mapStringsItems_eq_self {change : PyStr → PyStr} (h : ∀ s, change s = s) :
    ∀ items, mapStringsItems change items = items
  | [] => rfl
  | item :: rest => by
      rw [mapStringsItems, mapStrings_eq_self h item, mapStringsItems_eq_self h rest]

theorem mapStringsMembers_eq_self {change : PyStr → PyStr} (h : ∀ s, change s = s) :
    ∀ members, mapStringsMembers change members = members
  | [] => rfl
  | (key, value) :: rest => by
      rw [mapStringsMembers, mapStrings_eq_self h value, mapStringsMembers_eq_self h rest]

end

mutual

/-- Values are changed alike where their strings are. -/
theorem mapStrings_congr {change change' : PyStr → PyStr} :
    ∀ value, (∀ s ∈ stringsOf value, change s = change' s) →
      mapStrings change value = mapStrings change' value
  | .str s, h => congrArg Json.str (h s List.mem_cons_self)
  | .arr items, h => congrArg Json.arr (mapStringsItems_congr items h)
  | .obj members, h => congrArg Json.obj (mapStringsMembers_congr members h)
  | .null, _ | .bool _, _ | .int _, _ | .float _, _ => rfl

theorem mapStringsItems_congr {change change' : PyStr → PyStr} :
    ∀ items, (∀ s ∈ stringsOfItems items, change s = change' s) →
      mapStringsItems change items = mapStringsItems change' items
  | [], _ => rfl
  | item :: rest, h => by
      rw [mapStringsItems, mapStringsItems,
        mapStrings_congr item fun s hs => h s (List.mem_append_left _ hs),
        mapStringsItems_congr rest fun s hs => h s (List.mem_append_right _ hs)]

theorem mapStringsMembers_congr {change change' : PyStr → PyStr} :
    ∀ members, (∀ s ∈ stringsOfMembers members, change s = change' s) →
      mapStringsMembers change members = mapStringsMembers change' members
  | [], _ => rfl
  | (key, value) :: rest, h => by
      rw [mapStringsMembers, mapStringsMembers,
        mapStrings_congr value fun s hs => h s (List.mem_append_left _ hs),
        mapStringsMembers_congr rest fun s hs => h s (List.mem_append_right _ hs)]

end

namespace AbstractCommonDefsConfigFilter

mutual

/-- Where no string raises, the filter changes the strings. -/
theorem filterValue_eq {make : PyStr → Except PyError Json} {change : PyStr → PyStr}
    (h : ∀ s, make s = .ok (.str (change s))) :
    ∀ value, filterValue make value = .ok (mapStrings change value)
  | .str s => h s
  | .arr items => by
      rw [filterValue, filterOneList_eq h items]
      rfl
  | .obj members => by
      rw [filterValue, filterOneDict_eq h members]
      rfl
  | .null | .bool _ | .int _ | .float _ => rfl

theorem filterOneList_eq {make : PyStr → Except PyError Json} {change : PyStr → PyStr}
    (h : ∀ s, make s = .ok (.str (change s))) :
    ∀ items, filterOneList make items = .ok (mapStringsItems change items)
  | [] => rfl
  | item :: rest => by
      rw [filterOneList, filterValue_eq h item, filterOneList_eq h rest]
      rfl

theorem filterOneDict_eq {make : PyStr → Except PyError Json} {change : PyStr → PyStr}
    (h : ∀ s, make s = .ok (.str (change s))) :
    ∀ members, filterOneDict make members = .ok (mapStringsMembers change members)
  | [] => rfl
  | (key, value) :: rest => by
      rw [filterOneDict, filterValue_eq h value, filterOneDict_eq h rest]
      rfl

end

theorem truthy_of_lookup {members : List (PyStr × Json)} {key : PyStr} {value : Json}
    (h : Json.lookup members key = some value) : (Json.obj members).truthy = true := by
  cases members with
  | nil => cases h
  | cons member rest => rfl

/-- What the filter does where there are definitions. -/
theorem filterConfig_of_defined {commondefsKey : PyStr} {make : MakeReplacements}
    {config : List (PyStr × Json)} {first : Key × Json} {rest newReplacements : Replacements}
    {tools items : List Json}
    (hdefined : definedReplacements commondefsKey config = .ok (first :: rest))
    (hnew : filterReplacements make (first :: rest) = .ok newReplacements)
    (htools : Json.lookup config (str "tools") = some (.arr tools))
    (hitems : filterOneList (make newReplacements) tools = .ok items) :
    filterConfig commondefsKey make (.obj config) =
      .ok (.obj (Dict.setItems config (str "tools") (.arr items))) := by
  unfold filterConfig
  rw [if_pos (truthy_of_lookup htools)]
  dsimp only
  rw [hdefined]
  dsimp only
  rw [hnew, htools]
  dsimp only [Option.getD_some, Json.iterate]
  rw [hitems]
  rfl

/-- What the filter does where there are none. -/
theorem filterConfig_of_none {commondefsKey : PyStr} {make : MakeReplacements}
    {config : List (PyStr × Json)} (hdefined : definedReplacements commondefsKey config = .ok []) :
    filterConfig commondefsKey make (.obj config) = .ok (.obj config) := by
  unfold filterConfig
  dsimp only
  rw [hdefined]
  split <;> rfl

end AbstractCommonDefsConfigFilter

namespace StringCommonDefsConfigFilter

open AbstractCommonDefsConfigFilter

/-! ## Definitions -/

/-- A key, and the text that it is defined as. -/
abbrev Definition := PyStr × PyStr

/-- The definitions, as a configuration lists them. -/
def listed (definitions : List Definition) : List (PyStr × Json) :=
  definitions.map fun definition => (definition.1, .str definition.2)

/-- What references are replaced by. -/
def rulesOf (definitions : List Definition) : List (Rule Nat) :=
  definitions.map fun definition => (braced definition.1, definition.2)

/-- The references to the definitions. -/
def references (definitions : List Definition) : List PyStr :=
  definitions.map fun definition => braced definition.1

/-- A definition refers to another one. -/
def RefersTo (definitions : List Definition) (key other : PyStr) : Prop :=
  ∃ text, (key, text) ∈ definitions ∧ braced other ∈ references definitions ∧ braced other <:+: text

/-- A configuration with definitions of strings: these are not empty, and do not refer to each
other in a cycle. -/
structure Defines (config commondefs : List (PyStr × Json)) (definitions : List Definition)
    (tools : List Json) : Prop where
  hasCommondefs : Json.lookup config (str "commondefs") = some (.obj commondefs)
  hasDefinitions :
    Json.lookup commondefs (str "replacement_strings") = some (.obj (listed definitions))
  hasTools : Json.lookup config (str "tools") = some (.arr tools)
  nodup : (definitions.map Prod.fst).Nodup
  nonempty : ∀ definition ∈ definitions, definition.2 ≠ []
  acyclic : ∀ key, ¬Relation.TransGen (RefersTo definitions) key key

/-- The configuration with its definitions in another order. -/
def relisted (config commondefs : List (PyStr × Json)) (order : List Definition) :
    List (PyStr × Json) :=
  Dict.setItems config (str "commondefs")
    (.obj (Dict.setItems commondefs (str "replacement_strings") (.obj (listed order))))

/-- The definitions are resolved completely and in any order: what becomes of the tools does not
depend on how the definitions are listed, nothing else of the configuration changes, and no string
inside the tools, be it the key of a dictionary, has a reference in it. -/
def Resolves (config commondefs : List (PyStr × Json)) (definitions : List Definition) : Prop :=
  ∃ filtered : List Json,
    (∀ order : List Definition, order.Perm definitions → ∃ result,
      filterConfig (.obj (relisted config commondefs order)) = .ok (.obj result) ∧
      Json.lookup result (str "tools") = some (.arr filtered) ∧
      ∀ key, key ≠ str "tools" →
        Json.lookup result key = Json.lookup (relisted config commondefs order) key) ∧
    ∀ text ∈ stringsOfItems filtered ++ keysOfItems filtered, Free (references definitions) text

/-- What becomes of a text in one pass at once over the definitions and one over the text. -/
def putIn (definitions : List Definition) (text : PyStr) : PyStr :=
  fillIn (onValues (fillIn (rulesOf definitions)) (rulesOf definitions)) text

/-- One pass at once over the definitions and one over the tools leave no reference. -/
def IsShallow (definitions : List Definition) (tools : List Json) : Prop :=
  (∀ text ∈ stringsOfItems tools, Free (references definitions) (putIn definitions text)) ∧
    ∀ key ∈ keysOfItems tools, Free (references definitions) key

/-! ## The filter -/

section Filter

variable {config commondefs : List (PyStr × Json)} {definitions order : List Definition}
  {tools : List Json}

theorem map_fst_rulesOf (definitions : List Definition) :
    (rulesOf definitions).map Prod.fst = references definitions := by
  rw [rulesOf, references, List.map_map]
  rfl

/-- Replacements, as keys and texts. -/
def replacementsFor (definitions : List Definition) : Replacements :=
  definitions.map fun definition => (.text definition.1, .str definition.2)

/-- The keys are applied in turn. -/
theorem makeReplacements_eq (hnonempty : ∀ definition ∈ definitions, definition.2 ≠ [])
    (s : PyStr) :
    makeReplacements (replacementsFor definitions) s =
      .ok (.str (inTurn (rulesOf definitions) s)) := by
  have hfold : (replacementsFor definitions).foldlM replaceOne s =
      .ok (inTurn (rulesOf definitions) s) := by
    induction definitions generalizing s with
    | nil => rfl
    | cons definition rest ih =>
        rw [List.forall_mem_cons] at hnonempty
        show ((replaceOne s (.text definition.1, .str definition.2)).bind fun s =>
          (replacementsFor rest).foldlM replaceOne s) = _
        rw [replaceOne, if_neg hnonempty.1, replace_eq_fillIn]
        exact ih hnonempty.2 _
  unfold makeReplacements
  rw [hfold]
  rfl

/-- The definitions after the pass over them. -/
def amongThemselves (definitions : List Definition) : List Definition :=
  definitions.map fun definition => (definition.1, inTurn (rulesOf definitions) definition.2)

theorem filterReplacements_eq (hnonempty : ∀ definition ∈ definitions, definition.2 ≠ []) :
    filterReplacements makeReplacements (replacementsFor definitions) =
      .ok (replacementsFor (amongThemselves definitions)) := by
  have hall : ∀ entry ∈ replacementsFor definitions,
      ((filterValue (makeReplacements (replacementsFor definitions)) entry.2).map fun value =>
        (entry.1, value)) =
        .ok (entry.1, mapStrings (inTurn (rulesOf definitions)) entry.2) := by
    intro entry _
    rw [filterValue_eq (makeReplacements_eq hnonempty)]
    rfl
  unfold filterReplacements
  rw [mapM_eq_ok_map hall, replacementsFor, replacementsFor, amongThemselves, List.map_map,
    List.map_map]
  rfl

theorem rulesOf_amongThemselves (definitions : List Definition) :
    rulesOf (amongThemselves definitions) =
      onValues (inTurn (rulesOf definitions)) (rulesOf definitions) := by
  rw [rulesOf, amongThemselves, onValues, rulesOf, List.map_map, List.map_map]
  rfl

theorem nonempty_amongThemselves (hnonempty : ∀ definition ∈ definitions, definition.2 ≠ []) :
    ∀ definition ∈ amongThemselves definitions, definition.2 ≠ [] := by
  intro changed hchanged
  obtain ⟨definition, hdefinition, rfl⟩ := List.mem_map.mp hchanged
  refine inTurn_ne_nil ?_ (hnonempty definition hdefinition)
  intro rule hrule
  obtain ⟨other, hother, rfl⟩ := List.mem_map.mp hrule
  exact hnonempty other hother

/-- What becomes of a text in the two passes. -/
def resolve (definitions : List Definition) (text : PyStr) : PyStr :=
  inTurn (onValues (inTurn (rulesOf definitions)) (rulesOf definitions)) text

/-- **The filter**, with the definitions in any order. -/
theorem filterConfig_relisted (h : Defines config commondefs definitions tools)
    (hperm : order.Perm definitions) : ∃ result,
    filterConfig (.obj (relisted config commondefs order)) = .ok (.obj result) ∧
      Json.lookup result (str "tools") = some (.arr (mapStringsItems (resolve order) tools)) ∧
      ∀ key, key ≠ str "tools" →
        Json.lookup result key = Json.lookup (relisted config commondefs order) key := by
  have hnonempty : ∀ definition ∈ order, definition.2 ≠ [] :=
    fun definition hdefinition => h.nonempty definition (hperm.subset hdefinition)
  have htools : Json.lookup (relisted config commondefs order) (str "tools") =
      some (.arr tools) := by
    rw [relisted, Json.lookup_setItems, if_neg (by decide), h.hasTools]
  have hdefined : definedReplacements (str "replacement_strings")
      (relisted config commondefs order) = .ok (replacementsFor order) := by
    unfold definedReplacements
    rw [relisted, Json.lookup_setItems, if_pos rfl, Option.getD_some]
    have hthere : Json.lookup (Dict.setItems commondefs (str "replacement_strings")
        (.obj (listed order))) (str "replacement_strings") = some (.obj (listed order)) := by
      rw [Json.lookup_setItems, if_pos rfl]
    dsimp only
    rw [if_pos (truthy_of_lookup hthere), hthere, Option.getD_some, replacementsOf, listed,
      List.map_map]
    rfl
  cases order with
  | nil =>
      have hsame : ∀ s, resolve [] s = s := fun s => rfl
      refine ⟨_, filterConfig_of_none hdefined, ?_, fun key _ => rfl⟩
      rw [htools, mapStringsItems_eq_self hsame]
  | cons definition rest =>
      have hchange := makeReplacements_eq (nonempty_amongThemselves hnonempty)
      rw [rulesOf_amongThemselves] at hchange
      refine ⟨_, filterConfig_of_defined hdefined (filterReplacements_eq hnonempty) htools
        (filterOneList_eq hchange tools), ?_, fun key hkey => ?_⟩
      · rw [Json.lookup_setItems, if_pos rfl]
        rfl
      · rw [Json.lookup_setItems, if_neg hkey]

/-! ## What is resolved -/

/-- The rules of references that do not overlap. -/
theorem separate_rulesOf (hnodup : (definitions.map Prod.fst).Nodup)
    (hoverlap : NoOverlap (references definitions)) : Separate (rulesOf definitions) where
  nodup := by
    have hkeys : references definitions = (definitions.map Prod.fst).map braced := by
      rw [references, List.map_map]
      rfl
    rw [map_fst_rulesOf, hkeys]
    refine hnodup.map fun key other hsame => ?_
    exact List.append_cancel_right (List.cons.inj hsame).2
  noOverlap := by
    rw [map_fst_rulesOf]
    exact hoverlap

theorem exists_order_of_perm {order : List (Rule Nat)} (hperm : order.Perm (rulesOf definitions)) :
    ∃ listing : List Definition, listing.Perm definitions ∧ rulesOf listing = order := by
  have hback : ∀ definition : Definition,
      ((braced definition.1).tail.dropLast, definition.2) = definition := by
    intro definition
    rw [braced, List.cons_append, List.tail_cons, List.dropLast_concat]
  have hdefinitions :
      (rulesOf definitions).map (fun rule => (rule.1.tail.dropLast, rule.2)) = definitions := by
    rw [rulesOf, List.map_map]
    exact (List.map_congr_left fun definition _ => hback definition).trans (List.map_id definitions)
  refine ⟨order.map fun rule => (rule.1.tail.dropLast, rule.2), ?_, ?_⟩
  · have hlisting := hperm.map fun rule => (rule.1.tail.dropLast, rule.2)
    rwa [hdefinitions] at hlisting
  · rw [rulesOf, List.map_map]
    refine (List.map_congr_left fun rule hrule => ?_).trans (List.map_id order)
    obtain ⟨definition, -, rfl⟩ := List.mem_map.mp (hperm.subset hrule)
    show (braced ((braced definition.1).tail.dropLast), definition.2) = _
    rw [(Prod.mk.inj (hback definition)).1]
    rfl

theorem not_self (h : Defines config commondefs definitions tools) :
    ∀ rule ∈ rulesOf definitions, ¬ rule.1 <:+: rule.2 := by
  intro rule hrule hself
  obtain ⟨definition, hdefinition, rfl⟩ := List.mem_map.mp hrule
  exact h.acyclic definition.1
    (.single ⟨definition.2, hdefinition, List.mem_map_of_mem hdefinition, hself⟩)

/-- What is resolved at once is resolved in any order. -/
theorem resolves_of_isShallow (h : Defines config commondefs definitions tools)
    (hoverlap : NoOverlap (references definitions)) (hshallow : IsShallow definitions tools) :
    Resolves config commondefs definitions := by
  have hseparate := separate_rulesOf h.nodup hoverlap
  refine ⟨mapStringsItems (putIn definitions) tools, fun order hperm => ?_, fun text htext => ?_⟩
  · obtain ⟨result, hresult, htools, hothers⟩ := filterConfig_relisted h hperm
    refine ⟨result, hresult, ?_, hothers⟩
    rw [htools, mapStringsItems_congr tools]
    intro s hs
    have hfree := hshallow.1 s hs
    rw [← map_fst_rulesOf] at hfree
    exact twoPasses_eq hseparate (hperm.map _) hfree
  · rw [stringsOfItems_mapStrings, keysOfItems_mapStrings] at htext
    rcases List.mem_append.mp htext with hmem | hmem
    · obtain ⟨s, hs, rfl⟩ := List.mem_map.mp hmem
      exact hshallow.1 s hs
    · exact hshallow.2 text hmem

/-- What is resolved in any order is resolved at once. -/
theorem isShallow_of_resolves (h : Defines config commondefs definitions tools)
    (hoverlap : NoOverlap (references definitions))
    (hresolves : Resolves config commondefs definitions) :
    IsShallow definitions tools := by
  have hseparate := separate_rulesOf h.nodup hoverlap
  obtain ⟨filtered, hall, hfree⟩ := hresolves
  have hfiltered : ∀ order : List Definition, order.Perm definitions →
      filtered = mapStringsItems (resolve order) tools := by
    intro order hperm
    obtain ⟨result, hresult, htools, -⟩ := hall order hperm
    obtain ⟨result', hresult', htools', -⟩ := filterConfig_relisted h hperm
    obtain rfl := Json.obj.inj (Except.ok.inj (hresult.symm.trans hresult'))
    exact Json.arr.inj (Option.some.inj (htools.symm.trans htools'))
  refine ⟨fun text htext => ?_, fun key hkey => ?_⟩
  · rw [← map_fst_rulesOf]
    refine (twoPasses_iff hseparate (not_self h) text).mp fun order hperm => ?_
    obtain ⟨listing, hlisting, rfl⟩ := exists_order_of_perm hperm
    rw [map_fst_rulesOf]
    refine hfree _ (List.mem_append_left _ ?_)
    rw [hfiltered listing hlisting, stringsOfItems_mapStrings]
    exact List.mem_map_of_mem htext
  · refine hfree key (List.mem_append_right _ ?_)
    rw [hfiltered definitions (List.Perm.refl _), keysOfItems_mapStrings]
    exact hkey

/-- **Definitions of strings.** They are resolved completely and in any order if no references can
overlap and one pass at once over the definitions and one over the tools leave none; and where no
references can overlap, only then. -/
theorem resolves_iff (config commondefs : List (PyStr × Json)) (definitions : List Definition)
    (tools : List Json) (h : Defines config commondefs definitions tools) :
    (NoOverlap (references definitions) ∧ IsShallow definitions tools →
      Resolves config commondefs definitions) ∧
    (NoOverlap (references definitions) →
      (Resolves config commondefs definitions ↔ IsShallow definitions tools)) :=
  ⟨fun hboth => resolves_of_isShallow h hboth.1 hboth.2,
    fun hoverlap => ⟨isShallow_of_resolves h hoverlap, resolves_of_isShallow h hoverlap⟩⟩

/-- References to keys without braces do not overlap. -/
theorem noOverlap_references
    (h : ∀ definition ∈ definitions, 123 ∉ definition.1 ∧ 125 ∉ definition.1) :
    NoOverlap (references definitions) := by
  have hne : (123 : Nat) ≠ 125 := by decide
  refine noOverlap_of_delimited hne fun pattern hpattern => ?_
  obtain ⟨definition, hdefinition, rfl⟩ := List.mem_map.mp hpattern
  exact ⟨definition.1, rfl, h definition hdefinition⟩

/-- Definitions that refer to later keys only are not cyclic. -/
theorem acyclic_of_lt (h : ∀ definition ∈ definitions, ∀ other ∈ definitions,
    braced other.1 <:+: definition.2 → definition.1 < other.1) (key : PyStr) :
    ¬Relation.TransGen (RefersTo definitions) key key := by
  have hstep : ∀ first last, RefersTo definitions first last → first < last := by
    rintro first last ⟨text, hmem, hlast, hoccurs⟩
    obtain ⟨other, hother, hsame⟩ := List.mem_map.mp hlast
    obtain rfl : other.1 = last := List.append_cancel_right (List.cons.inj hsame).2
    exact h (first, text) hmem other hother hoccurs
  have hall : ∀ last, Relation.TransGen (RefersTo definitions) key last → key < last := by
    intro last hlast
    induction hlast with
    | single hrefers => exact hstep _ _ hrefers
    | tail _ hrefers ih => exact lt_trans ih (hstep _ _ hrefers)
  exact fun hcycle => lt_irrefl key (hall key hcycle)

end Filter

/-- Tools with one agent and its instructions. -/
def oneAgent (instructions : String) : List Json :=
  [.obj [(str "name", .str (str "front")), (str "instructions", .str (str instructions))]]

/-- A configuration with definitions of strings and one agent. -/
def configOf (definitions : List Definition) (instructions : String) : List (PyStr × Json) :=
  [(str "commondefs", .obj [(str "replacement_strings", .obj (listed definitions))]),
    (str "tools", .arr (oneAgent instructions))]

/-- A greeting, with a name in it. -/
def greeting : List Definition := [(str "greeting", str "Hi \x7bname\x7d"), (str "name", str "you")]

theorem resolves_greeting : Resolves (configOf greeting "\x7bgreeting\x7d!")
    [(str "replacement_strings", .obj (listed greeting))] greeting := by
  have hdefines : Defines (configOf greeting "\x7bgreeting\x7d!")
      [(str "replacement_strings", .obj (listed greeting))] greeting
      (oneAgent "\x7bgreeting\x7d!") :=
    ⟨rfl, rfl, rfl, by decide, by decide, acyclic_of_lt (by decide)⟩
  refine (resolves_iff _ _ _ _ hdefines).1 ⟨noOverlap_references (by decide), ?_⟩
  unfold IsShallow Free
  decide

/-- A definition with a reference to one with a reference to a third. -/
def chain : List Definition :=
  [(str "c", str "text"), (str "b", str "\x7bc\x7d"), (str "a", str "\x7bb\x7d")]

theorem chain_left : Defines (configOf chain "\x7ba\x7d")
      [(str "replacement_strings", .obj (listed chain))] chain (oneAgent "\x7ba\x7d") ∧
    ¬Resolves (configOf chain "\x7ba\x7d")
      [(str "replacement_strings", .obj (listed chain))] chain := by
  refine ⟨⟨rfl, rfl, rfl, by decide, by decide, acyclic_of_lt (by decide)⟩, ?_⟩
  rintro ⟨filtered, hall, hfree⟩
  obtain ⟨result, hresult, htools, -⟩ := hall chain (List.Perm.refl _)
  obtain rfl := Json.obj.inj (Except.ok.inj hresult)
  obtain rfl := Json.arr.inj (Option.some.inj htools)
  -- the key c had its turn before a was replaced
  refine hfree (str "\x7bc\x7d") ?_ (str "\x7bc\x7d") List.mem_cons_self ⟨[], [], rfl⟩
  decide

end StringCommonDefsConfigFilter

end NoraFleet.Networks
