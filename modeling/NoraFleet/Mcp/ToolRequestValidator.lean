import Mathlib
import NoraFleet.Base.Flow
import NoraFleet.Base.Layers
import NoraFleet.Base.Worklist

/-!
# The schema that tool requests are checked against

`ToolRequestValidator` takes the schema of a `ChatRequest` out of the schema of the
service, with the schemas it refers to, and those they refer to. References are
looked for at any depth. The order in which a set of names is gone through is a
parameter. What is written is written to one of two documents, that of the service
and the one that is made.

* `mem_references_iff` — the references that are found are all there are;
* `exists_getAllDefs` — the search ends with the names that are reached;
* `requestSchema_closedAndMinimal` — what is made of a service schema whose references are all
  there.
-/

namespace NoraFleet.Mcp

open Base

namespace ToolRequestValidator

/-! ## References -/

/-- What a local reference begins with. -/
def refStart : PyStr := str "#/components/schemas/"

/-- The name in a local reference: what `^#/components/schemas/([^/]+)$` matches. -/
def refName (ref : PyStr) : Option PyStr :=
  if refStart.isPrefixOf ref && !(ref.drop refStart.length).isEmpty &&
      !(ref.drop refStart.length).contains 47 then
    some (ref.drop refStart.length)
  else none

/-- The name in `$ref`, if there is one. -/
def ownReference (node : List (PyStr × Json)) : Option PyStr :=
  match Json.lookup node (str "$ref") with
  | some (.str ref) => refName ref
  | _ => none

mutual

/-- `visit(node)`: the names of the references in a value. -/
def references : Json → List PyStr
  | .obj node => (ownReference node).toList ++ referencesInDict node
  | .arr items => referencesInList items
  | _ => []

def referencesInList : List Json → List PyStr
  | [] => []
  | item :: rest => references item ++ referencesInList rest

def referencesInDict : List (PyStr × Json) → List PyStr
  | [] => []
  | (_, v) :: rest => references v ++ referencesInDict rest

end

/-- How a set is gone through. -/
structure SetOrder where
  iterate : List PyStr → List PyStr
  perm : ∀ names, (iterate names).Perm names

/-- `_get_schema_defs(schema)`. -/
def getSchemaDefs (order : SetOrder) (schema : Json) : List PyStr :=
  order.iterate (references schema).dedup

/-- The names that one of the schemas refers to. An item is a name, so none is empty. -/
def referencedDefs (order : SetOrder) (schemas : List (PyStr × Json)) (nextItem : PyStr) :
    Except PyError (List PyStr) :=
  match Json.lookup schemas nextItem with
  | some nextSchema =>
      if nextSchema.truthy then .ok (getSchemaDefs order nextSchema) else .error .valueError
  | none => .error .valueError

/-- `_get_all_defs(root_item, schemas)`, with room for so many rounds. -/
def getAllDefs (order : SetOrder) (room : Nat) (rootItem : PyStr) (schemas : List (PyStr × Json)) :
    Option (Except PyError (List PyStr)) :=
  (Worklist.work (referencedDefs order schemas) room [(rootItem, false)]).map
    (Except.map (List.map Prod.fst))

/-! ## Documents -/

/-- The schema of the service, and the one that is made. -/
structure Documents where
  service : List (PyStr × Json)
  result : List (PyStr × Json)

inductive Document where
  | service
  | result

/-- Where a dictionary is: in which document, and behind which keys. -/
structure Place where
  document : Document
  path : List PyStr

/-- A change of the dictionary behind a path. -/
def changeAt (change : List (PyStr × Json) → Except PyError (List (PyStr × Json))) :
    List PyStr → List (PyStr × Json) → Except PyError (List (PyStr × Json))
  | [], members => change members
  | key :: rest, members =>
      match Json.lookup members key with
      | some (.obj inner) =>
          (changeAt change rest inner).map fun inner => Dict.setItems members key (.obj inner)
      | some _ => .error .typeError
      -- KeyError
      | none => .error .otherException

/-- A change of the dictionary at a place. -/
def Documents.change (documents : Documents) (place : Place)
    (change : List (PyStr × Json) → Except PyError (List (PyStr × Json))) :
    Except PyError Documents :=
  match place.document with
  | .service =>
      (changeAt change place.path documents.service).map fun service =>
        { documents with service := service }
  | .result =>
      (changeAt change place.path documents.result).map fun result =>
        { documents with result := result }

/-- `place[key] = value`. -/
def Documents.setItem (documents : Documents) (place : Place) (key : PyStr) (v : Json) :
    Except PyError Documents :=
  documents.change place fun members => .ok (Dict.setItems members key v)

/-- `del place[key]`. -/
def Documents.delItem (documents : Documents) (place : Place) (key : PyStr) :
    Except PyError Documents :=
  documents.change place fun members =>
    match Json.lookup members key with
    | some _ => .ok (members.filter fun member => member.1 != key)
    | none => .error .otherException

/-- The schemas in the document that is made. -/
def resultSchemas : Place := ⟨.result, [str "components", str "schemas"]⟩

/-! ## The extraction -/

/-- `schema.get("components", {}).get("schemas", {})`, which has to be there, with the schema of
the root. -/
def schemasOf (rootItem : PyStr) (schema : List (PyStr × Json)) :
    Except PyError (List (PyStr × Json)) :=
  match (Json.lookup schema (str "components")).getD (.obj []) with
  | .obj components =>
      let schemas := (Json.lookup components (str "schemas")).getD (.obj [])
      if schemas.truthy then
        match schemas with
        | .obj schemas =>
            if ((Json.lookup schemas rootItem).getD (.obj [])).truthy then .ok schemas
            else .error .valueError
        | _ => .error .attributeError
      else .error .valueError
  | _ => .error .attributeError

/-- The copy of the schemas with those left that are referred to, and the strict root. -/
def writeResult (rootItem requiredProperty : PyStr) (schemas : List (PyStr × Json))
    (referencedDefs : List PyStr) (documents : Documents) : Except PyError Documents := do
  let rest ← (schemas.map Prod.fst).foldlM (fun documents oneSchema =>
    if referencedDefs.contains oneSchema then .ok documents
    else Documents.delItem documents resultSchemas oneSchema) documents
  let rootSchema : Place := ⟨.result, resultSchemas.path ++ [rootItem]⟩
  let required ← rest.setItem rootSchema (str "required") (.arr [.str requiredProperty])
  let strict ← required.setItem rootSchema (str "additionalProperties") (.bool false)
  strict.setItem ⟨.result, []⟩ (str "$ref") (.str (refStart ++ rootItem))

/-- `_extract_sub_schema(schema, root_item, required_property)`. The result begins as a dictionary
with a deep copy of the schemas. -/
def extractSubSchema (order : SetOrder) (room : Nat) (rootItem requiredProperty : PyStr)
    (schema : List (PyStr × Json)) : Option (Except PyError Documents) :=
  match schemasOf rootItem schema with
  | .error e => some (.error e)
  | .ok schemas =>
      (getAllDefs order room rootItem schemas).map fun found => do
        let documents ← Documents.setItem ⟨schema, []⟩ ⟨.result, []⟩ (str "components")
          (.obj [(str "schemas", .obj schemas)])
        let referencedDefs ← found
        writeResult rootItem requiredProperty schemas referencedDefs documents

/-- `ToolRequestValidator(service_schema)`: the request schema, beside the schema of the service. -/
def requestSchema (order : SetOrder) (room : Nat) (serviceSchema : List (PyStr × Json)) :
    Option (Except PyError Documents) :=
  extractSubSchema order room (str "ChatRequest") (str "user_message") serviceSchema

/-! ## What is referred to -/

/-- A value inside another, at any depth. -/
inductive Within (v : Json) : Json → Prop
  | self : Within v v
  | item {items : List Json} {w : Json} (hitem : w ∈ items) (hwithin : Within v w) :
      Within v (.arr items)
  | member {members : List (PyStr × Json)} {key : PyStr} {w : Json} (hmember : (key, w) ∈ members)
      (hwithin : Within v w) : Within v (.obj members)

/-- A value refers to a name: there is a `$ref` to it somewhere inside. -/
def RefersTo (v : Json) (name : PyStr) : Prop :=
  ∃ node, Within (.obj node) v ∧ name ≠ [] ∧ 47 ∉ name ∧
    Json.lookup node (str "$ref") = some (.str (refStart ++ name))

theorem refName_eq_some_iff {ref name : PyStr} :
    refName ref = some name ↔ ref = refStart ++ name ∧ name ≠ [] ∧ 47 ∉ name := by
  unfold refName
  constructor
  · intro h
    split at h
    · rename_i hmatch
      simp only [Bool.and_eq_true, Bool.not_eq_true', List.isEmpty_eq_false_iff, ne_eq,
        List.contains_eq_mem, decide_eq_false_iff_not, List.isPrefixOf_iff_prefix] at hmatch
      obtain rfl := Option.some.inj h
      refine ⟨?_, hmatch.1.2, hmatch.2⟩
      obtain ⟨rest, rfl⟩ := hmatch.1.1
      rw [List.drop_left]
    · cases h
  · rintro ⟨rfl, hne, hslash⟩
    rw [List.drop_left, if_pos]
    simp only [Bool.and_eq_true, Bool.not_eq_true', List.isEmpty_eq_false_iff, ne_eq,
      List.contains_eq_mem, decide_eq_false_iff_not, List.isPrefixOf_iff_prefix]
    exact ⟨⟨List.prefix_append _ _, hne⟩, hslash⟩

theorem mem_ownReference {node : List (PyStr × Json)} {name : PyStr} :
    name ∈ (ownReference node).toList ↔ name ≠ [] ∧ 47 ∉ name ∧
      Json.lookup node (str "$ref") = some (.str (refStart ++ name)) := by
  rw [Option.mem_toList]
  unfold ownReference
  constructor
  · intro h
    split at h
    · rename_i ref hlookup
      obtain ⟨rfl, hne, hslash⟩ := refName_eq_some_iff.mp h
      exact ⟨hne, hslash, hlookup⟩
    · cases h
  · rintro ⟨hne, hslash, hlookup⟩
    rw [hlookup]
    exact refName_eq_some_iff.mpr ⟨rfl, hne, hslash⟩

mutual

/-- The references that are found are all that are there. -/
theorem mem_references_iff {name : PyStr} (v : Json) :
    name ∈ references v ↔ RefersTo v name := by
  cases v with
  | obj node =>
      rw [references, List.mem_append, mem_ownReference, mem_referencesInDict node]
      constructor
      · rintro (⟨hne, hslash, hlookup⟩ | ⟨key, w, hmember, inner, hwithin, hrest⟩)
        · exact ⟨node, .self, hne, hslash, hlookup⟩
        · exact ⟨inner, .member hmember hwithin, hrest⟩
      · rintro ⟨inner, hwithin, hrest⟩
        cases hwithin with
        | self => exact .inl hrest
        | member hmember hwithin => exact .inr ⟨_, _, hmember, inner, hwithin, hrest⟩
  | arr items =>
      rw [references, mem_referencesInList items]
      constructor
      · rintro ⟨w, hitem, inner, hwithin, hrest⟩
        exact ⟨inner, .item hitem hwithin, hrest⟩
      · rintro ⟨inner, hwithin, hrest⟩
        cases hwithin with
        | item hitem hwithin => exact ⟨_, hitem, inner, hwithin, hrest⟩
  | null | bool _ | int _ | float _ | str _ =>
      constructor
      · intro h
        cases h
      · rintro ⟨inner, hwithin, -⟩
        cases hwithin

theorem mem_referencesInList {name : PyStr} (items : List Json) :
    name ∈ referencesInList items ↔ ∃ item ∈ items, RefersTo item name := by
  cases items with
  | nil => simp only [referencesInList, List.not_mem_nil, false_and, exists_false]
  | cons item rest =>
      rw [referencesInList, List.mem_append, mem_references_iff item, mem_referencesInList rest,
        List.exists_mem_cons_iff]

theorem mem_referencesInDict {name : PyStr} (members : List (PyStr × Json)) :
    name ∈ referencesInDict members ↔ ∃ key v, (key, v) ∈ members ∧ RefersTo v name := by
  cases members with
  | nil => simp only [referencesInDict, List.not_mem_nil, false_and, exists_false]
  | cons member rest =>
      obtain ⟨first, w⟩ := member
      rw [referencesInDict, List.mem_append, mem_references_iff w, mem_referencesInDict rest]
      constructor
      · rintro (hrefers | ⟨key, v, hmember, hrefers⟩)
        · exact ⟨first, w, List.mem_cons_self, hrefers⟩
        · exact ⟨key, v, List.mem_cons_of_mem _ hmember, hrefers⟩
      · rintro ⟨key, v, hmember, hrefers⟩
        rcases List.mem_cons.mp hmember with heq | hmember
        · obtain ⟨rfl, rfl⟩ := Prod.mk.inj heq
          exact .inl hrefers
        · exact .inr ⟨key, v, hmember, hrefers⟩

end

section Extraction

variable {schemas : List (PyStr × Json)} {order : SetOrder}

/-- One schema refers to another. -/
def Edge (schemas : List (PyStr × Json)) (name other : PyStr) : Prop :=
  ∃ schema, Json.lookup schemas name = some schema ∧ RefersTo schema other

/-- A schema that is reached from that of a chat request. -/
def Reached (schemas : List (PyStr × Json)) : PyStr → Prop :=
  Relation.ReflTransGen (Edge schemas) (str "ChatRequest")

/-- A schema that is not empty. -/
inductive IsSchema : Json → Prop
  | obj {members : List (PyStr × Json)} (hne : members ≠ []) : IsSchema (.obj members)
  | true : IsSchema (.bool true)

/-- A schema that is reached is there, and not empty. -/
def AllThere (schemas : List (PyStr × Json)) : Prop :=
  ∀ name, Reached schemas name → ∃ schema, Json.lookup schemas name = some schema ∧ IsSchema schema

theorem IsSchema.truthy {schema : Json} (h : IsSchema schema) : schema.truthy = Bool.true := by
  cases h with
  | @obj members hne =>
      show (!members.isEmpty) = _
      rw [List.isEmpty_eq_false_iff.mpr hne]
      rfl
  | true => rfl

theorem mem_getSchemaDefs {schema : Json} {name : PyStr} :
    name ∈ getSchemaDefs order schema ↔ RefersTo schema name := by
  unfold getSchemaDefs
  rw [(order.perm _).mem_iff, List.mem_dedup, mem_references_iff]

theorem mem_keys_of_lookup {name : PyStr} {schema : Json}
    (h : Json.lookup schemas name = some schema) : name ∈ schemas.map Prod.fst :=
  List.mem_map_of_mem (f := Prod.fst) (Json.mem_of_lookup h)

theorem exists_lookup {name : PyStr} (h : name ∈ schemas.map Prod.fst) :
    ∃ schema, Json.lookup schemas name = some schema := by
  obtain ⟨⟨key, schema⟩, hmem, rfl⟩ := List.mem_map.mp h
  refine Option.isSome_iff_exists.mp ?_
  unfold Json.lookup
  rw [Option.isSome_map, List.find?_isSome]
  exact ⟨_, hmem, decide_eq_true rfl⟩

/-- The search ends, with the names that are reached. -/
theorem exists_getAllDefs (order : SetOrder) (hthere : AllThere schemas) {room : Nat}
    (hroom : schemas.length < room) :
    ∃ found, getAllDefs order room (str "ChatRequest") schemas = some (.ok found) ∧
      ∀ name, name ∈ found ↔ Reached schemas name := by
  have hnodes : ∀ name, Reached schemas name → name ∈ (schemas.map Prod.fst).toFinset := by
    intro name hreach
    obtain ⟨schema, hschema, -⟩ := hthere name hreach
    exact List.mem_toFinset.mpr (mem_keys_of_lookup hschema)
  have hneighbours : ∀ name, Reached schemas name →
      ∃ found, referencedDefs order schemas name = .ok found ∧
        ∀ other, other ∈ found ↔ Edge schemas name other := by
    intro name hreach
    obtain ⟨schema, hschema, hisSchema⟩ := hthere name hreach
    refine ⟨getSchemaDefs order schema, ?_, fun other => ?_⟩
    · unfold referencedDefs
      rw [hschema]
      exact if_pos hisSchema.truthy
    · rw [mem_getSchemaDefs]
      unfold Edge
      rw [hschema]
      simp only [Option.some.injEq, exists_eq_left']
  have hcard : (schemas.map Prod.fst).toFinset.card < room := by
    refine lt_of_le_of_lt (List.toFinset_card_le _) ?_
    rwa [List.length_map]
  obtain ⟨done, hwork, -, hdone⟩ := Worklist.exists_work hnodes hneighbours hcard
  refine ⟨done.map Prod.fst, ?_, hdone⟩
  unfold getAllDefs
  rw [hwork]
  rfl

/-! ## What is written -/

/-- The document that is made, with some schemas. -/
def resultWith (schemas : List (PyStr × Json)) : List (PyStr × Json) :=
  [(str "components", .obj [(str "schemas", .obj schemas)])]

/-- A change of the schemas in the document that is made. -/
theorem change_resultSchemas {service kept : List (PyStr × Json)}
    {change : List (PyStr × Json) → Except PyError (List (PyStr × Json))}
    {changed : List (PyStr × Json)} (h : change kept = .ok changed) :
    Documents.change ⟨service, resultWith kept⟩ resultSchemas change =
      .ok ⟨service, resultWith changed⟩ := by
  have hinner : changeAt change [str "schemas"] [(str "schemas", .obj kept)] =
      .ok [(str "schemas", .obj changed)] := by
    show (change kept).map _ = _
    rw [h]
    rfl
  have houter : changeAt change [str "components", str "schemas"] (resultWith kept) =
      .ok (resultWith changed) := by
    show (changeAt change [str "schemas"] [(str "schemas", .obj kept)]).map _ = _
    rw [hinner]
    rfl
  show (changeAt change [str "components", str "schemas"] (resultWith kept)).map _ = _
  rw [houter]
  rfl

/-- A change of one schema in the document that is made. -/
theorem change_rootSchema {service kept root : List (PyStr × Json)} {rootItem : PyStr}
    (hroot : Json.lookup kept rootItem = some (.obj root)) (key : PyStr) (v : Json) :
    Documents.setItem ⟨service, resultWith kept⟩
        ⟨.result, resultSchemas.path ++ [rootItem]⟩ key v =
      .ok ⟨service, resultWith (Dict.setItems kept rootItem
        (.obj (Dict.setItems root key v)))⟩ := by
  have hchange : changeAt (fun members => .ok (Dict.setItems members key v)) [rootItem] kept =
      .ok (Dict.setItems kept rootItem (.obj (Dict.setItems root key v))) := by
    unfold changeAt
    rw [hroot]
    rfl
  -- the place of the root is one key behind that of the schemas
  exact change_resultSchemas hchange

/-- The schemas that are not referred to are deleted, one after the other. -/
theorem foldlM_delItem {service : List (PyStr × Json)} {found : List PyStr} {names : List PyStr}
    {kept : List (PyStr × Json)} (hnodup : names.Nodup) (hnames : names ⊆ kept.map Prod.fst) :
    names.foldlM (fun documents oneSchema =>
        if found.contains oneSchema then .ok documents
        else Documents.delItem documents resultSchemas oneSchema)
      (⟨service, resultWith kept⟩ : Documents) =
      .ok ⟨service, resultWith (kept.filter fun member =>
        found.contains member.1 || !names.contains member.1)⟩ := by
  induction names generalizing kept with
  | nil =>
      have hall : kept.filter (fun member =>
          found.contains member.1 || !([] : List PyStr).contains member.1) = kept :=
        List.filter_eq_self.mpr fun member _ => Bool.or_true _
      rw [hall]
      rfl
  | cons name rest ih =>
      obtain ⟨hfresh, hrest⟩ := List.nodup_cons.mp hnodup
      have hname : name ∈ kept.map Prod.fst := hnames List.mem_cons_self
      rw [List.foldlM_cons]
      by_cases hfound : found.contains name = true
      · -- it stays
        rw [if_pos hfound]
        show List.foldlM _ _ rest = _
        rw [ih hrest fun other hother => hnames (List.mem_cons_of_mem _ hother)]
        refine congrArg (fun kept => Except.ok (Documents.mk service (resultWith kept))) ?_
        refine List.filter_congr fun member _ => ?_
        by_cases heq : member.1 = name
        · rw [heq, hfound, Bool.true_or, Bool.true_or]
        · rw [List.contains_cons, beq_eq_false_iff_ne.mpr heq, Bool.false_or]
      · -- it goes, and the names that are left are still there
        rw [if_neg hfound]
        have hdelete : Documents.delItem ⟨service, resultWith kept⟩ resultSchemas name =
            .ok ⟨service, resultWith (kept.filter fun member => member.1 != name)⟩ := by
          obtain ⟨schema, hschema⟩ := exists_lookup hname
          refine change_resultSchemas ?_
          rw [hschema]
        have hstill : rest ⊆ (kept.filter fun member => member.1 != name).map Prod.fst := by
          intro other hother
          obtain ⟨member, hmember, rfl⟩ :=
            List.mem_map.mp (hnames (List.mem_cons_of_mem _ hother))
          refine List.mem_map_of_mem (List.mem_filter.mpr ⟨hmember, bne_iff_ne.mpr ?_⟩)
          rintro rfl
          exact hfresh hother
        rw [hdelete]
        show List.foldlM _ _ rest = _
        rw [ih hrest hstill, List.filter_filter]
        refine congrArg (fun kept => Except.ok (Documents.mk service (resultWith kept))) ?_
        refine List.filter_congr fun member _ => ?_
        by_cases heq : member.1 = name
        · rw [heq, Bool.eq_false_iff.mpr hfound, List.contains_cons, beq_self_eq_true,
            bne_self_eq_false, Bool.and_false, Bool.true_or, Bool.not_true, Bool.or_false]
        · rw [List.contains_cons, beq_eq_false_iff_ne.mpr heq, Bool.false_or,
            bne_iff_ne.mpr heq, Bool.and_true]

/-- The schemas that are found. -/
theorem lookup_kept {found : List PyStr} (hfound : ∀ name, name ∈ found ↔ Reached schemas name)
    (name : PyStr) : ∀ schema, Json.lookup (schemas.filter fun member =>
        found.contains member.1 || !(schemas.map Prod.fst).contains member.1) name = some schema ↔
      Reached schemas name ∧ Json.lookup schemas name = some schema := by
  intro schema
  by_cases hname : Reached schemas name
  · rw [Json.lookup_filter schemas fun v => by
      rw [List.contains_iff_mem.mpr ((hfound name).mpr hname), Bool.true_or]]
    exact (and_iff_right hname).symm
  · refine iff_of_false (fun hlookup => ?_) fun h => hname h.1
    obtain ⟨hmember, hkeep⟩ := List.mem_filter.mp (Json.mem_of_lookup hlookup)
    have hkey : (schemas.map Prod.fst).contains name = true :=
      List.contains_iff_mem.mpr (List.mem_map_of_mem (f := Prod.fst) hmember)
    rw [hkey, Bool.not_true, Bool.or_false] at hkeep
    exact hname ((hfound name).mp (List.contains_iff_mem.mp hkeep))

/-- What a value refers to after a member without references is set in it. -/
theorem refersTo_setItems {members : List (PyStr × Json)} {key name : PyStr} {v : Json}
    (hkey : key ≠ str "$ref") (hv : ∀ other, ¬ RefersTo v other)
    (h : RefersTo (.obj (Dict.setItems members key v)) name) : RefersTo (.obj members) name := by
  obtain ⟨node, hwithin, hne, hslash, hlookup⟩ := h
  cases hwithin with
  | self =>
      rw [Json.lookup_setItems, if_neg hkey.symm] at hlookup
      exact ⟨members, .self, hne, hslash, hlookup⟩
  | @member _ other w hmember hwithin =>
      have hold : w = v ∨ (other, w) ∈ members := by
        unfold Dict.setItems at hmember
        split at hmember
        · obtain ⟨member, hmem, heq⟩ := List.mem_map.mp hmember
          split at heq
          · exact .inl (congrArg Prod.snd heq).symm
          · exact .inr (heq ▸ hmem)
        · rcases List.mem_append.mp hmember with hmem | hmem
          · exact .inr hmem
          · exact .inl (congrArg Prod.snd (List.mem_singleton.mp hmem))
      rcases hold with rfl | hmem
      · exact absurd ⟨node, hwithin, hne, hslash, hlookup⟩ (hv name)
      · exact ⟨node, .member hmem hwithin, hne, hslash, hlookup⟩

/-- The schema of a chat request, made strict. -/
def strictRoot (root : List (PyStr × Json)) : List (PyStr × Json) :=
  Dict.setItems (Dict.setItems root (str "required") (.arr [.str (str "user_message")]))
    (str "additionalProperties") (.bool false)

theorem refersTo_strictRoot {root : List (PyStr × Json)} {name : PyStr}
    (h : RefersTo (.obj (strictRoot root)) name) : RefersTo (.obj root) name := by
  refine refersTo_setItems (by decide) ?_ (refersTo_setItems (by decide) ?_ h)
  · rintro other ⟨node, hwithin, -⟩
    cases hwithin with
    | item hitem hwithin =>
        rw [List.mem_singleton.mp hitem] at hwithin
        cases hwithin
  · rintro other ⟨node, hwithin, -⟩
    cases hwithin

/-- The document that is made. -/
def resultOf (kept : List (PyStr × Json)) : List (PyStr × Json) :=
  [(str "components", .obj [(str "schemas", .obj kept)]),
    (str "$ref", .str (refStart ++ str "ChatRequest"))]

/-- The schemas of a service, as far as a chat request needs them: that of the request is a
dictionary, and what is referred to from there is a schema that is not empty. -/
structure IsService (serviceSchema schemas root : List (PyStr × Json)) : Prop where
  components : ∃ components, Json.lookup serviceSchema (str "components") = some (.obj components) ∧
    Json.lookup components (str "schemas") = some (.obj schemas)
  nodup : (schemas.map Prod.fst).Nodup
  root : Json.lookup schemas (str "ChatRequest") = some (.obj root)
  resolved : ∀ name other, Reached schemas name → Edge schemas name other →
    ∃ schema, Json.lookup schemas other = some schema ∧ IsSchema schema

/-- The schemas that are kept are those that are reached. What the document refers to is among
them, and none but that of the request is another than before. -/
structure ClosedAndMinimal (schemas root kept : List (PyStr × Json)) : Prop where
  minimal : ∀ name, (∃ schema, Json.lookup kept name = some schema) ↔ Reached schemas name
  closed : ∀ name, RefersTo (.obj (resultOf kept)) name →
    ∃ schema, Json.lookup kept name = some schema
  unchanged : ∀ name, name ≠ str "ChatRequest" → Reached schemas name →
    Json.lookup kept name = Json.lookup schemas name
  strict : Json.lookup kept (str "ChatRequest") = some (.obj (strictRoot root))

variable {serviceSchema root : List (PyStr × Json)}

theorem IsService.allThere (h : IsService serviceSchema schemas root) (hroot : root ≠ []) :
    AllThere schemas := by
  intro name hreach
  cases hreach with
  | refl => exact ⟨_, h.root, .obj hroot⟩
  | tail hreach hedge => exact h.resolved _ _ hreach hedge

theorem IsService.schemasOf (h : IsService serviceSchema schemas root) (hroot : root ≠ []) :
    schemasOf (str "ChatRequest") serviceSchema = .ok schemas := by
  obtain ⟨components, hcomponents, hschemas⟩ := h.components
  have hne : schemas ≠ [] := by
    rintro rfl
    cases h.root
  have htruthy : (Json.obj schemas).truthy = true := (IsSchema.obj hne).truthy
  have hrootTruthy : (Json.obj root).truthy = true := (IsSchema.obj hroot).truthy
  unfold ToolRequestValidator.schemasOf
  rw [hcomponents, Option.getD_some]
  dsimp only
  rw [hschemas, Option.getD_some, if_pos htruthy]
  dsimp only
  rw [h.root, Option.getD_some, if_pos hrootTruthy]

/-- What the document that is made refers to. -/
theorem refersTo_resultOf {kept : List (PyStr × Json)} {name : PyStr}
    (h : RefersTo (.obj (resultOf kept)) name) :
    name = str "ChatRequest" ∨
      Json.lookup kept (str "$ref") = some (.str (refStart ++ name)) ∨
      ∃ key schema, (key, schema) ∈ kept ∧ RefersTo schema name := by
  obtain ⟨node, hwithin, hrest⟩ := h
  cases hwithin with
  | self =>
      have heq : str "ChatRequest" = name :=
        List.append_cancel_left (Json.str.inj (Option.some.inj hrest.2.2))
      exact .inl heq.symm
  | member hmember hwithin =>
      rcases List.mem_cons.mp hmember with heq | hmember
      · obtain ⟨-, rfl⟩ := Prod.mk.inj heq
        cases hwithin with
        | self => cases hrest.2.2
        | member hmember hwithin =>
            obtain ⟨-, rfl⟩ := Prod.mk.inj (List.mem_singleton.mp hmember)
            cases hwithin with
            | self => exact .inr (.inl hrest.2.2)
            | member hmember hwithin => exact .inr (.inr ⟨_, _, hmember, node, hwithin, hrest⟩)
      · obtain ⟨-, rfl⟩ := Prod.mk.inj (List.mem_singleton.mp hmember)
        cases hwithin

/-- What the schemas that are found make with the strict root. -/
theorem closedAndMinimal (h : IsService serviceSchema schemas root) (hthere : AllThere schemas)
    {kept : List (PyStr × Json)} (hnodup : (kept.map Prod.fst).Nodup)
    (hlookup : ∀ name schema, Json.lookup kept name = some schema ↔
      Reached schemas name ∧ Json.lookup schemas name = some schema) :
    ClosedAndMinimal schemas root
      (Dict.setItems kept (str "ChatRequest") (.obj (strictRoot root))) := by
  have hrefl : Reached schemas (str "ChatRequest") := Relation.ReflTransGen.refl
  have hset := Json.lookup_setItems kept (str "ChatRequest")
  -- a schema is kept if and only if the request refers to it, over others or itself
  have hminimal : ∀ name, (∃ schema, Json.lookup (Dict.setItems kept (str "ChatRequest")
      (.obj (strictRoot root))) name = some schema) ↔ Reached schemas name := by
    intro name
    rw [hset]
    split
    · rename_i heq
      exact iff_of_true ⟨_, rfl⟩ (heq ▸ hrefl)
    · constructor
      · rintro ⟨schema, hschema⟩
        exact ((hlookup name schema).mp hschema).1
      · intro hreach
        obtain ⟨schema, hschema, -⟩ := hthere name hreach
        exact ⟨schema, (hlookup name schema).mpr ⟨hreach, hschema⟩⟩
  have hunchanged : ∀ name, name ≠ str "ChatRequest" → Reached schemas name →
      Json.lookup (Dict.setItems kept (str "ChatRequest") (.obj (strictRoot root))) name =
        Json.lookup schemas name := by
    intro name hne hreach
    rw [hset, if_neg hne]
    obtain ⟨schema, hschema, -⟩ := hthere name hreach
    rw [hschema]
    exact (hlookup name schema).mpr ⟨hreach, hschema⟩
  have hstrict : Json.lookup (Dict.setItems kept (str "ChatRequest") (.obj (strictRoot root)))
      (str "ChatRequest") = some (.obj (strictRoot root)) := by
    rw [hset, if_pos rfl]
  refine ⟨hminimal, fun name hrefers => (hminimal name).mpr ?_, hunchanged, hstrict⟩
  rcases refersTo_resultOf hrefers with rfl | href | ⟨key, schema, hmember, hrefers⟩
  · exact hrefl
  · -- a schema by the name of `$ref` is no text
    have hreach : Reached schemas (str "$ref") := (hminimal _).mp ⟨_, href⟩
    obtain ⟨schema, hschema, hisSchema⟩ := hthere _ hreach
    rw [hunchanged _ (by decide) hreach, hschema] at href
    rw [Option.some.inj href] at hisSchema
    cases hisSchema
  · -- what a kept schema refers to is reached as well
    have hkeys : ((Dict.setItems kept (str "ChatRequest")
        (.obj (strictRoot root))).map Prod.fst).Nodup := by
      have hroot := (hlookup _ _).mpr ⟨hrefl, h.root⟩
      rw [Dict.setItems_keys, if_pos (mem_keys_of_lookup hroot)]
      exact hnodup
    have hfound :
        Json.lookup (Dict.setItems kept (str "ChatRequest") (.obj (strictRoot root))) key =
        some schema := (Dict.find?_map_snd_eq_some hkeys).mpr hmember
    have hreach : Reached schemas key := (hminimal key).mp ⟨schema, hfound⟩
    refine hreach.tail ?_
    by_cases hkey : key = str "ChatRequest"
    · subst hkey
      rw [hstrict] at hfound
      obtain rfl := Option.some.inj hfound
      exact ⟨_, h.root, refersTo_strictRoot hrefers⟩
    · rw [hunchanged key hkey hreach] at hfound
      exact ⟨schema, hfound, hrefers⟩

/-- What is written, if the root is among the schemas that are found. -/
theorem writeResult_eq (hnodup : (schemas.map Prod.fst).Nodup) {found : List PyStr}
    (hroot : Json.lookup (schemas.filter fun member => found.contains member.1 ||
      !(schemas.map Prod.fst).contains member.1) (str "ChatRequest") = some (.obj root)) :
    writeResult (str "ChatRequest") (str "user_message") schemas found
        ⟨serviceSchema, resultWith schemas⟩ =
      .ok ⟨serviceSchema, resultOf (Dict.setItems (schemas.filter fun member =>
        found.contains member.1 || !(schemas.map Prod.fst).contains member.1)
        (str "ChatRequest") (.obj (strictRoot root)))⟩ := by
  unfold writeResult
  rw [foldlM_delItem hnodup (List.Subset.refl _)]
  dsimp only [bind, Except.bind]
  rw [change_rootSchema hroot]
  dsimp only
  -- the second change finds the root as the first one has left it
  have hchanged : Json.lookup (Dict.setItems (schemas.filter fun member =>
      found.contains member.1 || !(schemas.map Prod.fst).contains member.1) (str "ChatRequest")
      (.obj (Dict.setItems root (str "required") (.arr [.str (str "user_message")]))))
      (str "ChatRequest") =
        some (.obj (Dict.setItems root (str "required") (.arr [.str (str "user_message")]))) := by
    rw [Json.lookup_setItems, if_pos rfl]
  rw [change_rootSchema hchanged]
  dsimp only
  rw [Json.setItems_setItems]
  rfl

/-- **The schema of tool requests.** The extraction ends, leaves the schema of the service as it
is, and makes a document that is closed and minimal. -/
theorem requestSchema_closedAndMinimal (order : SetOrder)
    (serviceSchema schemas root : List (PyStr × Json)) (h : IsService serviceSchema schemas root)
    (hroot : root ≠ []) (room : Nat) (hroom : schemas.length < room) :
    ∃ kept, requestSchema order room serviceSchema =
        some (.ok ⟨serviceSchema, resultOf kept⟩) ∧
      ClosedAndMinimal schemas root kept := by
  have hthere := h.allThere hroot
  obtain ⟨found, hgetAllDefs, hfound⟩ := exists_getAllDefs order hthere hroom
  have hkept := lookup_kept hfound
  have hrootKept := (hkept (str "ChatRequest") (.obj root)).mpr ⟨Relation.ReflTransGen.refl, h.root⟩
  have hkeys : ((schemas.filter fun member => found.contains member.1 ||
      !(schemas.map Prod.fst).contains member.1).map Prod.fst).Nodup :=
    h.nodup.sublist (List.filter_sublist.map Prod.fst)
  refine ⟨_, ?_, closedAndMinimal h hthere hkeys hkept⟩
  unfold requestSchema extractSubSchema
  rw [h.schemasOf hroot]
  dsimp only
  rw [hgetAllDefs]
  exact congrArg some (writeResult_eq h.nodup hrootKept)

end Extraction

/-- Names as they come. -/
def SetOrder.asListed : SetOrder := ⟨id, fun _ => List.Perm.refl _⟩

/-- A service with a schema for chat requests that refers to itself, and another schema. -/
theorem request_recursive : ∃ kept, requestSchema .asListed 3
      [(str "components", .obj [(str "schemas", .obj
        [(str "ChatRequest", .obj [(str "$ref", .str (str "#/components/schemas/ChatRequest"))]),
          (str "Other", .obj [])])])] =
      some (.ok ⟨[(str "components", .obj [(str "schemas", .obj
        [(str "ChatRequest", .obj [(str "$ref", .str (str "#/components/schemas/ChatRequest"))]),
          (str "Other", .obj [])])])], resultOf kept⟩) ∧
    ClosedAndMinimal
      [(str "ChatRequest", .obj [(str "$ref", .str (str "#/components/schemas/ChatRequest"))]),
        (str "Other", .obj [])]
      [(str "$ref", .str (str "#/components/schemas/ChatRequest"))] kept := by
  refine requestSchema_closedAndMinimal .asListed _ _ _ ⟨⟨_, rfl, rfl⟩, by decide, rfl, ?_⟩
    (by decide) 3 (by decide)
  rintro name other - ⟨schema, hschema, hrefers⟩
  have hother := (mem_references_iff schema).mpr hrefers
  rcases List.mem_cons.mp (Json.mem_of_lookup hschema) with heq | hmem
  · obtain rfl := congrArg Prod.snd heq
    rw [List.mem_singleton.mp (show other ∈ [str "ChatRequest"] from hother)]
    exact ⟨_, rfl, .obj (by decide)⟩
  · obtain rfl := congrArg Prod.snd (List.mem_singleton.mp hmem)
    cases hother

/-- An empty schema for chat requests is none. -/
theorem emptyRoot_raises : ¬ ∀ (order : SetOrder)
    (serviceSchema schemas root : List (PyStr × Json)), IsService serviceSchema schemas root →
    ∃ room kept, requestSchema order room serviceSchema =
        some (.ok ⟨serviceSchema, resultOf kept⟩) ∧
      ClosedAndMinimal schemas root kept := by
  intro h
  have hservice : IsService [(str "components", .obj [(str "schemas", .obj
      [(str "ChatRequest", .obj [])])])] [(str "ChatRequest", .obj [])] [] := by
    refine ⟨⟨_, rfl, rfl⟩, by decide, rfl, ?_⟩
    rintro name other - ⟨schema, hschema, hrefers⟩
    have hother := (mem_references_iff schema).mpr hrefers
    obtain rfl := congrArg Prod.snd (List.mem_singleton.mp (Json.mem_of_lookup hschema))
    cases hother
  obtain ⟨room, kept, hschema, -⟩ := h .asListed _ _ _ hservice
  cases hschema

end ToolRequestValidator

end NoraFleet.Mcp
