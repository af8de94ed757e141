import Mathlib
import NoraFleet.Base.Paths
import NoraFleet.Networks.ConfigFilters

/-!
# Defaults of an agent

`DefaultsConfigFilter` goes over the entries of `DEFAULTS_MAPPING` for each agent. A value
at the top of the configuration is copied to where the agent has none, laid under the
agent's where both are dictionaries, and left out otherwise.

* `applyDefault_eq` — what one entry does to an agent;
* `atPath_putDefaults` — what all of them make of the value at a destination;
* `sameApart_putDefaults` — and what they leave.
-/

namespace NoraFleet.Networks

open Base Json

namespace DefaultsConfigFilter

/-! ## Unions -/

/-- The entries of a list under a key. -/
def itemsUnder (members : Members) (field : PyStr) : List Json :=
  match lookup members field with
  | some (.arr items) => items
  | _ => []

/-- There is a list under a key of which unions can be made, or nothing. -/
def IsUnionList (members : Members) (field : PyStr) : Prop :=
  lookup members field = none ∨
    ∃ items, lookup members field = some (.arr items) ∧ ∀ item ∈ items, Key.IsHashable item

theorem itemsUnder_of_lookup {members : Members} {field : PyStr} {items : List Json}
    (h : lookup members field = some (.arr items)) : itemsUnder members field = items := by
  unfold itemsUnder
  rw [h]

section UnionLists

variable {members : Members} {field : PyStr}

theorem IsUnionList.getD_eq (h : IsUnionList members field) :
    (lookup members field).getD (.arr []) = .arr (itemsUnder members field) := by
  rcases h with hnone | ⟨items, hitems, -⟩
  · unfold itemsUnder
    rw [hnone]
    rfl
  · rw [itemsUnder_of_lookup hitems, hitems]
    rfl

theorem IsUnionList.isHashable (h : IsUnionList members field) :
    ∀ item ∈ itemsUnder members field, Key.IsHashable item := by
  rcases h with hnone | ⟨items, hitems, hhashable⟩
  · unfold itemsUnder
    rw [hnone]
    exact fun _ hitem => absurd hitem List.not_mem_nil
  · rwa [itemsUnder_of_lookup hitems]

end UnionLists

/-- The union of two lists. -/
theorem unionOf_eq {basis value : Members} {field : PyStr} (hbasis : IsUnionList basis field)
    (hvalue : IsUnionList value field) :
    unionOf (.arr (itemsUnder basis field)) (.arr (itemsUnder value field)) =
      .ok (onceEach Key.of (itemsUnder basis field ++ itemsUnder value field)) := by
  unfold unionOf
  refine fromKeys_eq fun item hitem => ?_
  rcases List.mem_append.mp hitem with hfirst | hlast
  · exact hbasis.isHashable item hfirst
  · exact hvalue.isHashable item hlast

/-! ## One default -/

deriving instance DecidableEq for Default

/-- The keys of the destination of a default. -/
def Default.dest (default : Default) : List PyStr := default.destKey.splitOn 46

/-- A value at the top of a configuration. -/
def topValue (config : Members) (key : PyStr) : Json :=
  ((Json.obj config).atPath (key.splitOn 46)).getD .null

/-- What a default offers to an agent. -/
def offer (config : Members) (isFrontMan : Bool) (default : Default) : Json :=
  if default.frontManOnly && !isFrontMan then .null else topValue config default.sourceKey

section OneDefault

variable (overlay : Overlay)

/-- The deep merge of two dictionaries, with the unions of some fields. -/
def mergeOf (unionFields : List PyStr) (basis value : Members) : Members :=
  unionFields.foldl (fun merged field => Dict.setItems merged field
      (.arr (onceEach Key.of (itemsUnder basis field ++ itemsUnder value field))))
    (overlay basis value)

/-- What is offered goes into an agent. -/
def putDefault (default : Default) (offered : Json) (tool : Members) : Members :=
  match offered, ((Json.obj tool).atPath default.dest).getD .null with
  | .null, _ => tool
  | offered, .null => setAt offered default.dest tool
  | .obj basis, .obj value =>
      setAt (.obj (mergeOf overlay default.unionFields basis value)) default.dest tool
  | _, _ => tool

/-- What is at a destination, with what is offered laid under it. -/
def laid (unionFields : List PyStr) (old : Option Json) (offered : Json) : Option Json :=
  match offered, old.getD .null with
  | .null, _ => old
  | offered, .null => some offered
  | .obj basis, .obj value => some (.obj (mergeOf overlay unionFields basis value))
  | _, _ => old

/-- Where a union is made, there are lists of which it can be made. -/
def HasUnionLists (default : Default) (offered : Json) (tool : Members) : Prop :=
  ∀ basis value, offered = .obj basis → (Json.obj tool).atPath default.dest = some (.obj value) →
    ∀ field ∈ default.unionFields, IsUnionList basis field ∧ IsUnionList value field

/-- An extractor that follows the keys of a path. -/
def Extracts (extractorGet : ExtractorGet) : Prop :=
  ∀ members path, extractorGet (.obj members) path .null =
    .ok (((Json.obj members).atPath (path.splitOn 46)).getD .null)

variable {overlay}

/-- `set_tool_value(target, key, value)` of a dictionary. -/
theorem setToolValue_eq (value : Json) (path : List PyStr) (target : Members) :
    setToolValue value path (.obj target) = .ok (.obj (setAt value path target)) := by
  induction path generalizing target with
  | nil => rfl
  | cons first rest ih =>
      cases rest with
      | nil => rfl
      | cons second rest =>
          unfold setToolValue setAt partAt
          cases hlookup : (lookup target first).getD .null with
          | null =>
              dsimp only
              rw [ih]
              rfl
          | obj part =>
              dsimp only
              rw [ih]
              rfl
          | _ => rfl

/-- Two dictionaries are merged. -/
theorem mergeDictionaries_eq {default : Default} {basis value tool : Members}
    (hdest : default.dest ≠ []) (hfree : IsFree default.dest tool)
    (hlists : ∀ field ∈ default.unionFields, IsUnionList basis field ∧ IsUnionList value field) :
    mergeDictionaries overlay default basis value (.obj tool) =
      .ok (.obj (setAt (.obj (mergeOf overlay default.unionFields basis value)) default.dest
        tool)) := by
  unfold mergeDictionaries
  dsimp only
  rw [show default.destKey.splitOn 46 = default.dest from rfl, setToolValue_eq]
  dsimp only
  -- each union goes into what was merged so far
  refine @foldlM_eq_ok _ _ _ _ _
    (fun merged : Members => Json.obj (setAt (.obj merged) default.dest tool))
    default.unionFields (fun field hfield merged => ?_) (overlay basis value)
  obtain ⟨hbasis, hvalue⟩ := hlists field hfield
  rw [hbasis.getD_eq, hvalue.getD_eq, unionOf_eq hbasis hvalue]
  dsimp only
  rw [setToolValue_eq, setAt_append _ _ _ hdest hfree]

/-- **One default goes into one agent.** -/
theorem applyDefault_eq {extractorGet : ExtractorGet} (hget : Extracts extractorGet)
    {config tool : Members} {isFrontMan : Bool} {default : Default} (hdest : default.dest ≠ [])
    (hlists : HasUnionLists default (offer config isFrontMan default) tool) :
    applyDefault extractorGet overlay (.obj config) isFrontMan (.obj tool) default =
      .ok (.obj (putDefault overlay default (offer config isFrontMan default) tool)) := by
  unfold applyDefault
  rw [hget, show ((Json.obj config).atPath _).getD _ = topValue config default.sourceKey from rfl]
  unfold offer at hlists ⊢
  by_cases hskip : (default.frontManOnly && !isFrontMan) = true
  · rw [if_pos hskip]
    cases topValue config default.sourceKey with
    | null => rfl
    | _ => exact if_pos hskip
  · rw [if_neg hskip] at hlists ⊢
    rw [hget, show default.destKey.splitOn 46 = default.dest from rfl]
    cases hoffered : topValue config default.sourceKey with
    | null => rfl
    | obj basis =>
        dsimp only
        rw [if_neg hskip]
        unfold putDefault
        cases hvalue : (Json.obj tool).atPath default.dest with
        | none => exact setToolValue_eq _ _ _
        | some value =>
            rw [Option.getD_some]
            cases value with
            | null => exact setToolValue_eq _ _ _
            | obj value =>
                exact mergeDictionaries_eq hdest (isFree_of_atPath hvalue)
                  (hlists basis value hoffered hvalue)
            | _ => rfl
    | _ =>
        dsimp only
        rw [if_neg hskip]
        unfold putDefault
        cases ((Json.obj tool).atPath default.dest).getD .null with
        | null => exact setToolValue_eq _ _ _
        | _ => rfl

/-! ## What one default changes -/

section PutDefault

variable {default : Default} {offered : Json} {tool : Members}

/-- A value that is neither null nor a dictionary is left. -/
theorem putDefault_of_scalar {v : Json} (hold : (Json.obj tool).atPath default.dest = some v)
    (hnull : v ≠ .null) (hscalar : ∀ members, v ≠ .obj members) :
    putDefault overlay default offered tool = tool := by
  unfold putDefault
  rw [hold, Option.getD_some]
  cases v with
  | null => exact absurd rfl hnull
  | obj members => exact absurd rfl (hscalar members)
  | _ => cases offered <;> rfl

/-- A dictionary is left where no dictionary is offered. -/
theorem putDefault_of_dict {value : Members}
    (hold : (Json.obj tool).atPath default.dest = some (.obj value))
    (hoffered : ∀ members, offered ≠ .obj members) :
    putDefault overlay default offered tool = tool := by
  unfold putDefault
  rw [hold, Option.getD_some]
  cases offered with
  | obj members => exact absurd rfl (hoffered members)
  | _ => rfl

/-- Two dictionaries are merged. -/
theorem putDefault_merge {basis value : Members}
    (hold : (Json.obj tool).atPath default.dest = some (.obj value)) :
    putDefault overlay default (.obj basis) tool =
      setAt (.obj (mergeOf overlay default.unionFields basis value)) default.dest tool := by
  unfold putDefault
  rw [hold]
  rfl

/-- A missing or null value becomes what is offered. -/
theorem putDefault_of_missing (hoffered : offered ≠ .null)
    (hold : ((Json.obj tool).atPath default.dest).getD .null = .null) :
    putDefault overlay default offered tool = setAt offered default.dest tool := by
  unfold putDefault
  rw [hold]
  cases offered with
  | null => exact absurd rfl hoffered
  | _ => rfl

theorem putDefault_of_not_isFree (hlength : default.dest.length ≤ 2)
    (h : ¬IsFree default.dest tool) : putDefault overlay default offered tool = tool := by
  have hold := atPath_of_not_isFree h
  by_cases hoffered : offered = .null
  · rw [hoffered]
    rfl
  · rw [putDefault_of_missing hoffered (by rw [hold]; rfl), setAt_of_not_isFree _ hlength h]

/-- A default is put as a whole, or not at all. -/
theorem putDefault_cases (overlay : Overlay) (default : Default) (offered : Json) (tool : Members) :
    putDefault overlay default offered tool = tool ∨
      ∃ v, putDefault overlay default offered tool = setAt v default.dest tool := by
  unfold putDefault
  split
  · exact .inl rfl
  · exact .inr ⟨_, rfl⟩
  · exact .inr ⟨_, rfl⟩
  · exact .inl rfl

/-- A destination begins with another key than a path. -/
def Apart (default : Default) (path : List PyStr) : Prop := default.dest.head? ≠ path.head?

theorem lookup_putDefault {key : PyStr} (hkey : default.dest.head? ≠ some key) :
    lookup (putDefault overlay default offered tool) key = lookup tool key := by
  rcases putDefault_cases overlay default offered tool with heq | ⟨v, heq⟩
  · rw [heq]
  · rw [heq]
    cases hdest : default.dest with
    | nil => rfl
    | cons first rest =>
        rw [hdest] at hkey
        exact lookup_setAt_of_ne v (fun hsame => hkey (congrArg some hsame.symm)) rest tool

/-- What is at a path apart from the destination stays. -/
theorem atPath_putDefault {path : List PyStr} (hpath : path ≠ []) (hapart : Apart default path) :
    (Json.obj (putDefault overlay default offered tool)).atPath path =
      (Json.obj tool).atPath path := by
  unfold Apart at hapart
  cases path with
  | nil => exact absurd rfl hpath
  | cons first rest => rw [atPath_obj, atPath_obj, lookup_putDefault hapart]

theorem isFree_putDefault {path : List PyStr} (hapart : Apart default path) :
    IsFree path (putDefault overlay default offered tool) ↔ IsFree path tool := by
  unfold Apart at hapart
  cases path with
  | nil => exact Iff.rfl
  | cons first rest =>
      cases rest with
      | nil => exact Iff.rfl
      | cons second rest =>
          unfold IsFree partAt
          rw [lookup_putDefault hapart]

/-- What is at the destination itself. -/
theorem atPath_putDefault_dest (hdest : default.dest ≠ []) (hfree : IsFree default.dest tool) :
    (Json.obj (putDefault overlay default offered tool)).atPath default.dest =
      laid overlay default.unionFields ((Json.obj tool).atPath default.dest) offered := by
  unfold putDefault laid
  cases offered <;> cases ((Json.obj tool).atPath default.dest).getD .null <;>
    first | rfl | exact atPath_setAt _ hdest hfree

theorem isFree_putDefault_dest (hdest : default.dest ≠ []) (hlength : default.dest.length ≤ 2) :
    IsFree default.dest (putDefault overlay default offered tool) ↔ IsFree default.dest tool := by
  by_cases hfree : IsFree default.dest tool
  · refine iff_of_true ?_ hfree
    rcases putDefault_cases overlay default offered tool with heq | ⟨v, heq⟩
    · rw [heq]
      exact hfree
    · rw [heq]
      exact isFree_of_atPath (atPath_setAt v hdest hfree)
  · rw [putDefault_of_not_isFree hlength hfree]

end PutDefault

/-! ## All defaults of an agent -/

variable (overlay)

/-- Defaults go into an agent one after the other. -/
def putDefaults (offers : Default → Json) (defaults : List Default) (tool : Members) : Members :=
  defaults.foldl (fun tool default => putDefault overlay default (offers default) tool) tool

/-- Something other than null. -/
def nonNull : Json → Option Json
  | .null => none
  | v => some v

/-- What is offered for a destination, in order. -/
def offersTo (offers : Default → Json) (dest : List PyStr) (defaults : List Default) : List Json :=
  (defaults.filter fun default => default.dest = dest).filterMap fun default =>
    nonNull (offers default)

/-- The dictionaries of a list. -/
def dictsOf (offered : List Json) : List Members :=
  offered.filterMap fun
    | .obj members => some members
    | _ => none

/-- Dictionaries laid under another one after the other. -/
def laidUnder (unionFields : List PyStr) (value : Members) (dicts : List Members) : Members :=
  dicts.foldl (fun value basis => mergeOf overlay unionFields basis value) value

/-- What becomes of nothing, or of null: the first of what is offered, with the other
dictionaries laid under it if it is one. -/
def takenOver (unionFields : List PyStr) (old : Option Json) : List Json → Option Json
  | [] => old
  | .obj value :: rest => some (.obj (laidUnder overlay unionFields value (dictsOf rest)))
  | first :: _ => some first

section Runs

variable {overlay} {offers : Default → Json} {defaults : List Default} {tool : Members}
    {path : List PyStr}

/-- What is in the way of a path stays there. -/
theorem isFree_putDefaults (hpath : path ≠ [] ∧ path.length ≤ 2)
    (hdefaults : ∀ default ∈ defaults, default.dest = path ∨ Apart default path) :
    IsFree path (putDefaults overlay offers defaults tool) ↔ IsFree path tool := by
  induction defaults generalizing tool with
  | nil => exact Iff.rfl
  | cons default rest ih =>
      rw [List.forall_mem_cons] at hdefaults
      refine (ih hdefaults.2).trans ?_
      rcases hdefaults.1 with rfl | hapart
      · exact isFree_putDefault_dest hpath.1 hpath.2
      · exact isFree_putDefault hapart

/-- At a path that is open, everything that is offered for it is laid under what is there. -/
theorem atPath_putDefaults (hpath : path ≠ [] ∧ path.length ≤ 2) (hfree : IsFree path tool)
    (hdefaults : ∀ default ∈ defaults, default.dest = path ∨ Apart default path) :
    (Json.obj (putDefaults overlay offers defaults tool)).atPath path =
      (defaults.filter fun default => default.dest = path).foldl
        (fun old default => laid overlay default.unionFields old (offers default))
        ((Json.obj tool).atPath path) := by
  induction defaults generalizing tool with
  | nil => rfl
  | cons default rest ih =>
      rw [List.forall_mem_cons] at hdefaults
      rw [List.filter_cons]
      by_cases hdest : default.dest = path
      · subst hdest
        rw [if_pos (decide_eq_true rfl), List.foldl_cons, ← atPath_putDefault_dest hpath.1 hfree]
        exact ih ((isFree_putDefault_dest hpath.1 hpath.2).mpr hfree) hdefaults.2
      · have hapart := hdefaults.1.resolve_left hdest
        have hfree' : IsFree path (putDefault overlay default (offers default) tool) :=
          (isFree_putDefault hapart).mpr hfree
        rw [decide_eq_false hdest, if_neg (by simp)]
        exact (ih hfree' hdefaults.2).trans (by rw [atPath_putDefault hpath.1 hapart])

/-- Nothing is laid under a value that is neither null nor a dictionary. -/
theorem laid_of_scalar (unionFields : List PyStr) {v : Json} (hnull : v ≠ .null)
    (hscalar : ∀ members, v ≠ .obj members) (offered : Json) :
    laid overlay unionFields (some v) offered = some v := by
  cases v with
  | null => exact absurd rfl hnull
  | obj members => exact absurd rfl (hscalar members)
  | _ => cases offered <;> rfl

theorem foldl_laid_of_scalar {v : Json} (hnull : v ≠ .null) (hscalar : ∀ members, v ≠ .obj members)
    (defaults : List Default) :
    defaults.foldl (fun old default => laid overlay default.unionFields old (offers default))
      (some v) = some v := by
  induction defaults with
  | nil => rfl
  | cons default rest ih => rwa [List.foldl_cons, laid_of_scalar _ hnull hscalar]

/-- Only dictionaries are laid under a dictionary. -/
theorem foldl_laid_of_dict {unionFields : List PyStr}
    (hunion : ∀ default ∈ defaults, default.unionFields = unionFields) (value : Members) :
    defaults.foldl (fun old default => laid overlay default.unionFields old (offers default))
        (some (.obj value)) =
      some (.obj (laidUnder overlay unionFields value
        (dictsOf (defaults.filterMap fun default => nonNull (offers default))))) := by
  induction defaults generalizing value with
  | nil => rfl
  | cons default rest ih =>
      rw [List.forall_mem_cons] at hunion
      rw [List.foldl_cons, List.filterMap_cons, hunion.1]
      cases offers default with
      | obj basis => exact ih hunion.2 _
      | _ => exact ih hunion.2 value

/-- The first value that is offered is taken where there is none. -/
theorem foldl_laid_of_missing {unionFields : List PyStr}
    (hunion : ∀ default ∈ defaults, default.unionFields = unionFields) {old : Option Json}
    (hold : old.getD .null = .null) :
    defaults.foldl (fun old default => laid overlay default.unionFields old (offers default)) old =
      takenOver overlay unionFields old
        (defaults.filterMap fun default => nonNull (offers default)) := by
  induction defaults with
  | nil => rfl
  | cons default rest ih =>
      rw [List.forall_mem_cons] at hunion
      rw [List.foldl_cons, List.filterMap_cons, hunion.1]
      unfold laid
      rw [hold]
      cases hoffered : offers default with
      | null => exact ih hunion.2
      | obj value => exact foldl_laid_of_dict hunion.2 value
      | _ => exact foldl_laid_of_scalar (by simp) (by simp) rest

/-- Nothing changes but what is at some paths or below, and what is made above them. -/
def SameApart (paths : List (List PyStr)) (tool newTool : Members) : Prop :=
  ∀ other, (∀ path ∈ paths, ¬ path <+: other) →
    (Json.obj newTool).valueAt other = (Json.obj tool).valueAt other ∨
      ((∃ path ∈ paths, other <+: path) ∧ ((Json.obj tool).valueAt other = none ∨
          (Json.obj tool).valueAt other = some .null) ∧
        (Json.obj newTool).valueAt other = some (.obj []))

/-- Defaults change what is at their destinations. -/
theorem sameApart_putDefaults :
    SameApart (defaults.map Default.dest) tool (putDefaults overlay offers defaults tool) := by
  induction defaults generalizing tool with
  | nil => exact fun _ _ => .inl rfl
  | cons default rest ih =>
      intro other hother
      rw [List.map_cons, List.forall_mem_cons] at hother
      have hstep : (Json.obj (putDefault overlay default (offers default) tool)).valueAt other =
            (Json.obj tool).valueAt other ∨
          (other <+: default.dest ∧ ((Json.obj tool).valueAt other = none ∨
              (Json.obj tool).valueAt other = some .null) ∧
            (Json.obj (putDefault overlay default (offers default) tool)).valueAt other =
              some (.obj [])) := by
        rcases putDefault_cases overlay default (offers default) tool with heq | ⟨v, heq⟩
        · exact .inl (by rw [heq])
        · rw [heq]
          exact valueAt_setAt v tool hother.1
      have hlater : SameApart (rest.map Default.dest)
          (putDefault overlay default (offers default) tool)
          (putDefaults overlay offers (default :: rest) tool) := ih
      rcases hlater other hother.2 with hsame | ⟨⟨path, hpath, habove⟩, hbefore, hmade⟩
      · rcases hstep with hfirst | ⟨habove, hbefore, hmade⟩
        · exact .inl (hsame.trans hfirst)
        · exact .inr ⟨⟨_, List.mem_cons_self, habove⟩, hbefore, hsame.trans hmade⟩
      · rcases hstep with hfirst | ⟨-, -, hthere⟩
        · rw [hfirst] at hbefore
          exact .inr ⟨⟨path, List.mem_cons_of_mem _ hpath, habove⟩, hbefore, hmade⟩
        · -- what the first one made is no longer missing
          rw [hthere] at hbefore
          rcases hbefore with hnone | hnull
          · cases hnone
          · cases hnull

end Runs

end OneDefault

end DefaultsConfigFilter

end NoraFleet.Networks
