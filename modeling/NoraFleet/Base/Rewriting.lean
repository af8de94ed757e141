import Mathlib
import NoraFleet.Base.Replace

/-!
# Replacing patterns that do not overlap

Rules say what patterns are replaced by. Where no two occurrences of patterns overlap, it does not
matter which is replaced first: the occurrences of a text can be replaced one after the other or
all at once, and what is left can be joined again.

The rules can be applied in turn, each to all of its occurrences at that time. An occurrence that
is put together after the turn of its rule stays.

* `inTurn_eq` — where all at once leaves no pattern, so does any order, with the same result;
* `twoPasses_iff` — two passes, one over what the rules put in and one over a text, leave no
  pattern in any order exactly if two passes at once leave none.
-/

namespace Base

namespace Rewriting

variable {α : Type}

/-- A pattern, and what it is replaced by. -/
abbrev Rule (α : Type) := List α × List α

/-- An occurrence of a pattern is replaced. -/
def Step (rules : List (Rule α)) (s t : List α) : Prop :=
  ∃ rule ∈ rules, ∃ before after, s = before ++ (rule.1 ++ after) ∧ t = before ++ (rule.2 ++ after)

/-- Some occurrences of patterns are replaced at once. -/
inductive Par (rules : List (Rule α)) : List α → List α → Prop where
  | nil : Par rules [] []
  | char (c : α) {s t : List α} (h : Par rules s t) : Par rules (c :: s) (c :: t)
  | rule {rule : Rule α} (hrule : rule ∈ rules) {s t : List α} (h : Par rules s t) :
      Par rules (rule.1 ++ s) (rule.2 ++ t)

/-- No pattern occurs. -/
def Free (patterns : List (List α)) (s : List α) : Prop := ∀ pattern ∈ patterns, ¬ pattern <:+: s

/-- Occurrences of patterns are the same or apart. -/
structure NoOverlap (patterns : List (List α)) : Prop where
  nonempty : ∀ pattern ∈ patterns, pattern ≠ []
  apart : ∀ pattern ∈ patterns, ∀ other ∈ patterns, ∀ before after before' after',
    before ++ (pattern ++ after) = before' ++ (other ++ after') →
      (before = before' ∧ pattern = other) ∨ before ++ pattern <+: before' ∨
        before' ++ other <+: before

/-- Rules whose patterns do not overlap, one for each pattern. -/
structure Separate (rules : List (Rule α)) : Prop where
  nodup : (rules.map Prod.fst).Nodup
  noOverlap : NoOverlap (rules.map Prod.fst)

/-! ## Occurrences -/

section Occurrences

variable {rules : List (Rule α)} {patterns : List (List α)}

theorem NoOverlap.mono (h : NoOverlap patterns) {fewer : List (List α)} (hsub : fewer ⊆ patterns) :
    NoOverlap fewer where
  nonempty := fun pattern hpattern => h.nonempty pattern (hsub hpattern)
  apart := fun pattern hpattern other hother =>
    h.apart pattern (hsub hpattern) other (hsub hother)

theorem Free.of_isInfix {s t : List α} (h : Free patterns t) (hoccurs : s <:+: t) :
    Free patterns s :=
  fun pattern hpattern hs => h pattern hpattern (hs.trans hoccurs)

theorem exists_of_not_free {s : List α} (h : ¬ Free patterns s) :
    ∃ pattern ∈ patterns, pattern <:+: s := by
  simpa [Free] using h

theorem Separate.eq_of_fst (h : Separate rules) {rule other : Rule α} (hrule : rule ∈ rules)
    (hother : other ∈ rules) (hsame : rule.1 = other.1) : rule = other :=
  List.inj_on_of_nodup_map h.nodup hrule hother hsame

theorem Separate.perm {order : List (Rule α)} (h : Separate rules) (hperm : order.Perm rules) :
    Separate order where
  nodup := (hperm.map Prod.fst).nodup_iff.mpr h.nodup
  noOverlap := h.noOverlap.mono (hperm.map Prod.fst).subset

theorem Separate.tail {rule : Rule α} (h : Separate (rule :: rules)) : Separate rules where
  nodup := (List.nodup_cons.mp h.nodup).2
  noOverlap := h.noOverlap.mono (List.subset_cons_self _ _)

/-- What stands at the start of a text, in front of a part in which an occurrence is replaced,
stays there. -/
theorem prefix_of_step (h : NoOverlap patterns) (hrules : rules.map Prod.fst ⊆ patterns)
    {pattern : List α} (hpattern : pattern ∈ patterns) {c : α} {s t : List α}
    (hstep : Step rules s t) (hstarts : pattern <+: c :: s) : pattern <+: c :: t := by
  obtain ⟨rule, hrule, before, after, rfl, rfl⟩ := hstep
  obtain ⟨rest, hrest⟩ := hstarts
  rcases h.apart pattern hpattern rule.1 (hrules (List.mem_map_of_mem hrule)) [] rest (c :: before)
    after hrest with ⟨hnil, -⟩ | hfirst | hfirst
  · cases hnil
  · exact hfirst.trans (List.prefix_append (c :: before) _)
  · exact absurd (List.prefix_nil.mp hfirst) (List.append_ne_nil_of_left_ne_nil
      (List.cons_ne_nil c before) _)

/-- An occurrence stays where others are replaced. -/
theorem infix_of_step (h : NoOverlap patterns) (hrules : rules.map Prod.fst ⊆ patterns)
    {pattern : List α} (hpattern : pattern ∈ patterns) (hother : pattern ∉ rules.map Prod.fst)
    {s t : List α} (hstep : Step rules s t) (hoccurs : pattern <:+: s) : pattern <:+: t := by
  obtain ⟨rule, hrule, before, after, rfl, rfl⟩ := hstep
  obtain ⟨first, rest, heq⟩ := hoccurs
  rw [List.append_assoc] at heq
  have hrule' : rule.1 ∈ rules.map Prod.fst := List.mem_map_of_mem hrule
  rcases h.apart pattern hpattern rule.1 (hrules hrule') first rest before after heq with
    ⟨-, rfl⟩ | ⟨between, rfl⟩ | ⟨between, rfl⟩
  · exact absurd hrule' hother
  · exact ⟨first, between ++ (rule.2 ++ after), by simp only [List.append_assoc]⟩
  · -- the occurrence comes after what is replaced
    simp only [List.append_assoc, List.append_cancel_left_eq] at heq
    refine ⟨before ++ (rule.2 ++ between), rest, ?_⟩
    simp only [List.append_assoc, List.append_cancel_left_eq]
    exact heq

/-- An occurrence stays in any number of steps. -/
theorem infix_of_steps (h : NoOverlap patterns) (hrules : rules.map Prod.fst ⊆ patterns)
    {pattern : List α} (hpattern : pattern ∈ patterns) (hother : pattern ∉ rules.map Prod.fst)
    {s t : List α} (hsteps : Relation.ReflTransGen (Step rules) s t) (hoccurs : pattern <:+: s) :
    pattern <:+: t := by
  induction hsteps with
  | refl => exact hoccurs
  | tail _ hstep ih => exact infix_of_step h hrules hpattern hother hstep ih

/-- Two occurrences can be replaced in any order. -/
theorem Separate.diamond (h : Separate rules) {s t u : List α} (ht : Step rules s t)
    (hu : Step rules s u) :
    ∃ w, Relation.ReflGen (Step rules) t w ∧ Relation.ReflTransGen (Step rules) u w := by
  obtain ⟨rule, hrule, before, after, rfl, rfl⟩ := ht
  obtain ⟨other, hother, before', after', heq, rfl⟩ := hu
  rcases h.noOverlap.apart rule.1 (List.mem_map_of_mem hrule) other.1 (List.mem_map_of_mem hother)
    before after before' after' heq with ⟨rfl, hsame⟩ | ⟨between, rfl⟩ | ⟨between, rfl⟩
  · obtain rfl := h.eq_of_fst hrule hother hsame
    simp only [List.append_cancel_left_eq] at heq
    rw [heq]
    exact ⟨_, .refl, .refl⟩
  · simp only [List.append_assoc, List.append_cancel_left_eq] at heq
    subst heq
    refine ⟨before ++ (rule.2 ++ (between ++ (other.2 ++ after'))), .single ?_, .single ?_⟩
    · exact ⟨other, hother, before ++ (rule.2 ++ between), after', by simp, by simp⟩
    · exact ⟨rule, hrule, before, between ++ (other.2 ++ after'), by simp, by simp⟩
  · simp only [List.append_assoc, List.append_cancel_left_eq] at heq
    subst heq
    refine ⟨before' ++ (other.2 ++ (between ++ (rule.2 ++ after))), .single ?_, .single ?_⟩
    · exact ⟨other, hother, before', between ++ (rule.2 ++ after), by simp, by simp⟩
    · exact ⟨rule, hrule, before' ++ (other.2 ++ between), after, by simp, by simp⟩

/-- Where no pattern is left, everything leads there. -/
theorem Separate.steps_of_free (h : Separate rules) {s t u : List α}
    (ht : Relation.ReflTransGen (Step rules) s t) (hu : Relation.ReflTransGen (Step rules) s u)
    (hfree : Free (rules.map Prod.fst) u) : Relation.ReflTransGen (Step rules) t u := by
  obtain ⟨w, htw, huw⟩ := Relation.church_rosser (fun _ _ _ => h.diamond) ht hu
  rcases huw.cases_head with rfl | ⟨_, ⟨rule, hrule, before, after, rfl, -⟩, -⟩
  · exact htw
  · exact absurd ⟨before, after, List.append_assoc _ _ _⟩ (hfree rule.1 (List.mem_map_of_mem hrule))

end Occurrences

/-! ## Replacing all at once -/

/-- The rest of a text, behind an occurrence of which `skip` characters are left. -/
def fillFrom [DecidableEq α] (rules : List (Rule α)) : Nat → List α → List α
  | _, [] => []
  | skip + 1, _ :: rest => fillFrom rules skip rest
  | 0, c :: rest =>
      match rules.find? fun rule => rule.1.isPrefixOf (c :: rest) with
      | some rule => rule.2 ++ fillFrom rules (rule.1.length - 1) rest
      | none => c :: fillFrom rules 0 rest

/-- All occurrences of all patterns are replaced at once. -/
def fillIn [DecidableEq α] (rules : List (Rule α)) (s : List α) : List α := fillFrom rules 0 s

section Filling

variable [DecidableEq α] {rules : List (Rule α)} {patterns : List (List α)}

theorem fillFrom_eq (rules : List (Rule α)) (skip : Nat) (s : List α) :
    fillFrom rules skip s = fillIn rules (s.drop skip) := by
  induction skip generalizing s with
  | zero => rfl
  | succ skip ih =>
      cases s with
      | nil => rfl
      | cons c rest => exact ih rest

theorem fillIn_cons {c : α} {s : List α} (h : ∀ rule ∈ rules, ¬ rule.1 <+: c :: s) :
    fillIn rules (c :: s) = c :: fillIn rules s := by
  have hnone : rules.find? (fun rule => rule.1.isPrefixOf (c :: s)) = none := by
    rw [List.find?_eq_none]
    intro rule hrule hstarts
    exact h rule hrule (List.isPrefixOf_iff_prefix.mp hstarts)
  show fillFrom rules 0 (c :: s) = _
  rw [fillFrom, hnone]
  rfl

theorem fillIn_append (h : Separate rules) {rule : Rule α} (hrule : rule ∈ rules) (s : List α) :
    fillIn rules (rule.1 ++ s) = rule.2 ++ fillIn rules s := by
  have hfound : rules.find? (fun other => other.1.isPrefixOf (rule.1 ++ s)) = some rule := by
    have hsome : (rules.find? fun other => other.1.isPrefixOf (rule.1 ++ s)).isSome = true := by
      rw [List.find?_isSome]
      exact ⟨rule, hrule, List.isPrefixOf_iff_prefix.mpr (List.prefix_append _ _)⟩
    obtain ⟨other, hother⟩ := Option.isSome_iff_exists.mp hsome
    have hmem := List.mem_of_find?_eq_some hother
    have hstarts : other.1.isPrefixOf (rule.1 ++ s) = true := by
      simpa using List.find?_some hother
    obtain ⟨rest, hrest⟩ := List.isPrefixOf_iff_prefix.mp hstarts
    -- what is found begins where the pattern begins
    have hfirst : ∀ pattern ∈ rules.map Prod.fst, ∀ text, ¬ [] ++ pattern ++ text <+: [] := by
      intro pattern hpattern text hnil
      exact h.noOverlap.nonempty pattern hpattern
        (List.append_eq_nil_iff.mp (List.append_eq_nil_iff.mp (List.prefix_nil.mp hnil)).1).2
    rcases h.noOverlap.apart rule.1 (List.mem_map_of_mem hrule) other.1 (List.mem_map_of_mem hmem)
      [] s [] rest hrest.symm with ⟨-, hsame⟩ | hnil | hnil
    · rw [hother, h.eq_of_fst hrule hmem hsame]
    · exact absurd (by simpa using hnil) (hfirst rule.1 (List.mem_map_of_mem hrule) [])
    · exact absurd (by simpa using hnil) (hfirst other.1 (List.mem_map_of_mem hmem) [])
  cases hcons : rule.1 with
  | nil => exact absurd hcons (h.noOverlap.nonempty _ (List.mem_map_of_mem hrule))
  | cons c rest =>
      rw [hcons, List.cons_append] at hfound
      show fillFrom rules 0 (c :: (rest ++ s)) = _
      rw [fillFrom, hfound]
      dsimp only
      rw [hcons, List.length_cons, Nat.add_sub_cancel, fillFrom_eq, List.drop_left]

theorem fillIn_ne_nil (h : ∀ rule ∈ rules, rule.2 ≠ []) {s : List α} (hs : s ≠ []) :
    fillIn rules s ≠ [] := by
  cases s with
  | nil => exact absurd rfl hs
  | cons c rest =>
      unfold fillIn fillFrom
      split
      · rename_i rule hfound
        exact List.append_ne_nil_of_left_ne_nil (h rule (List.mem_of_find?_eq_some hfound)) _
      · exact List.cons_ne_nil c _

/-- **Going through a text**: at its start there is an occurrence, or a character at which no
pattern begins. -/
theorem scan {motive : List α → Prop} (rules : List (Rule α))
    (hnonempty : ∀ rule ∈ rules, rule.1 ≠ []) (hnil : motive [])
    (hrule : ∀ rule ∈ rules, ∀ rest, motive rest → motive (rule.1 ++ rest))
    (hchar : ∀ c rest, (∀ rule ∈ rules, ¬ rule.1 <+: c :: rest) → motive rest → motive (c :: rest))
    (s : List α) : motive s := by
  induction hlength : s.length using Nat.strong_induction_on generalizing s with
  | _ n ih =>
      cases s with
      | nil => exact hnil
      | cons c rest =>
          by_cases hthere : ∃ rule ∈ rules, rule.1 <+: c :: rest
          · obtain ⟨rule, hmem, after, hafter⟩ := hthere
            rw [← hafter]
            refine hrule rule hmem after (ih after.length ?_ after rfl)
            have hpositive := List.length_pos_of_ne_nil (hnonempty rule hmem)
            have hsum := congrArg List.length hafter
            rw [List.length_append] at hsum
            omega
          · refine hchar c rest (fun rule hmem hstarts => hthere ⟨rule, hmem, hstarts⟩)
              (ih rest.length ?_ rest rfl)
            rw [List.length_cons] at hlength
            omega

omit [DecidableEq α] in
theorem Separate.nonempty (h : Separate rules) : ∀ rule ∈ rules, rule.1 ≠ [] :=
  fun _ hrule => h.noOverlap.nonempty _ (List.mem_map_of_mem hrule)

omit [DecidableEq α] in
theorem Par.mono {fewer : List (Rule α)} (hsub : fewer ⊆ rules) {s t : List α}
    (h : Par fewer s t) : Par rules s t := by
  induction h with
  | nil => exact .nil
  | char c _ ih => exact .char c ih
  | rule hrule _ ih => exact .rule (hsub hrule) ih

omit [DecidableEq α] in
theorem Par.eq_of_nil {s t : List α} (h : Par [] s t) : s = t := by
  induction h with
  | nil => rfl
  | char c _ ih => rw [ih]
  | rule hrule => cases hrule

omit [DecidableEq α] in
theorem Par.append_left (u : List α) {s t : List α} (h : Par rules s t) :
    Par rules (u ++ s) (u ++ t) := by
  induction u with
  | nil => exact h
  | cons c rest ih => exact .char c ih

omit [DecidableEq α] in
theorem steps_append_left (u : List α) {s t : List α}
    (h : Relation.ReflTransGen (Step rules) s t) :
    Relation.ReflTransGen (Step rules) (u ++ s) (u ++ t) := by
  induction h with
  | refl => exact .refl
  | tail _ hstep ih =>
      obtain ⟨rule, hrule, before, after, rfl, rfl⟩ := hstep
      exact ih.tail ⟨rule, hrule, u ++ before, after, by rw [List.append_assoc],
        by rw [List.append_assoc]⟩

omit [DecidableEq α] in
/-- What is replaced at once can be replaced one after the other. -/
theorem Par.steps {s t : List α} (h : Par rules s t) : Relation.ReflTransGen (Step rules) s t := by
  induction h with
  | nil => exact .refl
  | char c _ ih => exact steps_append_left [c] ih
  | @rule rule hrule s t _ ih =>
      have hfirst : Step rules (rule.1 ++ s) (rule.2 ++ s) := ⟨rule, hrule, [], s, rfl, rfl⟩
      exact .head hfirst (steps_append_left rule.2 ih)

theorem par_fillIn (h : Separate rules) (s : List α) : Par rules s (fillIn rules s) := by
  induction s using scan rules h.nonempty with
  | hnil => exact .nil
  | hrule rule hrule rest ih =>
      rw [fillIn_append h hrule]
      exact .rule hrule ih
  | hchar c rest hnone ih =>
      rw [fillIn_cons hnone]
      exact .char c ih

/-- The rules of patterns that do not occur do not matter. -/
theorem fillIn_congr {others : List (Rule α)} (h : Separate rules) (hothers : Separate others)
    {s : List α} (hsub : ∀ rule ∈ rules, rule.1 <:+: s → rule ∈ others)
    (hsub' : ∀ rule ∈ others, rule.1 <:+: s → rule ∈ rules) : fillIn rules s = fillIn others s := by
  induction s using scan rules h.nonempty with
  | hnil => rfl
  | hrule rule hrule rest ih =>
      have hrest : rest <:+: rule.1 ++ rest := (List.suffix_append rule.1 rest).isInfix
      rw [fillIn_append h hrule,
        fillIn_append hothers (hsub rule hrule (List.prefix_append _ _).isInfix),
        ih (fun other hother hoccurs => hsub other hother (hoccurs.trans hrest))
          (fun other hother hoccurs => hsub' other hother (hoccurs.trans hrest))]
  | hchar c rest hnone ih =>
      have hrest : rest <:+: c :: rest := (List.suffix_cons c rest).isInfix
      have hnone' : ∀ other ∈ others, ¬ other.1 <+: c :: rest :=
        fun other hother hstarts => hnone other (hsub' other hother hstarts.isInfix) hstarts
      rw [fillIn_cons hnone, fillIn_cons hnone',
        ih (fun other hother hoccurs => hsub other hother (hoccurs.trans hrest))
          (fun other hother hoccurs => hsub' other hother (hoccurs.trans hrest))]

theorem fillIn_of_free (h : Separate rules) {s : List α} (hfree : Free (rules.map Prod.fst) s) :
    fillIn rules s = s := by
  induction s using scan rules h.nonempty with
  | hnil => rfl
  | hrule rule hrule rest _ =>
      exact absurd (List.prefix_append _ _).isInfix (hfree rule.1 (List.mem_map_of_mem hrule))
  | hchar c rest hnone ih =>
      rw [fillIn_cons hnone, ih (hfree.of_isInfix (List.suffix_cons c rest).isInfix)]

/-- A single rule copies the occurrences of other patterns. -/
theorem fillIn_other (h : Separate rules) {rule other : Rule α} (hrule : rule ∈ rules)
    (hother : other ∈ rules) (hne : other ≠ rule) (s : List α) :
    fillIn [rule] (other.1 ++ s) = other.1 ++ fillIn [rule] s := by
  have hpart : ∀ before part, other.1 = before ++ part →
      fillIn [rule] (part ++ s) = part ++ fillIn [rule] s := by
    intro before part
    induction part generalizing before with
    | nil => intro _; rfl
    | cons c rest ih =>
        intro heq
        have hnone : ∀ only ∈ [rule], ¬ only.1 <+: c :: (rest ++ s) := by
          intro only honly hstarts
          rw [List.mem_singleton.mp honly] at hstarts
          obtain ⟨after, hafter⟩ := hstarts
          have hocc : before ++ (rule.1 ++ after) = [] ++ (other.1 ++ s) := by
            rw [hafter, heq]
            simp
          rcases h.noOverlap.apart rule.1 (List.mem_map_of_mem hrule) other.1
            (List.mem_map_of_mem hother) before after [] s hocc with ⟨-, hsame⟩ | hnil | hlong
          · exact hne (h.eq_of_fst hother hrule hsame.symm)
          · have hempty := (List.append_eq_nil_iff.mp (List.prefix_nil.mp hnil)).2
            exact h.nonempty rule hrule hempty
          · have hlength := hlong.length_le
            rw [List.nil_append, heq, List.length_append, List.length_cons] at hlength
            omega
        rw [List.cons_append, fillIn_cons hnone, ih (before ++ [c]) (by simp [heq]),
          List.cons_append]
  exact hpart [] other.1 rfl

theorem infix_fillIn (h : Separate rules) {rule : Rule α} (hrule : rule ∈ rules) {s : List α}
    (hoccurs : rule.1 <:+: s) : rule.2 <:+: fillIn rules s := by
  induction s using scan rules h.nonempty with
  | hnil => exact absurd (List.infix_nil.mp hoccurs) (h.nonempty rule hrule)
  | hrule other hother rest ih =>
      rw [fillIn_append h hother]
      obtain ⟨before, after, heq⟩ := hoccurs
      rw [List.append_assoc] at heq
      rcases h.noOverlap.apart rule.1 (List.mem_map_of_mem hrule) other.1
        (List.mem_map_of_mem hother) before after [] rest heq with
        ⟨-, hsame⟩ | hnil | ⟨between, rfl⟩
      · rw [h.eq_of_fst hrule hother hsame]
        exact (List.prefix_append _ _).isInfix
      · have hempty := (List.append_eq_nil_iff.mp (List.prefix_nil.mp hnil)).2
        exact absurd hempty (h.nonempty rule hrule)
      · simp only [List.nil_append, List.append_assoc, List.append_cancel_left_eq] at heq
        have hrest : rule.1 <:+: rest := ⟨between, after, by rw [List.append_assoc, heq]⟩
        exact (ih hrest).trans (List.suffix_append other.2 _).isInfix
  | hchar c rest hnone ih =>
      rw [fillIn_cons hnone]
      rcases List.infix_cons_iff.mp hoccurs with hstarts | hrest
      · exact absurd hstarts (hnone rule hrule)
      · exact (ih hrest).trans (List.suffix_cons c _).isInfix

theorem fillIn_perm (h : Separate rules) {order : List (Rule α)} (hperm : order.Perm rules)
    (s : List α) : fillIn order s = fillIn rules s :=
  fillIn_congr (h.perm hperm) h (fun _ hrule _ => hperm.subset hrule)
    (fun _ hrule _ => hperm.symm.subset hrule)

end Filling

/-! ## Replacing in turn -/

/-- Each rule in its turn is applied to all occurrences of its pattern. -/
def inTurn [DecidableEq α] (rules : List (Rule α)) (s : List α) : List α :=
  rules.foldl (fun s rule => fillIn [rule] s) s

section Turns

variable [DecidableEq α] {rules : List (Rule α)}

theorem inTurn_cons (rule : Rule α) (rest : List (Rule α)) (s : List α) :
    inTurn (rule :: rest) s = inTurn rest (fillIn [rule] s) := rfl

theorem inTurn_concat (rest : List (Rule α)) (rule : Rule α) (s : List α) :
    inTurn (rest ++ [rule]) s = fillIn [rule] (inTurn rest s) := by
  rw [inTurn, List.foldl_append]
  rfl

theorem inTurn_ne_nil (h : ∀ rule ∈ rules, rule.2 ≠ []) {s : List α} (hs : s ≠ []) :
    inTurn rules s ≠ [] := by
  induction rules generalizing s with
  | nil => exact hs
  | cons rule rest ih =>
      rw [List.forall_mem_cons] at h
      refine ih h.2 (fillIn_ne_nil ?_ hs)
      intro only honly
      rw [List.mem_singleton.mp honly]
      exact h.1

omit [DecidableEq α] in
/-- A rule by itself. -/
theorem Separate.singleton (h : Separate rules) {rule : Rule α} (hrule : rule ∈ rules) :
    Separate [rule] where
  nodup := List.nodup_singleton _
  noOverlap := h.noOverlap.mono (by
    intro pattern hpattern
    rw [List.mem_singleton.mp hpattern]
    exact List.mem_map_of_mem hrule)

theorem steps_inTurn (h : Separate rules) (s : List α) :
    Relation.ReflTransGen (Step rules) s (inTurn rules s) := by
  have hall : ∀ order : List (Rule α), order ⊆ rules → ∀ s,
      Relation.ReflTransGen (Step rules) s (inTurn order s) := by
    intro order hsub
    induction order with
    | nil => exact fun s => .refl
    | cons rule rest ih =>
        intro s
        have hrule := hsub List.mem_cons_self
        have hfirst := (par_fillIn (h.singleton hrule) s).mono
          (List.cons_subset.mpr ⟨hrule, List.nil_subset rules⟩)
        exact hfirst.steps.trans (ih (fun _ hmem => hsub (List.mem_cons_of_mem _ hmem)) _)
  exact hall rules (List.Subset.refl _) s

/-- **The turn of one rule**, where it leads to a text without patterns: no occurrence is left
over for another turn. -/
theorem par_fillIn_singleton (h : Separate rules) {rule : Rule α} (hrule : rule ∈ rules)
    {rest : List (Rule α)} (hrest : rest ⊆ rules) {s t : List α} (hpar : Par (rule :: rest) s t)
    (hfree : Free (rules.map Prod.fst) t) : Par rest (fillIn [rule] s) t := by
  have hsub : rule :: rest ⊆ rules := List.cons_subset.mpr ⟨hrule, hrest⟩
  induction hpar with
  | nil => exact .nil
  | @char c s t hpar ih =>
      have hnone : ∀ only ∈ [rule], ¬ only.1 <+: c :: s := by
        intro only honly hstarts
        rw [List.mem_singleton.mp honly] at hstarts
        -- an occurrence here would still be there in the end
        have hend : ∀ u, Relation.ReflTransGen (Step (rule :: rest)) s u → rule.1 <+: c :: u := by
          intro u hsteps
          induction hsteps with
          | refl => exact hstarts
          | tail _ hstep ihsteps =>
              exact prefix_of_step h.noOverlap (List.map_subset _ hsub)
                (List.mem_map_of_mem hrule) hstep ihsteps
        exact hfree rule.1 (List.mem_map_of_mem hrule) (hend t hpar.steps).isInfix
      rw [fillIn_cons hnone]
      exact .char c (ih (hfree.of_isInfix (List.suffix_cons c t).isInfix))
  | @rule other hother s t hpar ih =>
      have ih := ih (hfree.of_isInfix (List.suffix_append other.2 t).isInfix)
      by_cases hsame : other = rule
      · subst hsame
        rw [fillIn_append (h.singleton hrule) List.mem_cons_self]
        exact ih.append_left other.2
      · rw [fillIn_other h hrule (hsub hother) hsame]
        exact .rule ((List.mem_cons.mp hother).resolve_left hsame) ih

/-- **In turn as at once**, where at once leaves no pattern. -/
theorem inTurn_eq (h : Separate rules) {order : List (Rule α)} (hperm : order.Perm rules)
    {s : List α} (hfree : Free (rules.map Prod.fst) (fillIn rules s)) :
    inTurn order s = fillIn rules s := by
  have hall : ∀ order : List (Rule α), order ⊆ rules → ∀ s t, Par order s t →
      Free (rules.map Prod.fst) t → inTurn order s = t := by
    intro order hsub
    induction order with
    | nil => exact fun s t hpar _ => hpar.eq_of_nil
    | cons rule rest ih =>
        intro s t hpar hfree
        obtain ⟨hrule, hrest⟩ := List.cons_subset.mp hsub
        exact ih hrest _ _ (par_fillIn_singleton h hrule hrest hpar hfree) hfree
  exact hall order hperm.subset s _ ((par_fillIn h s).mono hperm.symm.subset) hfree

theorem par_rest {rule : Rule α} {rest : List (Rule α)} (h : Separate (rule :: rest)) (s : List α) :
    Par rest (fillIn [rule] s) (fillIn (rule :: rest) s) := by
  induction s using scan (rule :: rest) h.nonempty with
  | hnil => exact .nil
  | hrule other hother after ih =>
      rw [fillIn_append h hother]
      by_cases hsame : other = rule
      · subst hsame
        rw [fillIn_append (h.singleton hother) List.mem_cons_self]
        exact ih.append_left other.2
      · rw [fillIn_other h List.mem_cons_self hother hsame]
        exact .rule ((List.mem_cons.mp hother).resolve_left hsame) ih
  | hchar c after hnone ih =>
      rw [fillIn_cons hnone, fillIn_cons fun only honly => hnone only
        (List.mem_singleton.mp honly ▸ List.mem_cons_self)]
      exact .char c ih

omit [DecidableEq α] in
theorem Separate.not_mem {rule : Rule α} {rest : List (Rule α)} (h : Separate (rule :: rest)) :
    rule.1 ∉ rest.map Prod.fst := (List.nodup_cons.mp h.nodup).1

/-- A pattern that is left at once is left if its rule has the first turn, or another one is. -/
theorem not_free_of_first {rule : Rule α} {rest : List (Rule α)} (h : Separate (rule :: rest))
    {s : List α} (hleft : rule.1 <:+: fillIn (rule :: rest) s) :
    ¬ Free ((rule :: rest).map Prod.fst) (inTurn (rule :: rest) s) := by
  intro hfree
  have hrest : Free (rest.map Prod.fst) (inTurn (rule :: rest) s) :=
    fun pattern hpattern => hfree pattern (List.mem_cons_of_mem _ hpattern)
  rw [inTurn_cons] at hfree hrest
  have hsteps := h.tail.steps_of_free (par_rest h s).steps (steps_inTurn h.tail _) hrest
  exact hfree rule.1 List.mem_cons_self
    (infix_of_steps h.noOverlap (List.subset_cons_self _ _) List.mem_cons_self h.not_mem hsteps
      hleft)

omit [DecidableEq α] in
/-- The last pattern of a list does not come in the others. -/
theorem Separate.init {rest : List (Rule α)} {rule : Rule α} (h : Separate (rest ++ [rule])) :
    Separate rest ∧ rule.1 ∉ rest.map Prod.fst := by
  have hfirst : Separate (rule :: rest) := h.perm (List.perm_append_singleton rule rest).symm
  exact ⟨hfirst.tail, hfirst.not_mem⟩

/-- A pattern is left if it is left in what the last rule puts in. -/
theorem not_free_of_last {rest : List (Rule α)} {rule : Rule α} (h : Separate (rest ++ [rule]))
    {s : List α} (hthere : rule.1 <:+: s)
    (hleft : ¬ Free ((rest ++ [rule]).map Prod.fst) rule.2) :
    ¬ Free ((rest ++ [rule]).map Prod.fst) (inTurn (rest ++ [rule]) s) := by
  intro hfree
  have hrule : rule ∈ rest ++ [rule] := List.mem_append_right _ List.mem_cons_self
  have hsub : rest.map Prod.fst ⊆ (rest ++ [rule]).map Prod.fst :=
    List.map_subset _ (List.subset_append_left _ _)
  obtain ⟨hrest, hnot⟩ := h.init
  have hstill := infix_of_steps h.noOverlap hsub (List.mem_map_of_mem hrule) hnot
    (steps_inTurn hrest s) hthere
  rw [inTurn_concat] at hfree
  exact hleft (hfree.of_isInfix (infix_fillIn (h.singleton hrule) List.mem_cons_self hstill))

/-- A pattern that is put together in what it is replaced by is left there, or another one is. -/
theorem not_free_of_self {rest : List (Rule α)} {rule : Rule α} (h : Separate (rest ++ [rule]))
    (hself : ¬ rule.1 <:+: rule.2) (hleft : rule.1 <:+: fillIn (rest ++ [rule]) rule.2) :
    ¬ Free ((rest ++ [rule]).map Prod.fst) (inTurn (rest ++ [rule]) rule.2) := by
  obtain ⟨hrest, hnot⟩ := h.init
  have hrule : rule ∈ rest ++ [rule] := List.mem_append_right _ List.mem_cons_self
  have hsub : rest.map Prod.fst ⊆ (rest ++ [rule]).map Prod.fst :=
    List.map_subset _ (List.subset_append_left _ _)
  have hsame : fillIn (rest ++ [rule]) rule.2 = fillIn rest rule.2 := by
    refine fillIn_congr h hrest (fun other hother hoccurs => ?_)
      (fun other hother _ => List.mem_append_left _ hother)
    rcases List.mem_append.mp hother with hmem | hmem
    · exact hmem
    · rw [List.mem_singleton.mp hmem] at hoccurs
      exact absurd hoccurs hself
  rw [hsame] at hleft
  rw [inTurn_concat]
  intro hfree
  by_cases hother : Free (rest.map Prod.fst) (inTurn rest rule.2)
  · -- the pattern is there when its turn comes, and all of the text is put in for it
    have hsteps := hrest.steps_of_free (par_fillIn hrest rule.2).steps (steps_inTurn hrest _) hother
    have hthere := infix_of_steps h.noOverlap hsub (List.mem_map_of_mem hrule) hnot hsteps hleft
    have hagain := hfree.of_isInfix (infix_fillIn (h.singleton hrule) List.mem_cons_self hthere)
    rw [← hsame, fillIn_of_free h hagain] at hleft
    exact hself hleft
  · obtain ⟨pattern, hpattern, hoccurs⟩ := exists_of_not_free hother
    have hne : pattern ∉ [rule].map Prod.fst := by
      intro hmem
      rw [List.map_singleton, List.mem_singleton] at hmem
      exact hnot (hmem ▸ hpattern)
    refine hfree pattern (hsub hpattern) (infix_of_steps h.noOverlap ?_ (hsub hpattern) hne
      (par_fillIn (h.singleton hrule) _).steps hoccurs)
    exact List.map_subset _ (List.subset_append_right _ _)

/-! ## Rules among themselves -/

/-- The rules, with a change of what they put in. -/
def onValues (change : List α → List α) (rules : List (Rule α)) : List (Rule α) :=
  rules.map fun rule => (rule.1, change rule.2)

omit [DecidableEq α] in
@[simp] theorem map_fst_onValues (change : List α → List α) (rules : List (Rule α)) :
    (onValues change rules).map Prod.fst = rules.map Prod.fst := by
  rw [onValues, List.map_map]
  rfl

omit [DecidableEq α] in
theorem Separate.onValues (h : Separate rules) (change : List α → List α) :
    Separate (onValues change rules) :=
  ⟨by rw [map_fst_onValues]; exact h.nodup, by rw [map_fst_onValues]; exact h.noOverlap⟩

/-- Where two changes agree on the rules of patterns that occur, so do the texts. -/
theorem fillIn_onValues_congr (h : Separate rules) {order : List (Rule α)}
    (hperm : order.Perm rules) {change change' : List α → List α} {s : List α}
    (hsame : ∀ rule ∈ rules, rule.1 <:+: s → change rule.2 = change' rule.2) :
    fillIn (onValues change order) s = fillIn (onValues change' rules) s := by
  refine fillIn_congr ((h.perm hperm).onValues change) (h.onValues change') ?_ ?_
  · intro changed hchanged hoccurs
    obtain ⟨rule, hrule, rfl⟩ := List.mem_map.mp hchanged
    have hrule' := hperm.subset hrule
    rw [hsame rule hrule' hoccurs]
    exact List.mem_map_of_mem hrule'
  · intro changed hchanged hoccurs
    obtain ⟨rule, hrule, rfl⟩ := List.mem_map.mp hchanged
    rw [← hsame rule hrule hoccurs]
    exact List.mem_map_of_mem (hperm.symm.subset hrule)

/-- **Two passes in turn are two at once**, where these leave no pattern. -/
theorem twoPasses_eq (h : Separate rules) {order : List (Rule α)} (hperm : order.Perm rules)
    {s : List α} (hfree : Free (rules.map Prod.fst) (fillIn (onValues (fillIn rules) rules) s)) :
    inTurn (onValues (inTurn order) order) s = fillIn (onValues (fillIn rules) rules) s := by
  have hvalues : ∀ rule ∈ rules, rule.1 <:+: s → inTurn order rule.2 = fillIn rules rule.2 := by
    intro rule hrule hoccurs
    have hmem : (rule.1, fillIn rules rule.2) ∈ onValues (fillIn rules) rules :=
      List.mem_map_of_mem hrule
    have hthere := infix_fillIn (h.onValues (fillIn rules)) hmem hoccurs
    exact inTurn_eq h hperm (hfree.of_isInfix hthere)
  have hsame := fillIn_onValues_congr h hperm hvalues
  have horder := (h.perm hperm).onValues (inTurn order)
  rw [← hsame]
  refine inTurn_eq horder (List.Perm.refl _) ?_
  rw [hsame, map_fst_onValues]
  exact fun pattern hpattern => hfree pattern ((hperm.map Prod.fst).subset hpattern)

/-- Where two passes at once leave a pattern, two passes in some turn do. -/
theorem exists_order (h : Separate rules) (hself : ∀ rule ∈ rules, ¬ rule.1 <:+: rule.2)
    {s : List α} (hleft : ¬ Free (rules.map Prod.fst) (fillIn (onValues (fillIn rules) rules) s)) :
    ∃ order, order.Perm rules ∧
      ¬ Free (rules.map Prod.fst) (inTurn (onValues (inTurn order) order) s) := by
  have hkeys : ∀ order : List (Rule α), order.Perm rules → ∀ t,
      ¬ Free ((onValues (inTurn order) order).map Prod.fst) t → ¬ Free (rules.map Prod.fst) t := by
    intro order hperm t hnot hfree
    rw [map_fst_onValues] at hnot
    exact hnot fun pattern hpattern => hfree pattern ((hperm.map Prod.fst).subset hpattern)
  by_cases hall : ∀ rule ∈ rules, rule.1 <:+: s → Free (rules.map Prod.fst) (fillIn rules rule.2)
  · -- the rules are right: the pattern that is left gets the first turn
    obtain ⟨pattern, hpattern, hoccurs⟩ := exists_of_not_free hleft
    obtain ⟨first, hfirst, rfl⟩ := List.mem_map.mp hpattern
    have hperm : (first :: rules.erase first).Perm rules := (List.perm_cons_erase hfirst).symm
    refine ⟨_, hperm, hkeys _ hperm _ ?_⟩
    have hsame :
        fillIn (onValues (inTurn (first :: rules.erase first)) (first :: rules.erase first))
        s = fillIn (onValues (fillIn rules) rules) s :=
      fillIn_onValues_congr h hperm fun rule hrule hthere =>
        inTurn_eq h hperm (hall rule hrule hthere)
    rw [← hsame] at hoccurs
    exact not_free_of_first ((h.perm hperm).onValues _) hoccurs
  · simp only [not_forall] at hall
    obtain ⟨last, hlast, hthere, hnot⟩ := hall
    -- the rule that is wrong gets the last turn
    have hwrong : ∃ rest, (rest ++ [last]).Perm rules ∧
        ¬ Free ((rest ++ [last]).map Prod.fst) (inTurn (rest ++ [last]) last.2) := by
      obtain ⟨pattern, hpattern, hoccurs⟩ := exists_of_not_free hnot
      obtain ⟨first, hfirst, rfl⟩ := List.mem_map.mp hpattern
      by_cases hsame : first = last
      · subst hsame
        have hperm : (rules.erase first ++ [first]).Perm rules :=
          (List.perm_append_singleton _ _).trans (List.perm_cons_erase hfirst).symm
        rw [← fillIn_perm h hperm] at hoccurs
        exact ⟨_, hperm, not_free_of_self (h.perm hperm) (hself first hfirst) hoccurs⟩
      · have hmem : first ∈ rules.erase last := (List.mem_erase_of_ne hsame).mpr hfirst
        have hperm : (first :: (rules.erase last).erase first ++ [last]).Perm rules :=
          ((List.perm_append_singleton _ _).trans
            ((List.perm_cons_erase hmem).symm.cons last)).trans
            (List.perm_cons_erase hlast).symm
        rw [← fillIn_perm h hperm] at hoccurs
        exact ⟨_, hperm, not_free_of_first (h.perm hperm) hoccurs⟩
    obtain ⟨rest, hperm, hwrong⟩ := hwrong
    refine ⟨_, hperm, hkeys _ hperm _ ?_⟩
    have hseparate := (h.perm hperm).onValues (inTurn (rest ++ [last]))
    rw [← map_fst_onValues (inTurn (rest ++ [last]))] at hwrong
    rw [onValues, List.map_append] at hseparate hwrong ⊢
    exact not_free_of_last hseparate hthere hwrong

/-- **Two passes.** Two passes in any turn leave no pattern exactly if two at once leave none. -/
theorem twoPasses_iff (h : Separate rules) (hself : ∀ rule ∈ rules, ¬ rule.1 <:+: rule.2)
    (s : List α) :
    (∀ order : List (Rule α), order.Perm rules →
        Free (rules.map Prod.fst) (inTurn (onValues (inTurn order) order) s)) ↔
      Free (rules.map Prod.fst) (fillIn (onValues (fillIn rules) rules) s) := by
  constructor
  · intro hall
    by_contra hleft
    obtain ⟨order, hperm, hnot⟩ := exists_order h hself hleft
    exact hnot (hall order hperm)
  · intro hfree order hperm
    rw [twoPasses_eq h hperm hfree]
    exact hfree

end Turns

/-! ## Texts -/

/-- `s.replace(old, new)` replaces all occurrences of one pattern. -/
theorem replace_eq_fillIn (old new s : PyStr) :
    Text.replace old new s = fillIn [(old, new)] s := by
  have hfrom : ∀ skip, Text.replaceFrom old new skip s = fillFrom [(old, new)] skip s := by
    induction s with
    | nil =>
        intro skip
        cases skip with
        | zero => rfl
        | succ skip => rfl
    | cons c rest ih =>
        intro skip
        cases skip with
        | succ skip => exact ih skip
        | zero =>
            rw [Text.replaceFrom, fillFrom, ih, ih]
            by_cases hstarts : old.isPrefixOf (c :: rest) = true
            · rw [if_pos hstarts]
              simp [List.find?, hstarts]
            · rw [if_neg hstarts]
              simp [List.find?, hstarts]
  exact hfrom 0

/-- Where a text ends first. -/
theorem eq_of_delimited {closing : α} {inner inner' after after' : List α} (h : closing ∉ inner)
    (h' : closing ∉ inner') (heq : inner ++ closing :: after = inner' ++ closing :: after') :
    inner = inner' ∧ after = after' := by
  rcases List.append_eq_append_iff.mp heq with ⟨more, rfl, hmore⟩ | ⟨more, rfl, hmore⟩
  · cases more with
    | nil => exact ⟨(List.append_nil _).symm, (List.cons.inj hmore).2⟩
    | cons c more =>
        obtain ⟨rfl, -⟩ := List.cons.inj hmore
        exact absurd (List.mem_append_right _ List.mem_cons_self) h'
  · cases more with
    | nil => exact ⟨List.append_nil _, (List.cons.inj hmore).2.symm⟩
    | cons c more =>
        obtain ⟨rfl, -⟩ := List.cons.inj hmore
        exact absurd (List.mem_append_right _ List.mem_cons_self) h

/-- Where a delimited pattern occurs behind the start of another one, it is behind its end. -/
theorem prefix_of_delimited {opening closing : α} (hne : opening ≠ closing)
    {inner after between rest : List α} (hopening : opening ∉ inner)
    (h : inner ++ closing :: after = between ++ opening :: rest) :
    inner ++ [closing] <+: between := by
  rcases List.append_eq_append_iff.mp h with ⟨more, rfl, hmore⟩ | ⟨more, rfl, hmore⟩
  · cases more with
    | nil => exact absurd (List.cons.inj hmore).1.symm hne
    | cons c more =>
        obtain ⟨rfl, -⟩ := List.cons.inj hmore
        exact ⟨more, by rw [List.append_assoc]; rfl⟩
  · cases more with
    | nil => exact absurd (List.cons.inj hmore).1 hne
    | cons c more =>
        obtain ⟨rfl, -⟩ := List.cons.inj hmore
        exact absurd (List.mem_append_right _ List.mem_cons_self) hopening

/-- Patterns that begin with one character, end with another one, and have neither in between do
not overlap. -/
theorem noOverlap_of_delimited {opening closing : α} (hne : opening ≠ closing)
    {patterns : List (List α)} (h : ∀ pattern ∈ patterns, ∃ inner : List α,
      pattern = opening :: (inner ++ [closing]) ∧ opening ∉ inner ∧ closing ∉ inner) :
    NoOverlap patterns where
  nonempty := by
    intro pattern hpattern hnil
    obtain ⟨inner, hinner, -⟩ := h pattern hpattern
    rw [hnil] at hinner
    cases hinner
  apart := by
    intro pattern hpattern other hother before after before' after' heq
    obtain ⟨inner, rfl, hopening, hclosing⟩ := h pattern hpattern
    obtain ⟨inner', rfl, hopening', hclosing'⟩ := h other hother
    simp only [List.cons_append, List.append_assoc, List.nil_append] at heq
    rcases List.append_eq_append_iff.mp heq with ⟨between, rfl, hrest⟩ | ⟨between, rfl, hrest⟩
    · cases between with
      | nil =>
          left
          obtain ⟨rfl, -⟩ := eq_of_delimited hclosing hclosing' (List.cons.inj hrest).2
          exact ⟨(List.append_nil _).symm, rfl⟩
      | cons c between =>
          obtain ⟨rfl, hbehind⟩ := List.cons.inj hrest
          obtain ⟨more, rfl⟩ := prefix_of_delimited hne hopening hbehind
          exact .inr (.inl ⟨more, by simp⟩)
    · cases between with
      | nil =>
          left
          obtain ⟨rfl, -⟩ := eq_of_delimited hclosing' hclosing (List.cons.inj hrest).2
          exact ⟨List.append_nil _, rfl⟩
      | cons c between =>
          obtain ⟨rfl, hbehind⟩ := List.cons.inj hrest
          obtain ⟨more, rfl⟩ := prefix_of_delimited hne hopening' hbehind
          exact .inr (.inr ⟨more, by simp⟩)

end Rewriting

end Base
