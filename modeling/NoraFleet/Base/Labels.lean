import Mathlib

/-!
# Paths that are written with a separator

A path is written as the labels of its entries, one after the other, with a separator
between them. What is written tells the path when, wherever two paths part, the labels
there are apart: neither is the other, nor goes on behind the other with a separator.

* `apart_iff_ne` — labels without separators are apart when they differ;
* `eq_of_intercalate_eq` — what is written tells the path.
-/

namespace Base

namespace Labels

variable {α ι : Type*} {sep : α}

/-- Two labels differ, and neither goes on behind the other with a separator. -/
def Apart (sep : α) (first second : List α) : Prop :=
  first ≠ second ∧ ¬(first ++ [sep]) <+: second ∧ ¬(second ++ [sep]) <+: first

theorem Apart.symm {first second : List α} (h : Apart sep first second) : Apart sep second first :=
  ⟨h.1.symm, h.2.2, h.2.1⟩

/-- Without separators in them, labels are apart when they differ. -/
theorem apart_iff_ne {first second : List α} (hfirst : sep ∉ first) (hsecond : sep ∉ second) :
    Apart sep first second ↔ first ≠ second := by
  have hnot : ∀ {a b : List α}, sep ∉ b → ¬(a ++ [sep]) <+: b := by
    intro a b hb hcontinues
    exact hb (hcontinues.subset (by simp))
  exact ⟨fun h => h.1, fun h => ⟨h, hnot hsecond, hnot hfirst⟩⟩

/-- The first label, and what is written behind it. -/
theorem intercalate_cons (sep : α) (label : List α) (rest : List (List α)) :
    ∃ behind, [sep].intercalate (label :: rest) = label ++ behind ∧
      ((rest = [] ∧ behind = []) ∨ (rest ≠ [] ∧ behind = sep :: [sep].intercalate rest)) := by
  cases rest with
  | nil => exact ⟨[], by simp [List.intercalate], .inl ⟨rfl, rfl⟩⟩
  | cons second others =>
      refine ⟨sep :: [sep].intercalate (second :: others), ?_, .inr ⟨by simp, rfl⟩⟩
      simp [List.intercalate, List.intersperse]

theorem mem_intercalate {c : α} {labels : List (List α)} (h : c ∈ [sep].intercalate labels) :
    c = sep ∨ ∃ label ∈ labels, c ∈ label := by
  induction labels with
  | nil => simp [List.intercalate] at h
  | cons label rest ih =>
      obtain ⟨behind, hcons, hcases⟩ := intercalate_cons sep label rest
      rw [hcons, List.mem_append] at h
      rcases h with h | h
      · exact .inr ⟨label, List.mem_cons_self, h⟩
      · rcases hcases with ⟨-, rfl⟩ | ⟨-, rfl⟩
        · exact absurd h List.not_mem_nil
        · rcases List.mem_cons.mp h with rfl | h
          · exact .inl rfl
          · rcases ih h with rfl | ⟨other, hother, hc⟩
            · exact .inl rfl
            · exact .inr ⟨other, List.mem_cons_of_mem _ hother, hc⟩

/-- A label with something behind it is no other label that is apart from it. -/
theorem append_ne_of_apart {first second behind behind' : List α} (h : Apart sep first second)
    (hbehind : behind = [] ∨ ∃ rest, behind = sep :: rest)
    (hbehind' : behind' = [] ∨ ∃ rest, behind' = sep :: rest) :
    first ++ behind ≠ second ++ behind' := by
  -- the longer label begins with the shorter one, and what follows is behind a separator
  have hlonger : ∀ {a b more tail other : List α}, Apart sep a b → b = a ++ more →
      tail = more ++ other → (tail = [] ∨ ∃ rest, tail = sep :: rest) → False := by
    intro a b more tail other hapart hb hmore hend
    cases more with
    | nil => exact hapart.1 (by rw [hb, List.append_nil])
    | cons c others =>
        rcases hend with rfl | ⟨rest, rfl⟩
        · cases hmore
        · rw [List.cons_append, List.cons.injEq] at hmore
          exact hapart.2.1 ⟨others, by rw [hb, hmore.1, List.append_assoc]; rfl⟩
  intro heq
  rcases List.append_eq_append_iff.mp heq with ⟨more, hsecond, hmore⟩ | ⟨more, hfirst, hmore⟩
  · exact hlonger h hsecond hmore hbehind
  · exact hlonger h.symm hfirst hmore hbehind'

/-- What is written tells the path, where the labels at which two paths part are apart. -/
theorem eq_of_intercalate_eq {label : ι → List α} {first second : List ι}
    (hfirst : ∀ e ∈ first, label e ≠ []) (hsecond : ∀ e ∈ second, label e ≠ [])
    (happart : ∀ path a b, path ++ [a] <+: first → path ++ [b] <+: second → a ≠ b →
      Apart sep (label a) (label b))
    (heq : [sep].intercalate (first.map label) = [sep].intercalate (second.map label)) :
    first = second := by
  have hnil : ∀ {l : List ι}, (∀ e ∈ l, label e ≠ []) →
      [sep].intercalate (l.map label) = [] → l = [] := by
    intro l hl h
    cases l with
    | nil => rfl
    | cons a rest =>
        obtain ⟨behind, hcons, -⟩ := intercalate_cons sep (label a) (rest.map label)
        rw [List.map_cons, hcons, List.append_eq_nil_iff] at h
        exact absurd h.1 (hl a List.mem_cons_self)
  -- the induction is on the first list: equal labels are taken off both texts
  induction first generalizing second with
  | nil => exact (hnil hsecond heq.symm).symm
  | cons a rest ih =>
      cases second with
      | nil => exact hnil hfirst heq
      | cons b rest' =>
          obtain ⟨behind, hbehind, hcases⟩ := intercalate_cons sep (label a) (rest.map label)
          obtain ⟨behind', hbehind', hcases'⟩ := intercalate_cons sep (label b) (rest'.map label)
          rw [List.map_cons, List.map_cons, hbehind, hbehind'] at heq
          by_cases hab : a = b
          · subst hab
            have hrest := List.append_cancel_left heq
            rcases hcases with ⟨hempty, rfl⟩ | ⟨-, rfl⟩
            · rcases hcases' with ⟨hempty', -⟩ | ⟨-, rfl⟩
              · rw [List.map_eq_nil_iff.mp hempty, List.map_eq_nil_iff.mp hempty']
              · cases hrest
            · rcases hcases' with ⟨-, rfl⟩ | ⟨-, rfl⟩
              · cases hrest
              · congr 1
                apply ih (fun e he => hfirst e (List.mem_cons_of_mem _ he))
                  (fun e he => hsecond e (List.mem_cons_of_mem _ he)) _ (List.cons.inj hrest).2
                intro path c d hc hd
                exact happart (a :: path) c d (List.prefix_cons_inj a |>.mpr hc)
                  (List.prefix_cons_inj a |>.mpr hd)
          · -- where the lists part, the labels are apart, and so are the texts
            have hapart : Apart sep (label a) (label b) := by
              apply happart [] a b _ _ hab
              · exact ⟨rest, rfl⟩
              · exact ⟨rest', rfl⟩
            refine absurd heq (append_ne_of_apart hapart ?_ ?_)
            · rcases hcases with ⟨-, rfl⟩ | ⟨-, rfl⟩
              · exact .inl rfl
              · exact .inr ⟨_, rfl⟩
            · rcases hcases' with ⟨-, rfl⟩ | ⟨-, rfl⟩
              · exact .inl rfl
              · exact .inr ⟨_, rfl⟩

end Labels

end Base
