import Mathlib
import NoraFleet.Base.Text

/-!
# Replacing in a text

`s.replace(old, new)`, and what it does where it makes one character of two or two of
one. A text in which every character `c` is doubled has only runs of `c` of even length,
and halving these runs gives the text back. Doublings and halvings of different
characters do not get in each other's way.

* `Text.halve_double` — halving undoes doubling;
* `Text.halve_double_comm`, `Text.double_comm` — two characters are independent;
* `Text.even_run_double` — the runs in a text of doubled characters.
-/

namespace Base

namespace Text

/-- The rest of `s.replace(old, new)`, behind an occurrence of which `skip` characters
are left. -/
def replaceFrom (old new : PyStr) : Nat → PyStr → PyStr
  | _, [] => []
  | skip + 1, _ :: rest => replaceFrom old new skip rest
  | 0, c :: rest =>
      if old.isPrefixOf (c :: rest) then new ++ replaceFrom old new (old.length - 1) rest
      else c :: replaceFrom old new 0 rest

/-- `s.replace(old, new)`, of an `old` that is not empty. -/
def replace (old new s : PyStr) : PyStr := replaceFrom old new 0 s

/-- Every `c` twice. -/
def double (c : Nat) (s : PyStr) : PyStr := s.flatMap fun x => if x = c then [c, c] else [x]

/-- One `c` for every two, from the left. -/
def halve (c : Nat) : PyStr → PyStr
  | [] => []
  | [x] => [x]
  | x :: y :: rest => if x = c ∧ y = c then c :: halve c rest else x :: halve c (y :: rest)

/-- An opening or a closing brace. -/
def isBrace (c : Nat) : Bool := c = 123 || c = 125

section Runs

variable {c d : Nat}

theorem double_cons (x : Nat) (s : PyStr) :
    double c (x :: s) = (if x = c then [c, c] else [x]) ++ double c s := rfl

@[simp] theorem double_cons_self (s : PyStr) : double c (c :: s) = c :: c :: double c s := by
  rw [double_cons, if_pos rfl]
  rfl

theorem double_cons_of_ne {x : Nat} (h : x ≠ c) (s : PyStr) :
    double c (x :: s) = x :: double c s := by
  rw [double_cons, if_neg h]
  rfl

@[simp] theorem halve_pair (s : PyStr) : halve c (c :: c :: s) = c :: halve c s := by
  rw [halve, if_pos ⟨rfl, rfl⟩]

theorem halve_cons_of_ne {x : Nat} (h : x ≠ c) (s : PyStr) : halve c (x :: s) = x :: halve c s := by
  cases s with
  | nil => rfl
  | cons y rest => rw [halve, if_neg fun both => h both.1]

/-- A single `c` stays. -/
theorem halve_cons_of_head (x : Nat) {s : PyStr} (h : s.head? ≠ some c) :
    halve c (x :: s) = x :: halve c s := by
  cases s with
  | nil => rfl
  | cons y rest => rw [halve, if_neg fun both => h (congrArg some both.2)]

/-! ## Replacements -/

/-- `s.replace("c", "cc")`. -/
theorem replace_single (s : PyStr) : replace [c] [c, c] s = double c s := by
  induction s with
  | nil => rfl
  | cons x rest ih =>
      show (if [c].isPrefixOf (x :: rest) then [c, c] ++ replace [c] [c, c] rest
        else x :: replace [c] [c, c] rest) = _
      rw [ih]
      by_cases hx : x = c
      · subst hx
        rw [if_pos (by simp [List.isPrefixOf]), double_cons_self]
        rfl
      · rw [if_neg (by simp [List.isPrefixOf, Ne.symm hx]), double_cons_of_ne hx]

/-- `s.replace("cc", "c")`. -/
theorem replace_pair (s : PyStr) : replace [c, c] [c] s = halve c s := by
  induction s using halve.induct c with
  | case1 => rfl
  | case2 x =>
      show (if [c, c].isPrefixOf [x] then [c] ++ [] else [x]) = [x]
      rw [if_neg (by simp [List.isPrefixOf])]
  | case3 x y rest hboth ih =>
      obtain ⟨rfl, rfl⟩ := hboth
      rw [halve_pair, ← ih]
      show (if [y, y].isPrefixOf (y :: y :: rest) then [y] ++ replace [y, y] [y] rest
        else y :: replace [y, y] [y] (y :: rest)) = _
      rw [if_pos (by simp [List.isPrefixOf])]
      rfl
  | case4 x y rest hnot ih =>
      rw [halve, if_neg hnot, ← ih]
      show (if [c, c].isPrefixOf (x :: y :: rest) then [c] ++ replace [c, c] [c] rest
        else x :: replace [c, c] [c] (y :: rest)) = _
      rw [if_neg]
      intro hstarts
      simp only [List.isPrefixOf, Bool.and_eq_true, beq_iff_eq, and_true] at hstarts
      exact hnot ⟨hstarts.1.symm, hstarts.2.symm⟩

/-! ## Doubling and halving -/

/-- Halving undoes doubling. -/
@[simp] theorem halve_double (s : PyStr) : halve c (double c s) = s := by
  induction s with
  | nil => rfl
  | cons x rest ih =>
      by_cases hx : x = c
      · subst hx
        rw [double_cons_self, halve_pair, ih]
      · rw [double_cons_of_ne hx, halve_cons_of_ne hx, ih]

theorem head?_double (s : PyStr) : (double d s).head? = s.head? := by
  cases s with
  | nil => rfl
  | cons x rest =>
      by_cases hx : x = d
      · subst hx
        rw [double_cons_self]
        rfl
      · rw [double_cons_of_ne hx]
        rfl

/-- Doublings of two characters are independent. -/
theorem double_comm (h : c ≠ d) (s : PyStr) : double c (double d s) = double d (double c s) := by
  induction s with
  | nil => rfl
  | cons x rest ih =>
      by_cases hc : x = c
      · subst hc
        rw [double_cons_of_ne h, double_cons_self, double_cons_self, double_cons_of_ne h,
          double_cons_of_ne h, ih]
      · by_cases hd : x = d
        · subst hd
          rw [double_cons_self, double_cons_of_ne hc, double_cons_of_ne hc, double_cons_of_ne hc,
            double_cons_self, ih]
        · rw [double_cons_of_ne hd, double_cons_of_ne hc, double_cons_of_ne hc,
            double_cons_of_ne hd, ih]

/-- Halving one character and doubling another are independent. -/
theorem halve_double_comm (h : c ≠ d) (s : PyStr) :
    halve c (double d s) = double d (halve c s) := by
  induction s using halve.induct c with
  | case1 => rfl
  | case2 x =>
      show halve c (double d [x]) = double d [x]
      by_cases hx : x = d
      · subst hx
        rw [double_cons_self, halve_cons_of_ne (Ne.symm h), halve_cons_of_ne (Ne.symm h)]
        rfl
      · rw [double_cons_of_ne hx]
        rfl
  | case3 x y rest hboth ih =>
      obtain ⟨rfl, rfl⟩ := hboth
      rw [double_cons_of_ne h, double_cons_of_ne h, halve_pair, halve_pair, double_cons_of_ne h, ih]
  | case4 x y rest hnot ih =>
      have hstay : halve c (x :: y :: rest) = x :: halve c (y :: rest) := by
        rw [halve, if_neg hnot]
      rw [hstay]
      by_cases hd : x = d
      · subst hd
        rw [double_cons_self, double_cons_self, halve_cons_of_ne (Ne.symm h),
          halve_cons_of_ne (Ne.symm h), ih]
      · rw [double_cons_of_ne hd, double_cons_of_ne hd, ← ih]
        by_cases hc : x = c
        · apply halve_cons_of_head
          rw [head?_double]
          intro hy
          exact hnot ⟨hc, Option.some.inj hy⟩
        · exact halve_cons_of_ne hc _

/-! ## What stays -/

/-- Without the `c`s, a text is the same after doubling. -/
theorem filter_double {p : Nat → Bool} (hp : p c = false) (s : PyStr) :
    (double c s).filter p = s.filter p := by
  induction s with
  | nil => rfl
  | cons x rest ih =>
      by_cases hx : x = c
      · subst hx
        rw [double_cons_self]
        simp only [List.filter_cons, hp, Bool.false_eq_true, if_false]
        exact ih
      · rw [double_cons_of_ne hx, List.filter_cons, List.filter_cons, ih]

/-- Without the `c`s, a text is the same after halving. -/
theorem filter_halve {p : Nat → Bool} (hp : p c = false) (s : PyStr) :
    (halve c s).filter p = s.filter p := by
  induction s using halve.induct c with
  | case1 => rfl
  | case2 x => rfl
  | case3 x y rest hboth ih =>
      obtain ⟨rfl, rfl⟩ := hboth
      rw [halve_pair]
      simp only [List.filter_cons, hp, Bool.false_eq_true, if_false]
      exact ih
  | case4 x y rest hnot ih => rw [halve, if_neg hnot, List.filter_cons, ih, ← List.filter_cons]

/-- A maximal run of `c`s in a text of doubled `c`s is of even length. -/
theorem even_run_double {s before after : PyStr} {n : Nat}
    (hs : double c s = before ++ (List.replicate n c ++ after))
    (hbefore : before.getLast? ≠ some c) (hafter : after.head? ≠ some c) : Even n := by
  -- the induction is on the text: a run begins in it or before it
  induction s generalizing before n with
  | nil =>
      have hnil : before ++ (List.replicate n c ++ after) = [] := hs.symm
      have hrun : List.replicate n c = [] :=
        (List.append_eq_nil_iff.mp (List.append_eq_nil_iff.mp hnil).2).1
      obtain rfl : n = 0 := List.replicate_eq_nil_iff c |>.mp hrun
      exact Even.zero
  | cons x rest ih =>
      by_cases hx : x = c
      · subst hx
        rw [double_cons_self] at hs
        rcases before with _ | ⟨a, _ | ⟨b, before⟩⟩
        · -- the run begins with the two: two less remain for the rest
          rcases n with _ | _ | n
          · exact Even.zero
          · rw [List.nil_append, List.replicate_one, List.singleton_append, List.cons.injEq] at hs
            exact absurd (by rw [← hs.2]; rfl) hafter
          · simp only [List.nil_append, List.replicate_succ, List.cons_append, List.cons.injEq,
              true_and] at hs
            have heven : Even n := @ih [] n hs (by simp)
            exact heven.add_one.add_one
        · rw [List.cons_append, List.cons.injEq] at hs
          exact absurd (by rw [← hs.1]; rfl) hbefore
        · rw [List.cons_append, List.cons_append, List.cons.injEq, List.cons.injEq] at hs
          apply ih hs.2.2
          intro hlast
          apply hbefore
          cases before with
          | nil => cases hlast
          | cons e others => simpa using hlast
      · rw [double_cons_of_ne hx] at hs
        rcases before with _ | ⟨a, before⟩
        · cases n with
          | zero => exact Even.zero
          | succ n =>
              rw [List.nil_append, List.replicate_succ, List.cons_append, List.cons.injEq] at hs
              exact absurd hs.1 hx
        · rw [List.cons_append, List.cons.injEq] at hs
          apply ih hs.2
          intro hlast
          apply hbefore
          cases before with
          | nil => cases hlast
          | cons e others => simpa using hlast

end Runs

end Text

end Base
