import Mathlib
import NoraFleet.Base.Rounding
import NoraFleet.Base.Text

/-!
# Shortest decimals

The digits `repr` gives a double: as few as possible so that reading them gives
the double back, and of these the nearest ones.

* `ofDigits_digitsOf` — the digits of a number denote it;
* `decimalExponent_spec` — the position of the first digit;
* `ofRat_shortestDecimal` — the shortest decimal is read as the double;
  seventeen digits are enough.
-/

namespace Base

/-! ## Digits -/

/-- The digits of a number, with `fuel` for as many. -/
def digitsWith : Nat → Nat → List Nat
  | 0, _ => []
  | fuel + 1, n => if n < 10 then [n] else digitsWith fuel (n / 10) ++ [n % 10]

/-- The decimal digits of a number, the most significant first. -/
def digitsOf (n : Nat) : List Nat := digitsWith (n + 1) n

theorem ofDigits_append (first rest : List Nat) :
    ofDigits (first ++ rest) = ofDigits first * 10 ^ rest.length + ofDigits rest := by
  have hfold : ∀ (digits : List Nat) (n : Nat),
      digits.foldl (fun n d => 10 * n + d) n = n * 10 ^ digits.length + ofDigits digits := by
    intro digits
    induction digits with
    | nil =>
        intro n
        simp [ofDigits]
    | cons d digits ih =>
        intro n
        unfold ofDigits
        rw [List.foldl_cons, List.foldl_cons, ih, ih (10 * 0 + d), List.length_cons, pow_succ]
        ring
  unfold ofDigits
  rw [List.foldl_append, hfold]
  rfl

theorem ofDigits_singleton (d : Nat) : ofDigits [d] = d := by
  simp [ofDigits]

theorem ofDigits_zeros (k : Nat) : ofDigits (List.replicate k 0) = 0 := by
  induction k with
  | zero => rfl
  | succ k ih =>
      rw [List.replicate_succ, ← List.singleton_append, ofDigits_append, ih, ofDigits_singleton]
      exact Nat.zero_mul _

/-- With fuel for them, the digits of a number denote it, are digits, and do not
begin with a zero unless it is zero. -/
theorem digitsWith_spec {fuel n : Nat} (h : n < fuel) :
    ofDigits (digitsWith fuel n) = n ∧ (∀ d ∈ digitsWith fuel n, d < 10) ∧
      (n ≠ 0 → ∃ d rest, digitsWith fuel n = (d + 1) :: rest) := by
  induction fuel generalizing n with
  | zero => exact absurd h (Nat.not_lt_zero n)
  | succ fuel ih =>
      unfold digitsWith
      by_cases hsmall : n < 10
      · rw [if_pos hsmall]
        refine ⟨ofDigits_singleton n, ?_, ?_⟩
        · intro d hd
          rw [List.mem_singleton.mp hd]
          exact hsmall
        · intro hn
          exact ⟨n - 1, [], by rw [Nat.sub_add_cancel (Nat.pos_of_ne_zero hn)]⟩
      · rw [if_neg hsmall]
        obtain ⟨hvalue, hdigits, hfirst⟩ := ih (n := n / 10) (by omega)
        refine ⟨?_, ?_, ?_⟩
        · rw [ofDigits_append, hvalue, ofDigits_singleton]
          simp only [List.length_singleton, pow_one]
          omega
        · intro d hd
          rcases List.mem_append.mp hd with hd | hd
          · exact hdigits d hd
          · rw [List.mem_singleton.mp hd]
            exact Nat.mod_lt n (by omega)
        · intro _
          obtain ⟨d, rest, heq⟩ := hfirst (by omega)
          exact ⟨d, rest ++ [n % 10], by rw [heq, List.cons_append]⟩

theorem ofDigits_digitsOf (n : Nat) : ofDigits (digitsOf n) = n :=
  (digitsWith_spec (Nat.lt_succ_self n)).1

theorem digitsOf_lt {n d : Nat} (h : d ∈ digitsOf n) : d < 10 :=
  (digitsWith_spec (Nat.lt_succ_self n)).2.1 d h

theorem digitsOf_pos {n : Nat} (hn : n ≠ 0) : ∃ d rest, digitsOf n = (d + 1) :: rest :=
  (digitsWith_spec (Nat.lt_succ_self n)).2.2 hn

theorem ofDigits_lt {digits : List Nat} (h : ∀ d ∈ digits, d < 10) :
    ofDigits digits < 10 ^ digits.length := by
  induction digits with
  | nil => decide
  | cons d rest ih =>
      have hd := h d List.mem_cons_self
      have hrest := ih fun e he => h e (List.mem_cons_of_mem _ he)
      rw [← List.singleton_append, ofDigits_append, ofDigits_singleton, List.length_append,
        List.length_singleton, pow_add, pow_one]
      nlinarith [Nat.one_le_pow rest.length 10 (by omega)]

/-- A positive number is between the powers of ten its digits tell. -/
theorem digitsOf_spec {n : Nat} (hn : n ≠ 0) :
    (10 : ℚ) ^ ((digitsOf n).length - 1 : ℤ) ≤ n ∧
      (n : ℚ) < 10 ^ ((digitsOf n).length - 1 + 1 : ℤ) := by
  obtain ⟨d, rest, heq⟩ := digitsOf_pos hn
  have hvalue := ofDigits_digitsOf n
  have hlt := ofDigits_lt fun e he => digitsOf_lt (n := n) he
  rw [hvalue] at hlt
  constructor
  · have hlength : ((digitsOf n).length : ℤ) - 1 = (rest.length : ℤ) := by
      rw [heq, List.length_cons]
      push_cast
      ring
    rw [hlength, zpow_natCast]
    rw [heq, ← List.singleton_append, ofDigits_append, ofDigits_singleton] at hvalue
    have hle : 10 ^ rest.length ≤ n := by nlinarith [Nat.one_le_pow rest.length 10 (by omega)]
    exact_mod_cast hle
  · rw [Int.sub_add_cancel, zpow_natCast]
    exact_mod_cast hlt

/-! ## Decimals near a number -/

/-- `⌊log₁₀ |q|⌋` for `q ≠ 0`. -/
def decimalExponent (q : ℚ) : ℤ :=
  let guess : ℤ := (digitsOf q.num.natAbs).length - (digitsOf q.den).length
  if (10 : ℚ) ^ guess ≤ |q| then guess else guess - 1

theorem decimalExponent_spec {q : ℚ} (hq : q ≠ 0) :
    (10 : ℚ) ^ decimalExponent q ≤ |q| ∧ |q| < 10 ^ (decimalExponent q + 1) := by
  obtain ⟨hnum, hnum'⟩ := digitsOf_spec (Int.natAbs_ne_zero.mpr (Rat.num_ne_zero.mpr hq))
  obtain ⟨hden, hden'⟩ := digitsOf_spec q.den_nz
  have hspec := logarithm_spec (by norm_num : (1 : ℚ) < 10) hnum hnum' hden hden'
  rw [sub_sub_sub_cancel_right, ← abs_eq_div q] at hspec
  exact hspec

/-- A decimal: a sign, and a number of units of a power of ten. -/
structure Decimal where
  negative : Bool
  units : Nat
  exponent : ℤ
  deriving DecidableEq

/-- The number a decimal denotes. -/
def Decimal.value (d : Decimal) : ℚ :=
  if d.negative then -(d.units * 10 ^ d.exponent) else d.units * 10 ^ d.exponent

/-- The decimals next to a number whose last of `n` digits is where it has its
`n`-th, the nearer one first. -/
def decimalsNear (q : ℚ) (n : Nat) : List Decimal :=
  let exponent := decimalExponent q + 1 - n
  let scaled := |q| / 10 ^ exponent
  let nearest := (roundHalfEven scaled).toNat
  let other := if scaled < nearest then nearest - 1 else nearest + 1
  [⟨decide (q < 0), nearest, exponent⟩, ⟨decide (q < 0), other, exponent⟩]

/-- The decimals of up to seventeen digits that are read as a number. -/
def decimalsReadAs (q : ℚ) : List Decimal :=
  ((List.range' 1 17).flatMap (decimalsNear q)).filter fun d => Double.ofRat d.value = .fin q

/-- The shortest decimal that is read as a double. -/
def shortestDecimal (q : ℚ) : Decimal := (decimalsReadAs q).headD ⟨decide (q < 0), 0, 0⟩

theorem seventeen_digits {q : ℚ} (hdouble : Double.IsDouble q) (hq : q ≠ 0) :
    ∃ d ∈ decimalsReadAs q, d ∈ decimalsNear q 17 := by
  obtain ⟨hlow, -⟩ := decimalExponent_spec hq
  have hpos : (0 : ℚ) < 10 ^ (decimalExponent q + 1 - (17 : ℕ)) := zpow_pos (by norm_num) _
  generalize hk : decimalExponent q + 1 - ((17 : ℕ) : ℤ) = k at hpos
  have hsplit : (10 : ℚ) ^ decimalExponent q = 10 ^ (16 : ℕ) * 10 ^ k := by
    rw [← zpow_natCast, ← zpow_add₀ (by norm_num)]
    congr 1
    push_cast at hk ⊢
    omega
  generalize hx : |q| / 10 ^ k = x
  have hround := abs_roundHalfEven_sub_le x
  have hxlow : (10 : ℚ) ^ (16 : ℕ) ≤ x := by
    rw [← hx, le_div_iff₀ hpos, ← hsplit]
    exact hlow
  have hnat : ((roundHalfEven x).toNat : ℚ) = roundHalfEven x := by
    have hnonneg : 0 ≤ roundHalfEven x := by
      have hreal : (0 : ℚ) ≤ roundHalfEven x := by
        have := (abs_le.mp hround).1
        norm_num at hxlow
        linarith
      exact_mod_cast hreal
    exact_mod_cast Int.toNat_of_nonneg hnonneg
  have hmem : (⟨decide (q < 0), (roundHalfEven x).toNat, k⟩ : Decimal) ∈ decimalsNear q 17 := by
    unfold decimalsNear
    dsimp only
    rw [hk, hx]
    exact List.mem_cons_self
  refine ⟨_, ?_, hmem⟩
  unfold decimalsReadAs
  rw [List.mem_filter]
  refine ⟨List.mem_flatMap.mpr ⟨17, by decide, hmem⟩, ?_⟩
  rw [decide_eq_true_eq]
  apply Double.ofRat_of_near hdouble hq
  -- both numbers have the sign of `q`
  have hmagnitude : |q| = x * 10 ^ k := by
    rw [← hx, div_mul_cancel₀ _ hpos.ne']
  have hunits : (10 : ℚ) ^ (16 : ℕ) - 1 / 2 ≤ roundHalfEven x := by
    have := (abs_le.mp hround).1
    linarith
  have hdistance : |(roundHalfEven x : ℚ) * 10 ^ k - x * 10 ^ k| <
      (roundHalfEven x : ℚ) * 10 ^ k / 2 ^ 54 := by
    rw [← sub_mul, abs_mul, abs_of_pos hpos, mul_div_right_comm]
    apply mul_lt_mul_of_pos_right _ hpos
    rw [lt_div_iff₀ (by norm_num)]
    norm_num at hunits ⊢
    linarith
  have hpositive : (0 : ℚ) < (roundHalfEven x : ℚ) * 10 ^ k := by
    apply mul_pos _ hpos
    norm_num at hunits
    linarith
  unfold Decimal.value
  dsimp only
  rw [hnat]
  by_cases hneg : q < 0
  · rw [if_pos (decide_eq_true hneg), abs_neg, abs_of_pos hpositive]
    have hq' : q = -(x * 10 ^ k) := by rw [← hmagnitude, abs_of_neg hneg, neg_neg]
    rw [show -((roundHalfEven x : ℚ) * 10 ^ k) - q =
      -((roundHalfEven x : ℚ) * 10 ^ k - x * 10 ^ k) by rw [hq']; ring, abs_neg]
    exact hdistance
  · have hfalse : ¬ decide (q < 0) = true := by simpa using hneg
    rw [if_neg hfalse, abs_of_pos hpositive]
    have hq' : q = x * 10 ^ k := by rw [← hmagnitude, abs_of_nonneg (le_of_not_gt hneg)]
    conv_lhs => rw [hq']
    exact hdistance

/-- The shortest decimal of a double is read as that double, and is not zero. -/
theorem ofRat_shortestDecimal {q : ℚ} (hdouble : Double.IsDouble q) (hq : q ≠ 0) :
    Double.ofRat (shortestDecimal q).value = .fin q ∧ (shortestDecimal q).units ≠ 0 := by
  obtain ⟨d, hd, -⟩ := seventeen_digits hdouble hq
  have hread : Double.ofRat (shortestDecimal q).value = .fin q := by
    unfold shortestDecimal
    cases hlist : decimalsReadAs q with
    | nil =>
        rw [hlist] at hd
        exact absurd hd List.not_mem_nil
    | cons first rest =>
        have hmem : first ∈ decimalsReadAs q := hlist ▸ List.mem_cons_self
        exact of_decide_eq_true (List.mem_filter.mp hmem).2
  refine ⟨hread, fun hzero => ?_⟩
  have hvalue : (shortestDecimal q).value = 0 := by
    unfold Decimal.value
    rw [hzero]
    simp
  rw [hvalue] at hread
  exact hq (Double.fin.inj hread).symm

end Base
