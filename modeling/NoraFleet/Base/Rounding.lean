import Mathlib
import NoraFleet.Base.Double

/-!
# Rounding to a double

What `Double.ofRat` does to a number near a double: it gives that double back.

* `logarithm_spec` — the integer logarithm of a fraction, from those of its two
  parts;
* `roundHalfEven_of_near` — rounding to an integer;
* `ofRat_of_near` — a number that differs from a double by less than `2 ^ -54` of
  itself is rounded to it.
-/

namespace Base

/-! ## Integer logarithms -/

/-- Between two powers, a fraction of numbers that are. -/
theorem logarithm_spec {b : ℚ} (hb : 1 < b) {num den : ℚ} {m k : ℤ} (hnum : b ^ m ≤ num)
    (hnum' : num < b ^ (m + 1)) (hden : b ^ k ≤ den) (hden' : den < b ^ (k + 1)) :
    b ^ (if b ^ (m - k) ≤ num / den then m - k else m - k - 1) ≤ num / den ∧
      num / den < b ^ ((if b ^ (m - k) ≤ num / den then m - k else m - k - 1) + 1) := by
  have hb0 : (0 : ℚ) < b := lt_trans zero_lt_one hb
  have hden0 : (0 : ℚ) < den := lt_of_lt_of_le (zpow_pos hb0 k) hden
  have hupper : num / den < b ^ (m - k + 1) := by
    rw [div_lt_iff₀ hden0]
    calc num < b ^ (m + 1) := hnum'
      _ = b ^ (m - k + 1) * b ^ k := by
          rw [← zpow_add₀ hb0.ne']
          congr 1
          ring
      _ ≤ b ^ (m - k + 1) * den := mul_le_mul_of_nonneg_left hden (zpow_pos hb0 _).le
  have hlower : b ^ (m - k - 1) ≤ num / den := by
    rw [le_div_iff₀ hden0]
    calc b ^ (m - k - 1) * den ≤ b ^ (m - k - 1) * b ^ (k + 1) :=
          mul_le_mul_of_nonneg_left hden'.le (zpow_pos hb0 _).le
      _ = b ^ m := by
          rw [← zpow_add₀ hb0.ne']
          congr 1
          ring
      _ ≤ num := hnum
  by_cases h : b ^ (m - k) ≤ num / den
  · rw [if_pos h]
    exact ⟨h, hupper⟩
  · rw [if_neg h, Int.sub_add_cancel]
    exact ⟨hlower, lt_of_not_ge h⟩

theorem abs_eq_div (q : ℚ) : |q| = (q.num.natAbs : ℚ) / q.den := by
  have hden : (0 : ℚ) < q.den := Nat.cast_pos.mpr q.den_pos
  rw [eq_div_iff hden.ne', ← abs_of_pos hden, ← abs_mul, Rat.mul_den_eq_num,
    Nat.cast_natAbs, Int.cast_abs]

theorem log2_spec {n : ℕ} (hn : n ≠ 0) :
    (2 : ℚ) ^ (n.log2 : ℤ) ≤ n ∧ (n : ℚ) < 2 ^ ((n.log2 : ℤ) + 1) := by
  constructor
  · rw [zpow_natCast]
    exact_mod_cast Nat.log2_self_le hn
  · have hcast : ((n.log2 : ℤ) + 1) = ((n.log2 + 1 : ℕ) : ℤ) := by push_cast; rfl
    rw [hcast, zpow_natCast]
    exact_mod_cast Nat.lt_log2_self

theorem binaryExponent_spec {q : ℚ} (hq : q ≠ 0) :
    (2 : ℚ) ^ binaryExponent q ≤ |q| ∧ |q| < 2 ^ (binaryExponent q + 1) := by
  obtain ⟨hnum, hnum'⟩ := log2_spec (Int.natAbs_ne_zero.mpr (Rat.num_ne_zero.mpr hq))
  obtain ⟨hden, hden'⟩ := log2_spec q.den_nz
  unfold binaryExponent
  dsimp only
  rw [abs_eq_div q]
  exact logarithm_spec one_lt_two hnum hnum' hden hden'

/-! ## To an integer -/

/-- Rounding goes to an integer that is less than a half away. -/
theorem roundHalfEven_of_near {x : ℚ} {n : ℤ} (h : |x - n| < 1 / 2) : roundHalfEven x = n := by
  obtain ⟨hbelow, habove⟩ := abs_lt.mp h
  have hfloor : x.floor = ⌊x⌋ := rfl
  unfold roundHalfEven
  dsimp only
  rw [hfloor]
  rcases le_or_gt (n : ℚ) x with hle | hlt
  · have hn : ⌊x⌋ = n := Int.floor_eq_iff.mpr ⟨hle, by linarith⟩
    rw [hn, if_pos habove]
  · have hn : ⌊x⌋ = n - 1 := by
      rw [Int.floor_eq_iff]
      push_cast
      exact ⟨by linarith, by linarith⟩
    rw [hn]
    push_cast
    rw [if_neg (by linarith), if_pos (by linarith), Int.sub_add_cancel]

theorem abs_roundHalfEven_sub_le (x : ℚ) : |(roundHalfEven x : ℚ) - x| ≤ 1 / 2 := by
  have hfloor : x.floor = ⌊x⌋ := rfl
  have hlow : (⌊x⌋ : ℚ) ≤ x := Int.floor_le x
  have hhigh : x < ⌊x⌋ + 1 := Int.lt_floor_add_one x
  unfold roundHalfEven
  dsimp only
  rw [hfloor, abs_le]
  split
  · exact ⟨by linarith, by linarith⟩
  · split
    · push_cast
      exact ⟨by linarith, by linarith⟩
    · split
      · exact ⟨by linarith, by linarith⟩
      · push_cast
        exact ⟨by linarith, by linarith⟩

/-! ## To a double -/

namespace Double

/-- The numbers that are doubles. -/
def IsDouble (q : ℚ) : Prop := ofRat q = .fin q

instance (q : ℚ) : Decidable (IsDouble q) := inferInstanceAs (Decidable (ofRat q = .fin q))

theorem IsDouble.eq_mul {q : ℚ} (h : IsDouble q) (hq : q ≠ 0) :
    (∃ m : ℤ, q = m * 2 ^ ulpExponent q) ∧ |q| < 2 ^ (1024 : ℕ) := by
  unfold IsDouble ofRat at h
  rw [if_neg hq] at h
  dsimp only at h
  split at h
  · cases h
  · rename_i hsmall
    have heq := Double.fin.inj h
    refine ⟨⟨_, heq.symm⟩, ?_⟩
    rw [heq] at hsmall
    exact lt_of_not_ge hsmall

theorem le_sub_of_multiple {q : ℚ} {m u k : ℤ} (hq : q = m * 2 ^ u) (hlt : |q| < 2 ^ k)
    (hu : u ≤ k) : |q| ≤ 2 ^ k - 2 ^ u := by
  have hpos : (0 : ℚ) < 2 ^ u := zpow_pos two_pos u
  have hsplit : (2 : ℚ) ^ k = ((2 ^ (k - u).toNat : ℤ) : ℚ) * 2 ^ u := by
    push_cast
    rw [← zpow_natCast, Int.toNat_of_nonneg (sub_nonneg.mpr hu), ← zpow_add₀ two_ne_zero]
    congr 1
    ring
  have habs : |q| = ((|m| : ℤ) : ℚ) * 2 ^ u := by
    rw [hq, abs_mul, abs_of_pos hpos, Int.cast_abs]
  rw [habs, hsplit] at hlt ⊢
  have hm : |m| < 2 ^ (k - u).toNat := by exact_mod_cast lt_of_mul_lt_mul_right hlt hpos.le
  have hm' : |m| ≤ 2 ^ (k - u).toNat - 1 := Int.le_sub_one_of_lt hm
  have hm'' : ((|m| : ℤ) : ℚ) ≤ ((2 ^ (k - u).toNat : ℤ) : ℚ) - 1 := by exact_mod_cast hm'
  calc ((|m| : ℤ) : ℚ) * 2 ^ u ≤ (((2 ^ (k - u).toNat : ℤ) : ℚ) - 1) * 2 ^ u :=
        mul_le_mul_of_nonneg_right hm'' hpos.le
    _ = ((2 ^ (k - u).toNat : ℤ) : ℚ) * 2 ^ u - 2 ^ u := by ring

theorem binaryExponent_le_of_near {q d : ℚ} (hdouble : IsDouble q) (hq : q ≠ 0) (hd : d ≠ 0)
    (hnear : |d - q| < |d| / 2 ^ 54) : binaryExponent d ≤ binaryExponent q := by
  obtain ⟨⟨m, hm⟩, -⟩ := hdouble.eq_mul hq
  obtain ⟨-, hqhigh⟩ := binaryExponent_spec hq
  obtain ⟨hdlow, hdhigh⟩ := binaryExponent_spec hd
  have hdiff : |d| - |q| ≤ |d - q| := abs_sub_abs_le_abs_sub d q
  by_contra hlt
  have hlt' : binaryExponent q + 1 ≤ binaryExponent d := by omega
  have hpow : (2 : ℚ) ^ (binaryExponent q + 1) ≤ 2 ^ binaryExponent d :=
    zpow_le_zpow_right₀ one_le_two hlt'
  -- the double is below the power of two by its last bit
  have hulp : ulpExponent q ≤ binaryExponent q + 1 := by
    by_contra hbig
    have hm0 : m ≠ 0 := by
      rintro rfl
      exact hq (by rw [hm]; simp)
    have hone : (1 : ℚ) ≤ |(m : ℚ)| := by exact_mod_cast Int.one_le_abs hm0
    have hle : (2 : ℚ) ^ (binaryExponent q + 1) ≤ 2 ^ ulpExponent q :=
      zpow_le_zpow_right₀ one_le_two (by omega)
    have habs : |q| = |(m : ℚ)| * 2 ^ ulpExponent q := by
      conv_lhs => rw [hm]
      rw [abs_mul, abs_of_pos (zpow_pos (two_pos : (0 : ℚ) < 2) (ulpExponent q))]
    have hpos : (0 : ℚ) < 2 ^ ulpExponent q := zpow_pos two_pos _
    nlinarith
  have hgap : |q| ≤ 2 ^ (binaryExponent q + 1) - 2 ^ ulpExponent q :=
    le_sub_of_multiple hm hqhigh hulp
  have hulp' : (2 : ℚ) ^ (binaryExponent q - 52) ≤ 2 ^ ulpExponent q :=
    zpow_le_zpow_right₀ one_le_two (le_max_left _ _)
  have hdq : |d| < 2 * |q| := by
    have : |d| / 2 ^ 54 ≤ |d| / 2 := by
      apply div_le_div_of_nonneg_left (abs_nonneg d) two_pos
      norm_num
    linarith
  have hfine : (2 : ℚ) ^ (binaryExponent q - 52) = 2 ^ (binaryExponent q + 1) * 2 / 2 ^ 54 := by
    rw [show binaryExponent q - 52 = (binaryExponent q + 1) + 1 - 54 by ring,
      zpow_sub₀ two_ne_zero, zpow_add₀ two_ne_zero (binaryExponent q + 1) 1, zpow_one]
    norm_num
  have hfinal : |d| / 2 ^ 54 < 2 ^ (binaryExponent q + 1) * 2 / 2 ^ 54 := by
    apply div_lt_div_of_pos_right _ (by norm_num)
    linarith
  linarith

/-- A number that differs from a double by less than `2 ^ -54` of itself is
rounded to it. -/
theorem ofRat_of_near {q d : ℚ} (hdouble : IsDouble q) (hq : q ≠ 0)
    (hnear : |d - q| < |d| / 2 ^ 54) : ofRat d = .fin q := by
  have hd : d ≠ 0 := by
    rintro rfl
    rw [abs_zero, zero_div] at hnear
    exact absurd hnear (not_lt_of_ge (abs_nonneg _))
  obtain ⟨⟨m, hm⟩, hsmall⟩ := hdouble.eq_mul hq
  obtain ⟨-, hdhigh⟩ := binaryExponent_spec hd
  have hulp : ulpExponent d ≤ ulpExponent q :=
    max_le_max (Int.sub_le_sub_right (binaryExponent_le_of_near hdouble hq hd hnear) 52) le_rfl
  have hpos : (0 : ℚ) < 2 ^ ulpExponent d := zpow_pos two_pos _
  -- the double is a multiple of the last bit of `d`
  have hmultiple : q = ((m * 2 ^ (ulpExponent q - ulpExponent d).toNat : ℤ) : ℚ) *
      2 ^ ulpExponent d := by
    push_cast
    rw [← zpow_natCast, Int.toNat_of_nonneg (sub_nonneg.mpr hulp), mul_assoc,
      ← zpow_add₀ two_ne_zero, Int.sub_add_cancel]
    exact hm
  generalize m * 2 ^ (ulpExponent q - ulpExponent d).toNat = n at hmultiple
  have hhalf : |d - q| < 2 ^ ulpExponent d / 2 := by
    have hle : (2 : ℚ) ^ (binaryExponent d - 52) ≤ 2 ^ ulpExponent d :=
      zpow_le_zpow_right₀ one_le_two (le_max_left _ _)
    have hfine : (2 : ℚ) ^ (binaryExponent d - 52) / 2 = 2 ^ (binaryExponent d + 1) / 2 ^ 54 := by
      rw [show binaryExponent d - 52 = (binaryExponent d + 1) - 53 by ring,
        zpow_sub₀ two_ne_zero]
      norm_num
      ring
    have hstep : |d| / 2 ^ 54 < 2 ^ (binaryExponent d + 1) / 2 ^ 54 :=
      div_lt_div_of_pos_right hdhigh (by norm_num)
    linarith
  have hround : roundHalfEven (d / 2 ^ ulpExponent d) = n := by
    apply roundHalfEven_of_near
    have heq : d / 2 ^ ulpExponent d - n = (d - q) / 2 ^ ulpExponent d := by
      rw [sub_div, hmultiple, mul_div_assoc, div_self hpos.ne', mul_one]
    rw [heq, abs_div, abs_of_pos hpos, div_lt_iff₀ hpos]
    linarith
  unfold ofRat
  rw [if_neg hd]
  dsimp only
  rw [hround, ← hmultiple, if_neg (not_le_of_gt hsmall)]

end Double

end Base
