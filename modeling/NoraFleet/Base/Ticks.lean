import Mathlib

/-!
# Streams of ticks

A schedule as a strictly increasing infinite stream of integer times, and an
iterator over it. Time runs from left to right, so an interval of time is taken
open on the left and closed on the right: `Reached s a b` is that some tick
lies after `a` and not after `b`.

* `FirstAfter.reached_iff` — an interval is reached exactly when the first tick
  after its left end is;
* `FirstAfter.keep` — a first tick stays the first one until time passes it;
* `nextAfter_spec` — pulling ticks off the iterator until one is after `now`
  ends, at the first one it holds that is.
-/

namespace Base

/-- A strictly increasing infinite stream of times. -/
structure Ticks where
  tick : ℕ → ℤ
  strictMono : StrictMono tick

namespace Ticks

variable {s : Ticks} {a b : ℤ} {m n : ℕ}

/-- Some tick lies in the interval from `a`, excluded, to `b`, included. -/
def Reached (s : Ticks) (a b : ℤ) : Prop := ∃ n, a < s.tick n ∧ s.tick n ≤ b

/-- Tick `n` is the first one after `a`. -/
def FirstAfter (s : Ticks) (a : ℤ) (n : ℕ) : Prop := a < s.tick n ∧ ∀ m < n, s.tick m ≤ a

/-- The first tick after a time is unique. -/
theorem FirstAfter.unique (hm : s.FirstAfter a m) (hn : s.FirstAfter a n) : m = n := by
  rcases Nat.lt_trichotomy m n with hlt | heq | hgt
  · have hle := hn.2 m hlt
    have hlt' := hm.1
    omega
  · exact heq
  · have hle := hm.2 n hgt
    have hlt' := hn.1
    omega

/-- An interval is reached exactly when the first tick after its left end lies
in it. -/
theorem FirstAfter.reached_iff (h : s.FirstAfter a n) : s.Reached a b ↔ s.tick n ≤ b := by
  constructor
  · rintro ⟨m, hlt, hle⟩
    by_cases hmn : m < n
    · have hle' := h.2 m hmn
      omega
    · have hmono : s.tick n ≤ s.tick m := s.strictMono.monotone (Nat.le_of_not_lt hmn)
      omega
  · intro hle
    exact ⟨n, h.1, hle⟩

/-- The first tick after `a` is the first one after any later time before it. -/
theorem FirstAfter.keep (h : s.FirstAfter a n) (hab : a ≤ b) (hlt : b < s.tick n) :
    s.FirstAfter b n := by
  refine ⟨hlt, fun m hm => ?_⟩
  have hle := h.2 m hm
  omega

/-! ## The iterator -/

/-- An iterator over a stream: the stream and the number of the next tick. -/
structure Iter where
  ticks : Ticks
  position : ℕ

namespace Iter

/-- The next tick. -/
def getNext (iter : Iter) : ℤ × Iter :=
  (iter.ticks.tick iter.position, ⟨iter.ticks, iter.position + 1⟩)

/-- From the tick just pulled on, pull until one is after `now`. -/
def skip (now : ℤ) : ℕ → ℤ × Iter → ℤ × Iter
  | 0, pulled => pulled
  | fuel + 1, pulled => if pulled.1 ≤ now then skip now fuel pulled.2.getNext else pulled

/-- Pull one tick, and more as long as they are not after `now`. Ticks are
integers, so there are at most as many of them as units of time up to `now`. -/
def nextAfter (now : ℤ) (iter : Iter) : ℤ × Iter :=
  let pulled := iter.getNext
  skip now (now + 1 - pulled.1).toNat pulled

/-- Enough fuel skips to the first tick after `now`. -/
theorem skip_spec (s : Ticks) (now : ℤ) (fuel n : ℕ) (hfuel : (now + 1 - s.tick n).toNat ≤ fuel) :
    ∃ m, n ≤ m ∧ skip now fuel (s.tick n, ⟨s, n + 1⟩) = (s.tick m, ⟨s, m + 1⟩) ∧
      now < s.tick m ∧ ∀ j, n ≤ j → j < m → s.tick j ≤ now := by
  induction fuel generalizing n with
  | zero =>
      refine ⟨n, le_refl n, rfl, by omega, fun j hj hlt => ?_⟩
      omega
  | succ fuel ih =>
      by_cases hle : s.tick n ≤ now
      · have hstep : s.tick n < s.tick (n + 1) := s.strictMono (Nat.lt_succ_self n)
        obtain ⟨m, hnm, heq, hlt, hbefore⟩ := ih (n + 1) (by omega)
        refine ⟨m, by omega, ?_, hlt, fun j hj hjm => ?_⟩
        · unfold skip
          rw [if_pos hle]
          exact heq
        · by_cases hjn : j = n
          · rw [hjn]
            exact hle
          · exact hbefore j (by omega) hjm
      · refine ⟨n, le_refl n, ?_, by omega, fun j hj hlt => ?_⟩
        · unfold skip
          rw [if_neg hle]
        · omega

/-- `nextAfter` ends at the first tick the iterator still holds that is after
`now`, and leaves the iterator right behind it. -/
theorem nextAfter_spec (iter : Iter) (now : ℤ) :
    ∃ m, iter.position ≤ m ∧
      iter.nextAfter now = (iter.ticks.tick m, ⟨iter.ticks, m + 1⟩) ∧
      now < iter.ticks.tick m ∧
      ∀ j, iter.position ≤ j → j < m → iter.ticks.tick j ≤ now :=
  skip_spec iter.ticks now _ iter.position (le_refl _)

end Iter

end Ticks

end Base
