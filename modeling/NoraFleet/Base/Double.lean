import Mathlib.Data.Rat.Floor
import Mathlib.Order.WithBot
import Mathlib.Tactic.Common

/-!
# Double-precision numbers

The `float` of the Python data model, as exact values: a finite double is the
rational it denotes, and every arithmetic result is the exact rational result
rounded to the nearest double, ties to the even significand (`ofRat`). Signed
zeros are identified. Comparisons of numbers are exact, also between an
integer and a double.
-/

namespace Base

/-- A double: not-a-number, an infinity, or the rational it denotes. -/
inductive Double where
  | nan
  | inf (negative : Bool)
  | fin (q : ℚ)
  deriving DecidableEq, Repr

/-- Nearest integer, ties to even: `round(x)` of a finite float. -/
def roundHalfEven (q : ℚ) : ℤ :=
  let low := q.floor
  if q - low < 1 / 2 then low
  else if 1 / 2 < q - low then low + 1
  else if low % 2 = 0 then low
  else low + 1

/-- `⌊log₂ |q|⌋` for `q ≠ 0`. -/
def binaryExponent (q : ℚ) : ℤ :=
  let guess : ℤ := (q.num.natAbs.log2 : ℤ) - (q.den.log2 : ℤ)
  if (2 : ℚ) ^ guess ≤ |q| then guess else guess - 1

namespace Double

/-- The exponent of the last bit a double near `q` has: 53 significant bits,
down to the subnormal quantum. -/
def ulpExponent (q : ℚ) : ℤ := max (binaryExponent q - 52) (-1074)

/-- Round to the nearest double, ties to even, overflowing to infinity. -/
def ofRat (q : ℚ) : Double :=
  if q = 0 then .fin 0
  else
    let ulp : ℚ := 2 ^ ulpExponent q
    let rounded : ℚ := roundHalfEven (q / ulp) * ulp
    if 2 ^ (1024 : ℕ) ≤ |rounded| then .inf (decide (q < 0)) else .fin rounded

/-- `float(n)` of an integer; `none` is the `OverflowError`. -/
def ofInt (n : ℤ) : Option Double :=
  match ofRat n with
  | .fin q => some (.fin q)
  | _ => none

/-- The place of a double on the extended line; not-a-number has none. -/
def place : Double → Option (WithBot (WithTop ℚ))
  | .nan => none
  | .inf true => some ⊥
  | .inf false => some (⊤ : WithTop ℚ)
  | .fin q => some (q : WithTop ℚ)

/-- `x <= y`: not-a-number is not comparable. -/
def le (x y : Double) : Bool :=
  match x.place, y.place with
  | some p, some q => decide (p ≤ q)
  | _, _ => false

/-- `x < y`. -/
def lt (x y : Double) : Bool :=
  match x.place, y.place with
  | some p, some q => decide (p < q)
  | _, _ => false

/-- `x - y` of finite doubles. -/
def sub : Double → Double → Double
  | .fin p, .fin q => ofRat (p - q)
  | _, _ => .nan

/-- `x * y` of finite doubles. -/
def mul : Double → Double → Double
  | .fin p, .fin q => ofRat (p * q)
  | _, _ => .nan

/-- `round(x)`; `none` is the error an infinity or not-a-number raises. -/
def toInt : Double → Option ℤ
  | .fin q => some (roundHalfEven q)
  | _ => none

end Double

end Base
