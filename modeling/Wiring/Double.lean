/-!
# The range of doubles

A double has 53 binary digits, and its exponent is limited: what lies at or beyond the middle between
the largest double and the next power of two is rounded to infinity.

* `Double.isTooLarge`: whether a decimal is rounded to infinity when it is rounded once.
* `Double.scaledIsTooLarge`: whether it is when its digits, its power of ten and their product are
  rounded each.
-/

namespace Wiring.Double

/-- The least number that is rounded to infinity: half a unit above the largest double. -/
def threshold : Nat :=
  Nat.pow 2 1024 - Nat.pow 2 970

/-- **The nearest number with at most 53 binary digits before its zeros.** Of two that are equally near
it is the one whose last digit is even. -/
def round (n : Nat) : Nat :=
  let unit := Nat.pow 2 (Nat.log2 n - 52)
  let quotient := n / unit
  let twice := 2 * (n % unit)
  if unit < twice || (unit = twice && quotient % 2 = 1) then (quotient + 1) * unit
  else quotient * unit

/-- Whether the decimal `digits * 10 ^ exponent` lies beyond the largest double. -/
def isTooLarge (digits : Nat) (exponent : Int) : Bool :=
  let size := (Nat.toDigits 10 digits).length + exponent
  if digits = 0 || size < 308 then false
  else if 310 < size then true
  else threshold * Nat.pow 10 (-exponent).toNat ≤ digits * Nat.pow 10 exponent.toNat

/-- The largest power of ten that is a double. -/
def maxPower : Nat := 308

/-- Whether `digits`, rounded and then scaled by the rounded `10 ^ exponent`, lies beyond the largest
double. Scaling down never leads there, because `digits` has 64 bits. -/
def scaledIsTooLarge (digits : Nat) (exponent : Int) : Bool :=
  if digits = 0 || exponent < 0 then false
  else if maxPower < exponent then true
  else threshold ≤ round digits * round (Nat.pow 10 exponent.toNat)

example : round 9007199254740993 = 9007199254740992 ∧ round 9007199254740995 = 9007199254740996 := by
  decide +kernel

example : isTooLarge 17976931348623158 292 = false ∧ scaledIsTooLarge 17976931348623158 292 = true := by
  decide +kernel

end Wiring.Double
