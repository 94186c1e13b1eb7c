/-
Which numbers a double can hold.

A decimal number is read as a significand and a power of ten, each rounded to a double, and their
product is rounded once more. The number is out of range when that product is.

* `roundToDouble` — the nearest natural number with a significand of 53 bits, ties to even;
* `isOutOfRange` — whether a significand times a power of ten exceeds all doubles.
-/

namespace LazyEngine.Json

/-- The nearest natural number that a double can hold, ties to even. The exponent is not
limited. -/
def roundToDouble (n : Nat) : Nat :=
  let spare := n.log2 - 52
  let unit := Nat.pow 2 spare
  let quotient := n / unit
  let rest := n % unit
  let roundsUp := unit < 2 * rest || (2 * rest == unit && quotient % 2 == 1)
  (quotient + if roundsUp then 1 else 0) * unit

/-- Everything from here on is rounded to infinity: half a unit above the largest double. -/
def doubleBound : Nat := Nat.pow 2 1024 - Nat.pow 2 970

/-- Whether `significand * 10 ^ exponent` exceeds all doubles. -/
def isOutOfRange (significand exponent : Nat) : Bool :=
  if significand = 0 then false
  else if 308 < exponent then true
  else decide (doubleBound ≤ roundToDouble significand * roundToDouble (Nat.pow 10 exponent))

theorem roundToDouble_of_log2_le {n : Nat} (h : n.log2 ≤ 52) : roundToDouble n = n := by
  have hl : n.log2 - 52 = 0 := by omega
  simp [roundToDouble, hl, Nat.mod_one]

end LazyEngine.Json
