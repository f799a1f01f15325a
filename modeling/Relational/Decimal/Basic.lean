/-!
Decimal numerals and the doubles next to them.
-/

namespace Relational

/-- The number `digits * 10 ^ exponent`. -/
structure Decimal where
  digits : Nat
  exponent : Int
deriving DecidableEq

namespace Decimal

def width (n : Nat) : Nat := (Nat.toDigits 10 n).length

/-- The least exponent of a power of ten above the number, unless it is zero. -/
def magnitude (d : Decimal) : Int := width d.digits + d.exponent

/-- The nearest double, if it is finite. Outside of the magnitudes of doubles the answer is known
without a power of ten. -/
def toFloat? (d : Decimal) : Option Float :=
  if d.digits = 0 ∨ d.magnitude < -330 then some 0
  else if 310 < d.magnitude then none
  else (some (.ofScientific d.digits (d.exponent < 0) d.exponent.natAbs)).filter Float.isFinite

end Decimal

end Relational
