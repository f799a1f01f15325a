import Relational.Document.Basic
import Relational.Text.Digits

/-!
The numbers of documents. The digits are kept as long as they fit 64 bits; further ones before
the point only count. What has a point, an exponent or too many digits is a float: the digits
kept, as the nearest float, multiplied or divided by a power of ten.
-/

namespace Relational.Document

open Text (digitValue)

structure Numeral where
  negative : Bool
  whole : List Char
  fraction : Option (List Char)
  /-- Whether the exponent is negative, and its digits. -/
  exponent : Option (Bool × List Char)

/-- Appends digits to `n` while the number fits 64 bits. -/
def absorb (n : Nat) : List Char → Nat × List Char
  | [] => (n, [])
  | c :: cs =>
    let m := 10 * n + digitValue c
    if m < UInt64.size then absorb m cs else (n, c :: cs)

/-- `x * 10 ^ e`, if it is finite. A power below all floats is reached in steps. -/
def shift (x : Float) (e : Int) : Nat → Option Float
  | 0 => none
  | steps + 1 =>
    if e.natAbs ≤ 308 then
      let power := Float.ofScientific 1 false e.natAbs
      if 0 ≤ e then (some (x * power)).filter Float.isFinite else some (x / power)
    else if x == 0 then some x
    else if 0 ≤ e then none
    else shift (x / Float.ofScientific 1 false 308) (e + 308) steps

namespace Numeral

def signed (n : Numeral) (x : Float) : Float := if n.negative then -x else x

def significand (n : Numeral) : Nat × Int :=
  let (kept, dropped) := absorb 0 n.whole
  let fraction := n.fraction.getD []
  let (all, ignored) := absorb kept fraction
  (all, dropped.length - (fraction.length - ignored.length : Nat))

/-- The value as a float, if it is finite. Exponents beyond 31 bits are infinite. -/
def toFloat? (n : Numeral) : Option Float :=
  let (all, e) := n.significand
  let (below, ds) := n.exponent.getD (false, [])
  let size := (absorb 0 ds).1
  if UInt32.size / 2 ≤ size then
    if all = 0 ∨ below then some (n.signed 0) else none
  else (shift (.ofNat all) (if below then e - size else e + size) 4).map n.signed

/-- An integer where one is written and fits; zero with a sign is a float. -/
def toDocument? (n : Numeral) : Option Document :=
  let (value, dropped) := absorb 0 n.whole
  if n.fraction = none ∧ n.exponent = none ∧ dropped = [] then
    if ¬n.negative then some (.int value)
    else if value = 0 ∨ UInt64.size / 2 < value then some (.float (-(.ofNat value)))
    else some (.int (-value))
  else n.toFloat?.map .float

end Numeral

end Relational.Document
