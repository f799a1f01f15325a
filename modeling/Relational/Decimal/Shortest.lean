import Relational.Decimal.Basic

/-!
The fewest digits that read back as a given double, and of those the nearest to it. The digits
of each length are looked for among the two neighbours of the double on that decimal grid.
-/

namespace Relational.Decimal

/-- The reals that round to one double: those between `low / den` and `high / den`, with the
double itself at `mid / den`. -/
structure Cell where
  low : Nat
  mid : Nat
  high : Nat
  den : Nat
  closed : Bool

namespace Cell

/-- The cell of a positive double `m * 2 ^ q`. Below a power of two the doubles lie closer. -/
def ofFloat (x : Float) : Cell :=
  let bits := x.toBits.toNat
  let hidden := Nat.pow 2 52
  let fraction := bits % hidden
  let biased := bits / hidden % Nat.pow 2 11
  let m := if biased = 0 then fraction else hidden + fraction
  let q : Int := (max biased 1 : Nat) - 1075
  let below := if fraction = 0 ∧ 1 < biased then 1 else 2
  let unit := Nat.pow 2 (q - 2).toNat
  ⟨(4 * m - below) * unit, 4 * m * unit, (4 * m + 2) * unit, Nat.pow 2 (2 - q).toNat, m % 2 = 0⟩

/-- `10 ^ (magnitude - 1) ≤ mid / den < 10 ^ magnitude`. -/
def magnitude (c : Cell) : Int :=
  if c.den ≤ c.mid then width (c.mid / c.den) else 1 - width ((c.den - 1) / c.mid)

def scale (c : Cell) (k : Int) : Cell :=
  let up := Nat.pow 10 (-k).toNat
  ⟨c.low * up, c.mid * up, c.high * up, c.den * Nat.pow 10 k.toNat, c.closed⟩

def contains (c : Cell) (d : Nat) : Bool :=
  if c.closed then c.low ≤ d * c.den && d * c.den ≤ c.high
  else c.low < d * c.den && d * c.den < c.high

/-- The integer in the cell that is nearest to its middle, of two the upper one. -/
def pick? (c : Cell) : Option Nat :=
  let d := c.mid / c.den
  match c.contains d, c.contains (d + 1) with
  | true, true => some (if 2 * c.mid < (2 * d + 1) * c.den then d else d + 1)
  | true, false => some d
  | false, true => some (d + 1)
  | false, false => none

end Cell

/-- The shortest numeral of a positive double; seventeen digits are always enough. -/
def shortest (x : Float) : Decimal :=
  let c := Cell.ofFloat x
  let grid (n : Nat) : Option Decimal :=
    let k := c.magnitude - (n + 1)
    (c.scale k).pick?.map fun d => ⟨d, k⟩
  ((List.range 17).findSome? grid).getD ⟨0, 0⟩

end Relational.Decimal
