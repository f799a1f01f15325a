import Relational.Term

/-!
Arithmetic on scalars. Integer division rounds toward negative infinity and the remainder has
the sign of the divisor; what overflows, divides by zero or has the wrong kind has no result.
-/

namespace Relational

namespace Word

def ofInt? (n : Int) : Option Int64 :=
  if Int64.minValue.toInt ≤ n ∧ n ≤ Int64.maxValue.toInt then some (.ofInt n) else none

/-- The divisor allows a division: it is not zero and the quotient fits. -/
def Divides (x y : Int64) : Prop := y ≠ 0 ∧ ¬(x = Int64.minValue ∧ y = -1)

instance (x y : Int64) : Decidable (Divides x y) := inferInstanceAs (Decidable (_ ∧ _))

def add (x y : Int64) : Option Int64 := ofInt? (x.toInt + y.toInt)

def sub (x y : Int64) : Option Int64 := ofInt? (x.toInt - y.toInt)

def mul (x y : Int64) : Option Int64 := ofInt? (x.toInt * y.toInt)

def floorDiv (x y : Int64) : Option Int64 :=
  if Divides x y then
    if x % y ≠ 0 ∧ (decide (x < 0) ≠ decide (y < 0)) then some (x / y - 1) else some (x / y)
  else none

/-- The remainder of rounding toward zero, moved to the sign of the divisor. -/
def floorMod (x y : Int64) : Option Int64 :=
  if Divides x y then
    if x % y ≠ 0 ∧ (decide (x % y < 0) ≠ decide (y < 0)) then some (x % y + y) else some (x % y)
  else none

end Word

namespace Scalar

/-- Arithmetic of numbers that are not both integers; the result has to be finite. -/
def floats (op : Op) (x y : Float) : Option Float :=
  Option.filter Float.isFinite <|
    match op with
    | .plus => some (x + y)
    | .minus => some (x - y)
    | .times => some (x * y)
    | .div => if y == 0 then none else some (x / y).floor
    | .mod => if y == 0 then none else some (x - y * (x / y).floor)
    | .and | .or => none

def apply : Scalar → Op → Scalar → Option Scalar
  | text s, .plus, text t => some (text (s ++ t))
  | int m, .plus, int n => (Word.add m n).map int
  | int m, .minus, int n => (Word.sub m n).map int
  | int m, .times, int n => (Word.mul m n).map int
  | int m, .div, int n => (Word.floorDiv m n).map int
  | int m, .mod, int n => (Word.floorMod m n).map int
  | bool a, .and, bool b => some (bool (a && b))
  | bool a, .or, bool b => some (bool (a || b))
  | int m, .and, int n => some (int (m &&& n))
  | int m, .or, int n => some (int (m ||| n))
  | a, op, b =>
    match a.toFloat?, b.toFloat? with
    | some x, some y => (floats op x y).map float
    | _, _ => none

end Scalar

def evaluate : Term → Op → Term → Option Term
  | .value a, op, .value b => (a.apply op b).map .value
  | _, _, _ => none

def Term.reduce (left : Term) (op : Op) (right : Term) : Term :=
  (evaluate left op right).getD (.expr left op right)

/-! ### Solving for an operand -/

/-- The `?` of `known op ? = result` for `and` and `or`. An operand that decides the result
leaves the other one free. -/
def solveLogic (op : Op) (known result : Bool) : Option (List Term) :=
  if known = decide (op = .or) then
    if result = known then some [.bool false, .bool true] else none
  else some [.bool result]

def solveLogic? (op : Op) : Scalar → Scalar → Option (List Term)
  | .bool known, .bool result => solveLogic op known result
  | _, _ => none

/-- The candidates for `?` in `? op right = result`. -/
def solveLeft : Term → Op → Term → Option (List Term)
  | .value r, op, .value v =>
    let one (w : Option Scalar) := w.map fun w => [Term.value w]
    match op with
    | .plus => one (v.apply .minus r)
    | .minus => one (v.apply .plus r)
    | .times => one (v.apply .div r)
    | .div => one (v.apply .times r)
    | .mod => none
    | .and | .or => solveLogic? op r v
  | _, _, _ => none

/-- The candidates for `?` in `left op ? = result`. -/
def solveRight : Term → Op → Term → Option (List Term)
  | .value l, op, .value v =>
    let one (w : Option Scalar) := w.map fun w => [Term.value w]
    match op with
    | .plus => one (v.apply .minus l)
    | .minus => one (l.apply .minus v)
    | .times => one (v.apply .div l)
    | .div => one (l.apply .div v)
    | .mod => none
    | .and | .or => solveLogic? op l v
  | _, _, _ => none

end Relational
