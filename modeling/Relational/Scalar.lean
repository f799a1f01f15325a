/-!
Scalars: truth values, 64-bit integers, double-precision floats and texts.
-/

namespace Relational

inductive Scalar where
  | bool (b : Bool)
  | int (n : Int64)
  | float (x : Float)
  | text (s : String)
deriving DecidableEq

inductive Kind where
  | bool | int | float | text
deriving DecidableEq

namespace Kind

def name : Kind → String
  | bool => "bool"
  | int => "int"
  | float => "float"
  | text => "str"

end Kind

namespace Scalar

def kind : Scalar → Kind
  | bool _ => .bool
  | int _ => .int
  | float _ => .float
  | text _ => .text

def toBool? : Scalar → Option Bool
  | bool b => some b
  | _ => none

/-- The scalar as a number; an integer that no float holds goes to the nearest one. -/
def toFloat? : Scalar → Option Float
  | int n => some (.ofInt n.toInt)
  | float x => some x
  | _ => none

/-- Equality of values. Two integers compare exactly, an integer and a float as floats, and
everything else only with its own kind. A float that is not a number differs from itself. -/
def equal : Scalar → Scalar → Bool
  | bool a, bool b => a == b
  | int m, int n => m == n
  | text s, text t => s == t
  | int n, float y => Float.ofInt n.toInt == y
  | float x, int n => x == Float.ofInt n.toInt
  | float x, float y => x == y
  | _, _ => false

/-- A float scalar is a finite number. -/
def finite : Scalar → Bool
  | float x => x.isFinite
  | _ => true

end Scalar

end Relational
