import Relational.Decimal.Text
import Relational.Query

/-!
The text of terms and queries. Operators associate to the left and bind in the order
`|`, `&`, `+ -`, `* / %`; an operand is bracketed only where it has to be.
-/

namespace Relational

namespace Scalar

def chars : Scalar → List Char
  | bool b => (if b then "true" else "false").toList
  | int n => (toString n.toInt).toList
  | float x => (Decimal.floatText x).toList
  | text s => '"' :: s.toList ++ ['"']

def render (v : Scalar) : String := String.ofList v.chars

end Scalar

def Op.level : Op → Nat
  | .or => 1
  | .and => 2
  | .plus | .minus => 3
  | .times | .div | .mod => 4

namespace Term

def isList : Term → Bool
  | .empty => true
  | .pair _ second => second.isList
  | _ => false

mutual

/-- The term as an operand of an operator that binds as tightly as `level`. -/
def chars : Term → Nat → List Char
  | .empty, _ => ['(', ')']
  | .value v, _ => v.chars
  | .var x, _ => x.name.toList
  | .pair first second, _ =>
    if second.isList then '[' :: chars first 0 ++ tailChars second ++ [']']
    else '(' :: chars first 0 ++ ',' :: ' ' :: chars second 0 ++ [')']
  | .expr left op right, level =>
    let body :=
      chars left op.level ++ ' ' :: op.symbol :: ' ' :: chars right (op.level + 1)
    if op.level < level then '(' :: body ++ [')'] else body

/-- The items of a list after its first one. -/
def tailChars : Term → List Char
  | .pair first second => ',' :: ' ' :: chars first 0 ++ tailChars second
  | _ => []

end

def render (t : Term) : String := String.ofList (t.chars 0)

end Term

def Query.render (q : Query) : String :=
  q.left.render ++ " " ++ q.relation.symbol ++ " " ++ q.right.render

end Relational
