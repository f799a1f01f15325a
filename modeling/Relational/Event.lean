import Relational.Bindings

/-!
What the search for answers reports on its way.
-/

namespace Relational

inductive Event where
  /-- An expression without variables has no value. -/
  | noValue (left : Term) (op : Op) (right : Term)
  /-- A variable would have to be a term that it occurs in. -/
  | occurs (x : Var) (t : Term)
  /-- No operand makes the expression have the result. -/
  | noOperand (expr result : Term)
  | extending (d : Bindings)
  | failed (left right : Term)
  /-- The terms are equal but must not be. -/
  | rejected (left right : Term)

/-- What walking reports, given the term that it ended with. -/
def Term.faults : Term → List Event
  | .empty | .value _ | .var _ => []
  | .pair a b => a.faults ++ b.faults
  | .expr a op b =>
    a.faults ++ b.faults ++ if a.ground && b.ground then [.noValue a op b] else []

end Relational
