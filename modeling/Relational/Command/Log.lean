import Relational.Event

/-!
The lines of the event log, and which of them are wanted.
-/

namespace Relational.Command

/-- What is written: nothing, the failures of single steps, or every step. -/
inductive Detail where
  | none | debug | trace
deriving DecidableEq

namespace Detail

/-- The detail of a named or numbered level; the ones above it write no events. -/
def ofName (name : String) : Detail :=
  let name := name.toLower
  if name = "trace" ∨ name = "5" then trace
  else if name = "debug" ∨ name = "4" then debug
  else none

def wants : Detail → Event → Bool
  | trace, _ => true
  | debug, .occurs .. => true
  | debug, .noOperand .. => true
  | _, _ => false

end Detail

def line : Event → String
  | .noValue left op right =>
    "TRACE kanren_kernel::core::state: expression does not evaluate left=" ++ left.render
      ++ " op=\"" ++ op.symbol.toString ++ "\" right=" ++ right.render ++ "\n"
  | .occurs x t =>
    "DEBUG kanren_kernel::unify::unification: occurs check failed var=" ++ x.name
      ++ " term=" ++ t.render ++ "\n"
  | .noOperand expr result =>
    "DEBUG kanren_kernel::unify::unification: no reverse solution expr=" ++ expr.render
      ++ " result=" ++ result.render ++ "\n"
  | .extending d =>
    "TRACE kanren_kernel::unify::unification: extending state delta=" ++ d.render ++ "\n"
  | .failed left right =>
    "TRACE kanren_kernel::unify::unification: unification failed left=" ++ left.render
      ++ " right=" ++ right.render ++ "\n"
  | .rejected left right =>
    "TRACE kanren_kernel::unify::unification: disunification rejected state left=" ++ left.render
      ++ " right=" ++ right.render ++ "\n"

def Detail.lines (d : Detail) (events : List Event) : String :=
  String.join ((events.filter d.wants).map line)

end Relational.Command
