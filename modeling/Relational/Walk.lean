import Relational.Arith
import Relational.Bindings

/-!
Reading a term through bindings. Bound variables are followed, and expressions that have a value
by then are computed. A variable that leads back to itself stays where its circle closes.
-/

namespace Relational

/-- Puts a term for every variable and computes the expressions. -/
def Term.instantiate (f : Var → Term) : Term → Term
  | .empty => .empty
  | .value v => .value v
  | .var x => f x
  | .pair a b => .pair (a.instantiate f) (b.instantiate f)
  | .expr a op b => .reduce (a.instantiate f) op (b.instantiate f)

namespace Bindings

/-- What a variable stands for, after following the variables of `path`. A path holds each bound
variable at most once, so `steps` never runs out when the two together number the bindings. -/
def resolve (s : Bindings) : (steps : Nat) → (path : List Var) → Var → Term
  | 0, _, x => .var x
  | steps + 1, path, x =>
    if x ∈ path then .var x
    else
      match s[x]? with
      | none => .var x
      | some t => t.instantiate (s.resolve steps (x :: path))

def walk (s : Bindings) (t : Term) : Term := t.instantiate (s.resolve s.size [])

end Bindings

end Relational
