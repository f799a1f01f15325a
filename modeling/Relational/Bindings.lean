import Std.Data.ExtTreeMap
import Relational.Text.Printer

/-!
Bindings of variables to terms. The same type holds the bindings of a state and those that one
step adds to it.
-/

namespace Relational

abbrev Bindings : Type := Std.ExtTreeMap Var Term

namespace Bindings

def single (x : Var) (t : Term) : Bindings := (∅ : Bindings).insert x t

/-- Both together. The second ones win. -/
def extend (s d : Bindings) : Bindings := s ∪ d

/-- The number of nodes of the bound terms. -/
def weight (s : Bindings) : Nat := s.toList.foldr (fun b n => b.2.size + n) 0

def equal (s d : Bindings) : Bool :=
  s.size = d.size && s.toList.all fun (x, t) => d[x]?.any t.equal

def render (s : Bindings) : String :=
  let bound := s.toList.map fun (x, t) => x.name ++ " = " ++ t.render
  "\x7b" ++ ", ".intercalate bound ++ "\x7d"

theorem getElem?_extend (s d : Bindings) (x : Var) : (s.extend d)[x]? = d[x]?.or s[x]? :=
  Std.ExtTreeMap.getElem?_union

theorem getElem?_single (x y : Var) (t : Term) :
    (single x t)[y]? = if x = y then some t else none := by
  simp [single, Std.ExtTreeMap.getElem?_insert]

end Bindings

end Relational
