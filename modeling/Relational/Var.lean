import Std.Data.ExtTreeSet

/-!
Logic variables. A variable is its name, and names are ordered by code point.
-/

namespace Relational

structure Var where
  name : String
deriving DecidableEq, Inhabited

instance : Ord Var := ⟨fun x y => compare x.name y.name⟩

instance : Std.TransOrd Var where
  eq_swap {x y} := @Std.OrientedCmp.eq_swap String compare _ x.name y.name
  isLE_trans {x y z} h k := @Std.TransCmp.isLE_trans String compare _ x.name y.name z.name h k

instance : Std.LawfulEqOrd Var where
  compare_self {x} := @Std.ReflCmp.compare_self String compare _ x.name
  eq_of_compare {x y} h := by
    have h' : x.name = y.name := @Std.LawfulEqCmp.eq_of_compare String compare _ _ _ h
    cases x; cases y; cases h'; rfl

/-- A set of variables, listed in the order of the names. -/
abbrev VarSet : Type := Std.ExtTreeSet Var

end Relational
