import Relational.Matching
import Relational.Supply

/-!
States, and the two ways to constrain one: making two terms equal, and keeping them different.
-/

namespace Relational

structure State where
  bindings : Bindings
  /-- The fresh variables of this line of states, oldest first. -/
  ledger : List Var
  supply : Supply

/-- What comes of constraining a state: the events of doing so, and the search for the states
that satisfy the constraint. -/
structure Outcome where
  opening : List Event
  states : Search State

namespace State

def root (p : Supply) : State := ⟨∅, [], p⟩

def lookup (s : State) (x : Var) : Option Term := s.bindings[x]?

def extend (s : State) (d : Bindings) : State := { s with bindings := s.bindings.extend d }

def walk (s : State) (t : Term) : Term := s.bindings.walk t

/-- Equal bindings and the same ledger; the supply does not count. -/
def equal (s t : State) : Bool := s.bindings.equal t.bindings && s.ledger = t.ledger

def unify (s : State) (left right : Term) : Outcome :=
  let left := s.walk left
  let right := s.walk right
  let log := left.faults ++ right.faults
  match s.bindings.matchTerms left right with
  | (log', none) => ⟨log ++ log' ++ [.failed left right], .done⟩
  | (log', some ways) =>
    ⟨log ++ log', ways.bind fun d => .note (.extending d) (.single (s.extend d))⟩

/-- The state as it is, unless the terms can be made equal. -/
def disunify (s : State) (left right : Term) : Outcome :=
  let left := s.walk left
  let right := s.walk right
  let log := left.faults ++ right.faults
  match s.bindings.matchTerms left right with
  | (log', none) => ⟨log ++ log', .single s⟩
  | (log', some .cut) => ⟨log ++ log', .cut⟩
  | (log', some _) => ⟨log ++ log' ++ [.rejected left right], .done⟩

def render (s : State) : String := s.bindings.render

def answer (s : State) (xs : VarSet) : String :=
  if xs.isEmpty then "yes"
  else ", ".intercalate (xs.toList.map fun x => x.name ++ " = " ++ (s.walk (.var x)).render)

end State

end Relational
