import Relational.Search
import Relational.Walk

/-!
Matching two terms: the ways to make them equal, each as the bindings that it adds. Pairs are
matched field by field, each field under what the fields before it have bound; an expression
with one unknown operand is solved for it.
-/

namespace Relational

/-- The events before the outcome is known, and the bindings for each way. There are no ways
when the terms cannot be equal. -/
abbrev Matching : Type := List Event × Option (Search Bindings)

abbrev Matcher : Type := Bindings → Term → Term → Matching

namespace Matching

def agree : Matching := ([], some (.single ∅))

def refuse : Matching := ([], none)

def bindVar (x : Var) (t : Term) : Matching :=
  if t.occurs x then ([.occurs x t], none) else ([], some (.single (.single x t)))

def ofValues (x : Var) (values : List Term) : Matching :=
  ([], some (.ofList (values.map (.single x))))

def search : Matching → Search Bindings
  | (log, none) => .notes log .done
  | (log, some ways) => .notes log ways

end Matching

namespace Term

/-- The unknown operand of an expression, when the other one is no variable, and how to find its
values from the result. -/
def unknown? : Term → Option (Var × (Term → Option (List Term)))
  | .expr (.var _) _ (.var _) => none
  | .expr (.var x) op known => some (x, solveLeft known op)
  | .expr known op (.var x) => some (x, solveRight known op)
  | _ => none

def fields : Term → Term → List (Term × Term)
  | .pair a as, .pair b bs => (a, b) :: fields as bs
  | left, right => [(left, right)]

def solveFor (e result : Term) (x : Var) (values? : Option (List Term)) : Matching :=
  match values? with
  | some values => .ofValues x values
  | none => ([.noOperand e result], none)

end Term

namespace Bindings

/-- Goes on with the fields after the first one; `acc` is what the fields before them have bound. -/
def fieldSearch (again : Matcher) : Bindings → Bindings → List (Term × Term) → Search Bindings
  | _, acc, [] => .single acc
  | s, acc, (left, right) :: fields =>
    let left := s.walk left
    let right := s.walk right
    .notes (left.faults ++ right.faults) <|
      (again s left right).search.bind fun d =>
        fieldSearch again (s.extend d) (acc.extend d) fields

/-- Matches two chains of pairs. The first field is taken as it is. -/
def matchFields (again : Matcher) (s : Bindings) : List (Term × Term) → Matching
  | [] => .refuse
  | (left, right) :: fields =>
    ((again s left right).search.bind fun d => fieldSearch again (s.extend d) d fields).opening

/-- Matches two terms, with `again` for the fields of pairs. -/
def matchStep (again : Matcher) : Matcher
  | _, .empty, .empty => .agree
  | _, .value a, .value b => if a.equal b then .agree else .refuse
  | s, .pair a as, .pair b bs => matchFields again s (Term.fields (.pair a as) (.pair b bs))
  | _, .var x, t => if t = .var x then .agree else .bindVar x t
  | _, t, .var x => .bindVar x t
  | _, left, right =>
    match left.unknown?, right.unknown? with
    | some (x, values?), _ => left.solveFor right x (values? right)
    | none, some (x, values?) => right.solveFor left x (values? left)
    | none, none => .refuse

/-- Matches with fields nested as deep as the number, and with `next` below that. -/
def matchIn (next : Matcher) : Nat → Matcher
  | 0 => next
  | depth + 1 => fun s left right => matchStep (matchIn next depth) s left right

/-- Matches in rounds. A round allows a depth of the size of its terms, which is enough unless a
variable is bound in it and makes the terms grow. -/
def matchRounds : Nat → Matcher
  | 0 => fun _ _ _ => ([], some .cut)
  | rounds + 1 => fun s left right =>
    matchIn (matchRounds rounds) (left.size + right.size) s left right

/-- Matches two terms. There are more rounds than variables to bind. -/
def matchTerms : Matcher := fun s left right =>
  matchRounds (left.size + right.size + s.weight + 2) s left right

end Bindings

end Relational
