import Relational.Query
import Relational.State

/-!
Goals: constraints on states, with fresh variables.
-/

namespace Relational

inductive Goal where
  | succeed
  | fail
  | equal (left right : Term)
  | differ (left right : Term)
  /-- The goal for a variable that occurs nowhere else. -/
  | fresh (body : Var → Goal)

def Query.goal (q : Query) : Goal :=
  match q.relation with
  | .equal => .equal q.left q.right
  | .differ => .differ q.left q.right

namespace State

/-- Takes a variable from the supply of the state and records it. -/
def withFresh (s : State) (c : Counters) : Var × State × Counters :=
  let (x, c) := c.fresh s.supply
  (x, { s with ledger := s.ledger ++ [x] }, c)

end State

namespace Goal

/-- Applies a goal to a state. The variables it needs are taken at once. -/
def run : Goal → State → Counters → Outcome × Counters
  | .succeed, s, c => (⟨[], .single s⟩, c)
  | .fail, _, c => (⟨[], .done⟩, c)
  | .equal left right, s, c => (s.unify left right, c)
  | .differ left right, s, c => (s.disunify left right, c)
  | .fresh body, s, c =>
    let (x, s, c) := s.withFresh c
    (body x).run s c

end Goal

def Query.solve (q : Query) : Outcome := (q.goal.run (.root .global) .start).1

end Relational
