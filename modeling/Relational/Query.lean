import Relational.Term

/-!
Queries: two terms and the relation asserted between them.
-/

namespace Relational

inductive Relation where
  | equal | differ
deriving DecidableEq

namespace Relation

def symbol : Relation → String
  | equal => "="
  | differ => "!="

end Relation

structure Query where
  left : Term
  relation : Relation
  right : Term
deriving DecidableEq

namespace Query

def freeVars (q : Query) : VarSet := .ofList (q.left.vars ++ q.right.vars)

end Query

end Relational
