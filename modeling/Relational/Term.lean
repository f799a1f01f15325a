import Relational.Scalar
import Relational.Var

/-!
Terms: the empty term, scalars, pairs, variables and arithmetic expressions.
A list is a chain of pairs that ends in the empty term.
-/

namespace Relational

inductive Op where
  | plus | minus | times | div | mod | and | or
deriving DecidableEq

namespace Op

def symbol : Op → Char
  | plus => '+'
  | minus => '-'
  | times => '*'
  | div => '/'
  | mod => '%'
  | and => '&'
  | or => '|'

def all : List Op := [plus, minus, times, div, mod, and, or]

def ofSymbol? (c : Char) : Option Op := all.find? (·.symbol = c)

end Op

inductive Term where
  | empty
  | value (v : Scalar)
  | pair (first second : Term)
  | var (x : Var)
  | expr (left : Term) (op : Op) (right : Term)
deriving DecidableEq, Inhabited

namespace Term

def bool (b : Bool) : Term := .value (.bool b)

def int (n : Int64) : Term := .value (.int n)

def float (x : Float) : Term := .value (.float x)

def text (s : String) : Term := .value (.text s)

def ofList (items : List Term) : Term := items.foldr .pair .empty

/-! Operators between terms make expressions and compute nothing. -/

instance : Add Term := ⟨(.expr · .plus ·)⟩
instance : Sub Term := ⟨(.expr · .minus ·)⟩
instance : Mul Term := ⟨(.expr · .times ·)⟩
instance : Div Term := ⟨(.expr · .div ·)⟩
instance : Mod Term := ⟨(.expr · .mod ·)⟩
instance : AndOp Term := ⟨(.expr · .and ·)⟩
instance : OrOp Term := ⟨(.expr · .or ·)⟩

instance : Coe Int64 Term := ⟨int⟩

def size : Term → Nat
  | .empty | .value _ | .var _ => 1
  | .pair a b | .expr a _ b => a.size + b.size + 1

def scalar? : Term → Option Scalar
  | .value v => some v
  | _ => none

def var? : Term → Option Var
  | .var x => some x
  | _ => none

def isVar (t : Term) : Bool := t.var?.isSome

/-! ### Variables -/

def occurs (x : Var) : Term → Bool
  | .empty | .value _ => false
  | .var y => x = y
  | .pair a b | .expr a _ b => a.occurs x || b.occurs x

/-- The variables from left to right, as often as they occur. -/
def vars : Term → List Var
  | .empty | .value _ => []
  | .var x => [x]
  | .pair a b | .expr a _ b => a.vars ++ b.vars

def freeVars (t : Term) : VarSet := .ofList t.vars

def ground : Term → Bool
  | .empty | .value _ => true
  | .var _ => false
  | .pair a b | .expr a _ b => a.ground && b.ground

theorem occurs_iff {x : Var} {t : Term} : t.occurs x ↔ x ∈ t.vars := by
  induction t <;> simp_all [occurs, vars]

/-! ### Equality -/

/-- Equal shape, with scalars equal as values. -/
def equal : Term → Term → Bool
  | .empty, .empty => true
  | .value a, .value b => a.equal b
  | .var x, .var y => x = y
  | .pair a b, .pair c d => a.equal c && b.equal d
  | .expr a o b, .expr c p d => a.equal c && o = p && b.equal d
  | _, _ => false

/-- Every float in the term is a finite number. -/
def finite : Term → Bool
  | .empty | .var _ => true
  | .value v => v.finite
  | .pair a b | .expr a _ b => a.finite && b.finite

end Term

end Relational
