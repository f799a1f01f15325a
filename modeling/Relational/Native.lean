import Relational.Decimal.Text
import Relational.Term

/-!
Terms from plain values. An absent value is the empty term, a tuple of two is a pair, and a list
is a chain of pairs; terms among the values are kept as they are.
-/

namespace Relational

inductive Native where
  | none
  | bool (b : Bool)
  | int (n : Int64)
  | float (x : Float)
  | text (s : String)
  | tuple (items : List Native)
  | list (items : List Native)
  | term (t : Term)

/-- Why a value is no term. -/
inductive Fault where
  | unsupported (kind : String)
  | arity (found : Nat)
  | notFinite (x : Float)
deriving DecidableEq

def Fault.message : Fault → String
  | unsupported kind => "cannot create a term with value of type " ++ kind
  | arity found => "tuple terms can only have two elements, found " ++ toString found
  | notFinite x => "cannot create a term from the non-finite float " ++ Decimal.floatText x

namespace Native

def kind : Native → String
  | none => "none"
  | bool _ => "bool"
  | int _ => "int"
  | float _ => "float"
  | text _ => "str"
  | tuple _ => "tuple"
  | list _ => "list"
  | term _ => "term"

mutual

/-- The term of a value, or its first fault. A tuple is looked at from the left, after its
length; a list from its end. -/
def toTerm : Native → Except Fault Term
  | .none => .ok .empty
  | .bool b => .ok (.bool b)
  | .int n => .ok (.int n)
  | .float x => if x.isFinite then .ok (.float x) else .error (.notFinite x)
  | .text s => .ok (.text s)
  | .tuple [first, second] => do
    let first ← first.toTerm
    let second ← second.toTerm
    .ok (.pair first second)
  | .tuple items => .error (.arity items.length)
  | .list items => listToTerm items
  | .term t => .ok t

def listToTerm : List Native → Except Fault Term
  | [] => .ok .empty
  | head :: tail => do
    let tail ← listToTerm tail
    let head ← head.toTerm
    .ok (.pair head tail)

end

end Native

end Relational
