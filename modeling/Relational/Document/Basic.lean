import Relational.Arith
import Relational.Native

/-!
JSON documents as terms: arrays are lists, and objects have no term.
-/

namespace Relational

/-- A JSON document. Its integers are those of 64 bits, with or without a sign. -/
inductive Document where
  | null
  | bool (b : Bool)
  | int (n : Int)
  | float (x : Float)
  | text (s : String)
  | array (items : List Document)
  | object (fields : List (String × Document))

namespace Document

mutual

/-- The value of a document. An integer beyond the signed ones is the nearest float. -/
def toNative : Document → Except Fault Native
  | .null => .ok .none
  | .bool b => .ok (.bool b)
  | .int n => .ok (match Word.ofInt? n with | some w => .int w | none => .float (.ofInt n))
  | .float x => .ok (.float x)
  | .text s => .ok (.text s)
  | .array items => do .ok (.list (← toNatives items))
  | .object _ => .error (.unsupported "object")

def toNatives : List Document → Except Fault (List Native)
  | [] => .ok []
  | head :: tail => do
    let head ← head.toNative
    let tail ← toNatives tail
    .ok (head :: tail)

end

def toTerm (d : Document) : Except Fault Term := do (← d.toNative).toTerm

end Document

end Relational
