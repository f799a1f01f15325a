import Relational.Text.Quoted
import Relational.Var

/-!
Fresh variables. A supply names its variables after a stem and the number that its counter has
reached; supplies may share a counter.
-/

namespace Relational

/-- Refers to a counter by its place. -/
structure Supply where
  stem : String
  counter : Nat
deriving DecidableEq

/-- How far every counter has come, and the number of supplies opened without a stem. The first
counter belongs to the global supply. -/
structure Counters where
  reached : List Nat
  unnamed : Nat
deriving DecidableEq

namespace Supply

def global : Supply := ⟨"var", 0⟩

def sharesCounter (p q : Supply) : Bool := p.counter = q.counter

/-- The variable with a number. The dot keeps it apart from the names that can be written. -/
def nth (p : Supply) (n : Nat) : Var := ⟨p.stem ++ "." ++ toString n⟩

end Supply

namespace Counters

def start : Counters := ⟨[0], 0⟩

def openStem (c : Counters) (stem : String) : Supply × Counters :=
  (⟨stem, c.reached.length⟩, { c with reached := c.reached ++ [0] })

/-- Opens a supply with a stem that no other supply opened so has. -/
def openUnnamed (c : Counters) : Supply × Counters :=
  { c with unnamed := c.unnamed + 1 }.openStem ("_" ++ toString c.unnamed)

def allocated (c : Counters) (p : Supply) : Nat := c.reached.getD p.counter 0

def fresh (c : Counters) (p : Supply) : Var × Counters :=
  let n := c.allocated p
  (p.nth n, { c with reached := c.reached.set p.counter (n + 1) })

def describe (c : Counters) (p : Supply) : String :=
  "VarSupply \x7b prefix: " ++ Text.encode p.stem ++ ", allocated: "
    ++ toString (c.allocated p) ++ " \x7d"

end Counters

end Relational
