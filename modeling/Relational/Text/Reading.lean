import Relational.Text.Blank

/-!
What a reader makes of the characters in front of it. A missing thing lets the caller try
something else; a broken one, begun and not finished, ends the whole reading.
-/

namespace Relational.Text

inductive Label where
  | tag | alternative | digit
  | identifier | float | parenthesized | list | atom | relation
deriving DecidableEq

/-- A label at the place where `rest` is what is left of the text. -/
structure Mark where
  rest : List Char
  label : Label
deriving DecidableEq

inductive Reading (α : Type) where
  | found (a : α) (rest : List Char)
  | missing
  | broken (marks : List Mark)

abbrev Reader (α : Type) : Type := List Char → Reading α

namespace Reading

variable {α β : Type}

def ofOption : Option (α × List Char) → Reading α
  | some (a, rest) => found a rest
  | none => missing

def bind : Reading α → (α → Reader β) → Reading β
  | found a rest, next => next a rest
  | missing, _ => missing
  | broken marks, _ => broken marks

def map (f : α → β) : Reading α → Reading β
  | found a rest => found (f a) rest
  | missing => missing
  | broken marks => broken marks

def orElse : Reading α → (Unit → Reading α) → Reading α
  | missing, next => next ()
  | r, _ => r

/-- Says what was being read where a broken reading began. -/
def within (label : Label) (start : List Char) : Reading α → Reading α
  | broken marks => broken (marks ++ [⟨start, label⟩])
  | r => r

end Reading

namespace Reader

variable {α : Type}

/-- Reads as many as there are, at most `n`; stops before the first that is missing. -/
def many (p : Reader α) : Nat → Reader (List α)
  | 0, s => .found [] s
  | n + 1, s =>
    match p s with
    | .found a rest => (many p n rest).map (a :: ·)
    | .missing => .found [] s
    | .broken marks => .broken marks

end Reader

end Relational.Text
