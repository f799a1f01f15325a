import Relational.Text.Printer
import Relational.Text.Token

/-!
The grammar of terms and queries. An operator whose right operand is missing, or a comma with
nothing after it, is left unread.
-/

namespace Relational.Text

def application (level : Nat) (operand : Reader Term) : Reader (Op × Term) := fun s =>
  match skip s with
  | c :: rest =>
    match Op.ofSymbol? c with
    | some op => if op.level = level then (operand (skip rest)).map (op, ·) else .missing
    | none => .missing
  | [] => .missing

/-- Operands joined by operators of one level, which associate to the left. -/
def chain (level : Nat) (operand : Reader Term) : Reader Term := fun s =>
  (operand s).bind fun first rest =>
    ((application level operand).many rest.length rest).map fun more =>
      more.foldl (fun left (op, right) => .expr left op right) first

def following (term : Reader Term) : Reader Term := fun s =>
  match symbol ',' s with
  | some rest => term rest
  | none => .missing

/-- Reads the closing character of a bracket around a term that has been read. -/
def close (c : Char) (t : Term) : Reader Term := fun s =>
  match symbol c s with
  | some rest => .found t rest
  | none => .missing

/-- Nothing, a term, or a pair of terms in round brackets. -/
def parenthesized (term : Reader Term) : Reader Term := fun s =>
  match symbol '(' s with
  | none => .missing
  | some inner =>
    match term inner with
    | .broken marks => .broken marks
    | .missing => close ')' .empty inner
    | .found first rest =>
      match following term rest with
      | .broken marks => .broken marks
      | .missing => close ')' first rest
      | .found second rest => close ')' (.pair first second) rest

def list (term : Reader Term) : Reader Term := fun s =>
  match symbol '[' s with
  | none => .missing
  | some inner =>
    match term inner with
    | .broken marks => .broken marks
    | .missing => close ']' .empty inner
    | .found first rest =>
      ((following term).many rest.length rest).bind fun more => close ']' (.ofList (first :: more))

/-- What an operator applies to. Brackets hold what `term` reads. -/
def atom (term : Reader Term) : Reader Term := fun s =>
  Reading.within .atom s <|
    (float s).map Term.float
    |>.orElse fun _ => (Reading.ofOption (integer s)).map Term.int
    |>.orElse fun _ => (Reading.ofOption (quoted s)).map Term.text
    |>.orElse fun _ => (parenthesized term s).within .parenthesized s
    |>.orElse fun _ => (list term s).within .list s
    |>.orElse fun _ => (Reading.ofOption (name s)).map named

def levels (operand : Reader Term) : Reader Term :=
  chain 1 (chain 2 (chain 3 (chain 4 operand)))

/-- A term with brackets nested less deep than the number. -/
def term : Nat → Reader Term
  | 0 => fun _ => .missing
  | depth + 1 => levels (atom (term depth))

def relation (s : List Char) : Option (Relation × List Char) :=
  match skip s with
  | '!' :: '=' :: rest => some (.differ, skip rest)
  | '=' :: rest => some (.equal, skip rest)
  | _ => none

/-! ### Whole texts -/

inductive ReadError where
  /-- The text does not begin with what was asked for. The marks go outward. -/
  | malformed (marks : List Mark)
  /-- Something is left after what was asked for. -/
  | trailing (rest : List Char)
deriving DecidableEq

def noTerm (s : List Char) : List Mark :=
  [⟨skip s, .tag⟩, ⟨skip s, .alternative⟩, ⟨s, .identifier⟩, ⟨s, .alternative⟩, ⟨s, .atom⟩]

def noRelation (s : List Char) : List Mark :=
  [⟨skip s, .tag⟩, ⟨skip s, .alternative⟩, ⟨s, .relation⟩]

/-- The term in front of the characters, with enough depth for every bracket among them. -/
def termOf (s : List Char) : Except ReadError (Term × List Char) :=
  match term (s.length + 1) s with
  | .found t rest => .ok (t, rest)
  | .missing => .error (.malformed (noTerm s))
  | .broken marks => .error (.malformed marks)

def queryOf (s : List Char) : Except ReadError (Query × List Char) := do
  let (left, rest) ← termOf s
  match relation rest with
  | none => .error (.malformed (noRelation rest))
  | some (relation, rest) =>
    let (right, rest) ← termOf rest
    .ok (⟨left, relation, right⟩, rest)

def complete {α : Type} : α × List Char → Except ReadError α
  | (a, []) => .ok a
  | (_, rest) => .error (.trailing rest)

end Relational.Text

namespace Relational

def Term.parse (text : String) : Except Text.ReadError Term :=
  Text.termOf text.toList >>= Text.complete

def Query.parse (text : String) : Except Text.ReadError Query :=
  Text.queryOf text.toList >>= Text.complete

end Relational
