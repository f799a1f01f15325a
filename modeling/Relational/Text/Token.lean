import Relational.Arith
import Relational.Decimal.Basic
import Relational.Text.Digits
import Relational.Text.Reading

/-!
The tokens of terms: numbers, texts and names. Blanks around a token belong to it. Letters are
those of ASCII.
-/

namespace Relational.Text

/-! ### Numbers -/

/-- The digits around a point; one of the two sides has to have some. The point may be left out
when nothing follows it. -/
def mantissa (s : List Char) : Option ((List Char × Option (List Char)) × List Char) :=
  match digits s with
  | (whole, '.' :: rest) =>
    let (fraction, rest) := digits rest
    if whole = [] ∧ fraction = [] then none else some ((whole, some fraction), rest)
  | (whole, rest) => if whole = [] then none else some ((whole, none), rest)

/-- The exponent, if a mark of one follows. After the mark, digits have to follow. -/
def exponent : Reader (Option Int)
  | c :: s =>
    if c = 'e' ∨ c = 'E' then
      let (negative, s) := sign s
      match digits s with
      | ([], _) => .broken [⟨s, .digit⟩]
      | (ds, rest) => .found (some (if negative then -digitsValue ds else digitsValue ds)) rest
    else .found none (c :: s)
  | [] => .found none []

/-- A number with a point or an exponent. It has to be finite. -/
def float (start : List Char) : Reading Float :=
  Reading.within .float start <|
    let (negative, s) := sign (skip start)
    match mantissa s with
    | none => .missing
    | some ((whole, fraction), s) =>
      (exponent s).bind fun e rest =>
        if fraction = none ∧ e = none then .missing
        else
          let ds := fraction.getD []
          let value : Decimal := ⟨digitsValue (whole ++ ds), e.getD 0 - ds.length⟩
          match value.toFloat? with
          | some x => .found (if negative then -x else x) (skip rest)
          | none => .missing

def integer (s : List Char) : Option (Int64 × List Char) :=
  let (negative, s) : Bool × List Char :=
    match skip s with
    | '-' :: rest => (true, rest)
    | rest => (false, rest)
  match digits s with
  | ([], _) => none
  | (ds, rest) =>
    let n : Int := if negative then -digitsValue ds else digitsValue ds
    (Word.ofInt? n).map (·, skip rest)

/-! ### Texts and names -/

def quoted (s : List Char) : Option (String × List Char) :=
  match skip s with
  | '"' :: rest =>
    match rest.dropWhile (· ≠ '"') with
    | _ :: after => some (String.ofList (rest.takeWhile (· ≠ '"')), skip after)
    | [] => none
  | _ => none

def startsName (c : Char) : Bool := c.isAlpha || c = '_'

def continuesName (c : Char) : Bool := c.isAlphanum || c = '_'

def name (s : List Char) : Option (String × List Char) :=
  match skip s with
  | c :: rest =>
    if startsName c then
      some (String.ofList (c :: rest.takeWhile continuesName), skip (rest.dropWhile continuesName))
    else none
  | [] => none

/-- The two truth values have names; every other name is a variable. -/
def named (s : String) : Term :=
  if s = "true" then .bool true else if s = "false" then .bool false else .var ⟨s⟩

end Relational.Text
