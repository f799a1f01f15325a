/-!
The two classes of blank characters: those that may surround a token, and those that are trimmed
from the ends of a line.
-/

namespace Relational.Text

def isBlank (c : Char) : Bool := c = ' ' || c = '\t' || c = '\r' || c = '\n'

/-- The characters with the Unicode property `White_Space`. -/
def isWhite (c : Char) : Bool :=
  let n := c.toNat
  (0x9 ≤ n && n ≤ 0xD) || n = 0x20 || n = 0x85 || n = 0xA0 || n = 0x1680 ||
    (0x2000 ≤ n && n ≤ 0x200A) || n = 0x2028 || n = 0x2029 || n = 0x202F || n = 0x205F || n = 0x3000

def skip (s : List Char) : List Char := s.dropWhile isBlank

/-- The character, with blanks around it. -/
def symbol (c : Char) (s : List Char) : Option (List Char) :=
  match skip s with
  | d :: rest => if d = c then some (skip rest) else none
  | [] => none

def trimEnd (s : List Char) : List Char := (s.reverse.dropWhile isWhite).reverse

def trim (s : List Char) : List Char := trimEnd (s.dropWhile isWhite)

end Relational.Text
