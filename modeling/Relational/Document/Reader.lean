import Relational.Document.Number
import Relational.Text.Blank

/-!
The text of documents.
-/

namespace Relational.Document

open Text (digits digitValue sign skip symbol)

def word (w : List Char) (s : List Char) : Option (List Char) :=
  if w.isPrefixOf s then some (s.drop w.length) else none

/-! ### Numbers -/

def someDigits (s : List Char) : Option (List Char × List Char) :=
  match digits s with
  | ([], _) => none
  | r => some r

def numeral (s : List Char) : Option (Numeral × List Char) := do
  let (negative, s) : Bool × List Char :=
    match s with
    | '-' :: rest => (true, rest)
    | _ => (false, s)
  let (whole, s) ← someDigits s
  if 1 < whole.length ∧ whole.head? = some '0' then none
  let (fraction, s) ←
    match s with
    | '.' :: rest => (someDigits rest).map fun (ds, rest) => (some ds, rest)
    | _ => some (none, s)
  let (exponent, s) ←
    match s with
    | c :: rest =>
      if c = 'e' ∨ c = 'E' then
        let (below, rest) := sign rest
        (someDigits rest).map fun (ds, rest) => (some (below, ds), rest)
      else some (none, s)
    | [] => some (none, s)
  some (⟨negative, whole, fraction, exponent⟩, s)

/-! ### Texts -/

def hexDigit? (c : Char) : Option Nat :=
  if c.isDigit then some (digitValue c)
  else if 'a' ≤ c ∧ c ≤ 'f' then some (c.toNat - 'a'.toNat + 10)
  else if 'A' ≤ c ∧ c ≤ 'F' then some (c.toNat - 'A'.toNat + 10)
  else none

def unit16 : List Char → Option (Nat × List Char)
  | a :: b :: c :: d :: rest => do
    let n := ((← hexDigit? a) * 16 + (← hexDigit? b)) * 16 + (← hexDigit? c)
    some (n * 16 + (← hexDigit? d), rest)
  | _ => none

/-- The character of one unit, or of two units that make up a pair. -/
def codePoint (s : List Char) : Option (Char × List Char) := do
  let (n, rest) ← unit16 s
  if n < 0xD800 ∨ 0xDFFF < n then some (.ofNat n, rest)
  else if 0xDC00 ≤ n then none
  else
    let rest ← word ['\\', 'u'] rest
    let (m, rest) ← unit16 rest
    if m < 0xDC00 ∨ 0xDFFF < m then none
    else some (.ofNat (0x10000 + (n - 0xD800) * 0x400 + (m - 0xDC00)), rest)

def escaped : List Char → Option (Char × List Char)
  | 'u' :: rest => codePoint rest
  | c :: rest =>
    let plain : Option Char :=
      match c with
      | '"' => some '"'
      | '\\' => some '\\'
      | '/' => some '/'
      | 'b' => some '\x08'
      | 'f' => some '\x0c'
      | 'n' => some '\n'
      | 'r' => some '\r'
      | 't' => some '\t'
      | _ => none
    plain.map (·, rest)
  | [] => none

def quotedChars : Nat → List Char → Option (List Char × List Char)
  | 0, _ => none
  | _, [] => none
  | _, '"' :: rest => some ([], rest)
  | n + 1, '\\' :: rest => do
    let (c, rest) ← escaped rest
    let (cs, rest) ← quotedChars n rest
    some (c :: cs, rest)
  | n + 1, c :: rest =>
    if c.toNat < 0x20 then none
    else (quotedChars n rest).map fun (cs, rest) => (c :: cs, rest)

def quoted (s : List Char) : Option (String × List Char) :=
  (quotedChars (s.length + 1) s).map fun (cs, rest) => (String.ofList cs, rest)

/-! ### Documents -/

def items {α : Type} (item : List Char → Option (α × List Char)) (close : Char) :
    Nat → List Char → Option (List α × List Char)
  | 0, _ => none
  | n + 1, s => do
    let (a, s) ← item s
    match symbol ',' s with
    | some s => (items item close n s).map fun (more, s) => (a :: more, s)
    | none => (symbol close s).map ([a], ·)

/-- Either the closing character at once or items before it. -/
def bracketed {α : Type} (item : List Char → Option (α × List Char)) (close : Char)
    (s : List Char) : Option (List α × List Char) :=
  match symbol close s with
  | some s => some ([], s)
  | none => items item close s.length s

def field (value : List Char → Option (Document × List Char)) (s : List Char) :
    Option ((String × Document) × List Char) := do
  let s ← word ['"'] (skip s)
  let (key, s) ← quoted s
  let s ← symbol ':' s
  let (d, s) ← value s
  some ((key, d), s)

/-- A document with arrays and objects nested less deep than the number. -/
def value : Nat → List Char → Option (Document × List Char)
  | 0, _ => none
  | depth + 1, s =>
    match skip s with
    | '"' :: rest => (quoted rest).map fun (t, rest) => (.text t, rest)
    | '[' :: rest =>
      (bracketed (value depth) ']' rest).map fun (ds, rest) => (.array ds, rest)
    | '{' :: rest =>
      (bracketed (field (value depth)) '}' rest).map fun (ds, rest) => (.object ds, rest)
    | 't' :: rest => (word ['r', 'u', 'e'] rest).map (.bool true, ·)
    | 'f' :: rest => (word ['a', 'l', 's', 'e'] rest).map (.bool false, ·)
    | 'n' :: rest => (word ['u', 'l', 'l'] rest).map (.null, ·)
    | s => do
      let (n, rest) ← numeral s
      some (← n.toDocument?, rest)

def parse? (text : String) : Option Document :=
  match value (text.length + 1) text.toList with
  | some (d, rest) => if skip rest = [] then some d else none
  | none => none

end Relational.Document
