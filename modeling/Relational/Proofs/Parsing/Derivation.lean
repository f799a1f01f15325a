import Mathlib.Tactic.Lemma
import Relational.Text.Token
import Relational.Text.Printer

/-!
The grammar of terms and queries, as derivations. Operators of one level join operands of the next
one and associate to the left; the operands of the last level are atoms. Brackets, commas and
operators are tokens of one character each. Blanks may stand around every token, and so between
two brackets with nothing else in them.
-/

namespace Relational

/-- The operations applied one after the other, each to what comes of those before it. -/
def Term.operate (t : Term) (more : List (Op × Term)) : Term :=
  more.foldl (fun left (op, right) => .expr left op right) t

namespace Text

/-! ### Tokens -/

def Blank (s : List Char) : Prop := ∀ c ∈ s, isBlank c

def AllDigits (s : List Char) : Prop := ∀ c ∈ s, c.isDigit

/-- The token, with blanks around it. -/
inductive Padded (token : List Char) : List Char → Prop where
  | mk {before after : List Char} (hb : Blank before) (ha : Blank after) :
      Padded token (before ++ (token ++ after))

/-- A sign or none; true is minus. -/
inductive Sign : List Char → Bool → Prop where
  | none : Sign [] false
  | plus : Sign ['+'] false
  | minus : Sign ['-'] true

/-- Digits around a point, on one of its sides at least, or digits alone. -/
inductive Mantissa : List Char → List Char → Option (List Char) → Prop where
  | whole {ds : List Char} (hd : AllDigits ds) (hne : ds ≠ []) : Mantissa ds ds none
  | point {ds fs : List Char} (hd : AllDigits ds) (hne : ds ≠ []) (hf : AllDigits fs) :
      Mantissa (ds ++ '.' :: fs) ds (some fs)
  | fraction {fs : List Char} (hf : AllDigits fs) (hne : fs ≠ []) :
      Mantissa ('.' :: fs) [] (some fs)

/-- A mark and digits with a sign, or nothing. -/
inductive Exponent : List Char → Option Int → Prop where
  | none : Exponent [] none
  | some {c : Char} {s ds : List Char} {negative : Bool} (hc : c = 'e' ∨ c = 'E')
      (hs : Sign s negative) (hd : AllDigits ds) (hne : ds ≠ []) :
      Exponent (c :: (s ++ ds)) (some (if negative then -digitsValue ds else digitsValue ds))

/-- The tokens that are terms. A float has a point or an exponent and a finite value, an integer
fits 64 bits, and the two truth values have names. -/
inductive Token : List Char → Term → Prop where
  | float {s m e ds : List Char} {negative : Bool} {fs : Option (List Char)} {n : Option Int}
      {x : Float} (hs : Sign s negative) (hm : Mantissa m ds fs) (he : Exponent e n)
      (hp : ¬(fs = none ∧ n = none))
      (hx : Decimal.toFloat? ⟨digitsValue (ds ++ fs.getD []), n.getD 0 - (fs.getD []).length⟩ =
        some x) :
      Token (s ++ (m ++ e)) (.float (if negative then -x else x))
  | int {ds : List Char} {n : Int64} (hd : AllDigits ds) (hne : ds ≠ [])
      (hn : n.toInt = digitsValue ds) : Token ds (.int n)
  | negative {ds : List Char} {n : Int64} (hd : AllDigits ds) (hne : ds ≠ [])
      (hn : n.toInt = -digitsValue ds) : Token ('-' :: ds) (.int n)
  | text {s : List Char} (hs : ∀ c ∈ s, c ≠ '"') :
      Token ('"' :: (s ++ ['"'])) (.text (String.ofList s))
  | name {c : Char} {s : List Char} (hc : startsName c) (hs : ∀ d ∈ s, continuesName d) :
      Token (c :: s) (named (String.ofList (c :: s)))

/-! ### Terms and queries -/

/-- What characters are derived as. -/
inductive Phrase where
  /-- A term whose operators outside of brackets bind as tightly as the level or tighter; an atom
  has none and is of the fifth level. -/
  | term (level : Nat) (t : Term)
  /-- Operators of a level, each with its right operand. -/
  | operations (level : Nat) (more : List (Op × Term))
  /-- Commas, each with a term after it. -/
  | items (ts : List Term)

inductive Derives : Phrase → List Char → Prop where
  | token {w s : List Char} {t : Term} (ht : Token w t) (hs : Padded w s) : Derives (.term 5 t) s
  | unit {l r : List Char} (hl : Padded ['('] l) (hr : Padded [')'] r) :
      Derives (.term 5 .empty) (l ++ r)
  | group {l s r : List Char} {t : Term} (hl : Padded ['('] l) (ht : Derives (.term 1 t) s)
      (hr : Padded [')'] r) : Derives (.term 5 t) (l ++ (s ++ r))
  | pair {l s c s' r : List Char} {t t' : Term} (hl : Padded ['('] l) (ht : Derives (.term 1 t) s)
      (hc : Padded [','] c) (ht' : Derives (.term 1 t') s') (hr : Padded [')'] r) :
      Derives (.term 5 (.pair t t')) (l ++ (s ++ (c ++ (s' ++ r))))
  | nil {l r : List Char} (hl : Padded ['['] l) (hr : Padded [']'] r) :
      Derives (.term 5 (.ofList [])) (l ++ r)
  | list {l s s' r : List Char} {t : Term} {ts : List Term} (hl : Padded ['['] l)
      (ht : Derives (.term 1 t) s) (hts : Derives (.items ts) s') (hr : Padded [']'] r) :
      Derives (.term 5 (.ofList (t :: ts))) (l ++ (s ++ (s' ++ r)))
  | chain {n : Nat} {s s' : List Char} {t : Term} {more : List (Op × Term)} (hn : 1 ≤ n ∧ n ≤ 4)
      (ht : Derives (.term (n + 1) t) s) (hm : Derives (.operations n more) s') :
      Derives (.term n (t.operate more)) (s ++ s')
  | last {n : Nat} : Derives (.operations n []) []
  | operation {o s s' : List Char} {op : Op} {t : Term} {more : List (Op × Term)}
      (ho : Padded [op.symbol] o) (ht : Derives (.term (op.level + 1) t) s)
      (hm : Derives (.operations op.level more) s') :
      Derives (.operations op.level ((op, t) :: more)) (o ++ (s ++ s'))
  | noMore : Derives (.items []) []
  | item {c s s' : List Char} {t : Term} {ts : List Term} (hc : Padded [','] c)
      (ht : Derives (.term 1 t) s) (hts : Derives (.items ts) s') :
      Derives (.items (t :: ts)) (c ++ (s ++ s'))

/-- Two terms with a relation between them. -/
inductive DerivesQuery : Query → List Char → Prop where
  | mk {l s r : List Char} {left right : Term} {relation : Relation}
      (hl : Derives (.term 1 left) l) (hs : Padded relation.symbol.toList s)
      (hr : Derives (.term 1 right) r) : DerivesQuery ⟨left, relation, right⟩ (l ++ (s ++ r))

end Text

end Relational
