import Relational.Decimal.Shortest

/-!
The text of a float: its shortest digits, written out between `0.0001` and `1e16` with at least
one digit after the point, and with an exponent elsewhere.
-/

namespace Relational.Decimal

/-- The digits of `0.ds * 10 ^ e` with a point in place. -/
def positional (ds : List Char) (e : Int) : List Char :=
  if e ≤ 0 then '0' :: '.' :: List.replicate (-e).toNat '0' ++ ds
  else if ds.length ≤ e.toNat then ds ++ List.replicate (e.toNat - ds.length) '0' ++ ['.', '0']
  else ds.take e.toNat ++ '.' :: ds.drop e.toNat

/-- The digits of `0.ds * 10 ^ e` with one of them before the point. -/
def scientific (ds : List Char) (e : Int) : List Char :=
  match ds with
  | [] => []
  | d :: ds =>
    let point := if ds = [] then [] else '.' :: ds
    d :: point ++ 'e' :: (toString (e - 1)).toList

def digitsText (d : Decimal) : List Char :=
  let ds := ((Nat.toDigits 10 d.digits).reverse.dropWhile (· = '0')).reverse
  let e := d.magnitude
  if -3 ≤ e ∧ e ≤ 16 then positional ds e else scientific ds e

def floatText (x : Float) : String :=
  if x.isNaN then "NaN"
  else
    let sign := if x.toBits.toNat < UInt64.size / 2 then [] else ['-']
    let body :=
      if x.isInf then "inf".toList
      else if x == 0 then "0.0".toList
      else digitsText (shortest x.abs)
    String.ofList (sign ++ body)

end Relational.Decimal
