import QueryKit.Decimal.Shortest

-- How a number is laid out as text: by position or with an exponent, with or without a
-- fraction of its own when it is whole.

namespace QueryKit.Decimal
open Text

structure Layout where
  -- Decimal exponents written by position, from the first up to but not including the second;
  -- every exponent when absent.
  positional : Option (Int × Int)
  point : Bool
  plus : Bool
  tie : Tie

def plain : Layout := ⟨none, false, false, .up⟩

def marked : Layout := ⟨some (-4, 16), true, false, .up⟩

def json : Layout := ⟨some (-5, 16), true, true, .even⟩

def Layout.byPosition (l : Layout) (lead : Int) : Bool :=
  match l.positional with
  | none => true
  | some (low, high) => low ≤ lead && lead < high

def zeros (n : Nat) : List Char := List.replicate n '0'

def Layout.digitText (l : Layout) (ds : List Char) (lead : Int) : List Char :=
  if l.byPosition lead then
    if lead < 0 then '0' :: '.' :: zeros (-lead - 1).toNat ++ ds
    else
      let whole := lead.toNat + 1
      if ds.length ≤ whole then
        ds ++ zeros (whole - ds.length) ++ (if l.point then ['.', '0'] else [])
      else ds.take whole ++ '.' :: ds.drop whole
  else
    let first := ds.take 1
    let rest := ds.drop 1
    let sign := if lead < 0 then ['-'] else if l.plus then ['+'] else []
    first ++ (if rest.isEmpty then [] else '.' :: rest) ++ 'e' :: sign ++ digits lead.natAbs

def Layout.finiteText (l : Layout) (f : Format) (negative : Bool) (m : Nat) (q : Int) : List Char :=
  let body :=
    if m = 0 then if l.point then ['0', '.', '0'] else ['0']
    else
      let (d, e) := shortest l.tie f m q
      let ds := digits d
      l.digitText ds (e + ds.length - 1)
  if negative then '-' :: body else body

def Layout.text (l : Layout) (f : Format) : Number → String
  | .nan => "NaN"
  | .infinite negative => if negative then "-inf" else "inf"
  | .finite negative m q => String.ofList (l.finiteText f negative m q)

def Binary64.text (l : Layout) (x : Binary64) : String := l.text double x.number
def Binary32.text (l : Layout) (x : Binary32) : String := l.text single x.number

end QueryKit.Decimal
