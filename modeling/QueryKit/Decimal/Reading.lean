import QueryKit.Decimal.Binary
import QueryKit.Text.Character
import QueryKit.Text.Numeral

-- Number text to binary floating point: an optional sign, digits with at most one point among
-- or beside them, an optional exponent; or a name of infinity or of no number, in any case.

namespace QueryKit.Decimal
open Text

structure Numeral where
  negative : Bool
  digits : Nat
  exponent : Int

inductive Spelling where
  | nan
  | infinite (negative : Bool)
  | numeral (n : Numeral)

def splitDigits (cs : List Char) : List Char × List Char :=
  (cs.takeWhile (fun c => (digitValue? c).isSome), cs.dropWhile (fun c => (digitValue? c).isSome))

def readExponent : List Char → Option Int
  | [] => some 0
  | c :: r => if c = 'e' ∨ c = 'E' then readInt r else none

def readNumeral (negative : Bool) (cs : List Char) : Option Numeral :=
  let (whole, rest) := splitDigits cs
  let (fraction, rest) := match rest with
    | '.' :: r => splitDigits r
    | r => ([], r)
  match readNat (whole ++ fraction), readExponent rest with
  | some n, some e => some ⟨negative, n, e - fraction.length⟩
  | _, _ => none

def unsignedSpelling (negative : Bool) (cs : List Char) : Option Spelling :=
  let word := String.ofList cs
  if sameLetters word "inf" || sameLetters word "infinity" then some (.infinite negative)
  else if sameLetters word "nan" then some .nan
  else (readNumeral negative cs).map .numeral

def readSpelling : List Char → Option Spelling
  | '-' :: r => unsignedSpelling true r
  | '+' :: r => unsignedSpelling false r
  | cs => unsignedSpelling false cs

-- The nearest magnitude. Exponents far outside of every format are cut off before the power of ten is formed.
def Format.ofNumeral (f : Format) (n : Numeral) : Nat :=
  if n.digits = 0 then 0
  else
    let size := n.exponent + (Text.digits n.digits).length
    if 400 < size then f.infinity
    else if size < -400 then 0
    else f.nearest (n.digits * tenTo n.exponent.toNat) (tenTo (-n.exponent).toNat)

def Format.ofSpelling (f : Format) : Spelling → Nat
  | .nan => f.quietNan
  | .infinite negative => f.withSign negative f.infinity
  | .numeral n => f.withSign n.negative (f.ofNumeral n)

def Binary64.read (cs : List Char) : Option Binary64 :=
  (readSpelling cs).map fun s => .ofBits (double.ofSpelling s)

def Binary32.read (cs : List Char) : Option Binary32 :=
  (readSpelling cs).map fun s => .ofBits (single.ofSpelling s)

end QueryKit.Decimal
