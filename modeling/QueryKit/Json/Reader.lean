import QueryKit.Json.Basic
import QueryKit.Json.Tree
import QueryKit.Text.Utf8

-- Documents to values. Code units have to form characters, numbers have to be in range and
-- nesting has a limit; of members with one key the last stays.

namespace QueryKit.Json
open Text Decimal

def isHighSurrogate (n : Nat) : Bool := 0xD800 ≤ n && n < 0xDC00
def isLowSurrogate (n : Nat) : Bool := 0xDC00 ≤ n && n < 0xE000

def lettersText? : List Letter → Option (List Char)
  | [] => some []
  | .char c :: r => (lettersText? r).map (c :: ·)
  | .unit n :: r =>
    if isHighSurrogate n then
      match r with
      | .unit m :: r =>
        if isLowSurrogate m then
          (lettersText? r).map (Char.ofNat (0x10000 + (n - 0xD800) * 0x400 + (m - 0xDC00)) :: ·)
        else none
      | _ => none
    else if isLowSurrogate n then none
    else (lettersText? r).map (Char.ofNat n :: ·)

def text? (s : List Letter) : Option String := (lettersText? s).map String.ofList

def largestSignificand : Nat := 18446744073709551615
def largestExponent : Nat := 2147483647
def largestPower : Nat := 308

def digitNat (c : Char) : Nat := (digitValue? c).getD 0

def absorb (significand : Nat) : List Char → Nat × List Char
  | [] => (significand, [])
  | c :: r =>
    let next := significand * 10 + digitNat c
    if next ≤ largestSignificand then absorb next r else (significand, c :: r)

def powerOfTen (n : Nat) : Binary64 := .ofRatio false (tenTo n) 1

-- The significand times a power of ten, in floating point: one multiplication or division, each rounded, and a first
-- division by the largest power where the exponent is below its range. Too large a result is refused.
def scaleByTen (f : Binary64) (exponent : Int) : Option Binary64 :=
  if exponent.natAbs ≤ largestPower then
    if 0 ≤ exponent then
      let product := f.mul (powerOfTen exponent.toNat)
      if product.isFinite then some product else none
    else some (f.div (powerOfTen exponent.natAbs))
  else if f.isZero then some f
  else if 0 ≤ exponent then none
  else scaleByTen (f.div (powerOfTen largestPower)) (exponent + largestPower)
termination_by exponent.natAbs
decreasing_by simp only [largestPower] at *; omega

def withSign (negative : Bool) (x : Binary64) : Binary64 := if negative then x.neg else x

-- The value of a number. Without fraction and exponent it stays an integer in the signed or
-- unsigned 64-bit range; digits that the significand cannot hold count as zeros.
def Literal.json? (l : Literal) : Option Json :=
  let (whole, skipped) := absorb 0 l.whole
  if l.fraction = [] ∧ l.exponent = none ∧ skipped = [] then
    if !l.negative then some (.integer whole)
    else if 0 < whole ∧ whole ≤ 9223372036854775808 then some (.integer (-(whole : Int)))
    else some (.real (.ofRatio true whole 1))
  else
    let (significand, left) := absorb whole l.fraction
    let scale : Int := (skipped.length : Int) - ((l.fraction.length - left.length : Nat) : Int)
    let f := Binary64.ofRatio false significand 1
    match l.exponent with
    | none => (scaleByTen f scale).map fun x => .real (withSign l.negative x)
    | some (negativeExponent, ds) =>
      let e := (readDigits 0 ds).getD 0
      if largestExponent < e then
        if significand ≠ 0 ∧ !negativeExponent then none
        else some (.real (.zero l.negative))
      else
        let exponent := if negativeExponent then scale - e else scale + e
        (scaleByTen f exponent).map fun x => .real (withSign l.negative x)

def nestingLimit : Nat := 127

mutual
def Tree.json? (depth : Nat) : Tree → Option Json
  | .null => some .null
  | .bool b => some (.bool b)
  | .number l => l.json?
  | .text s => (text? s).map .text
  | .array items => if depth = 0 then none else (Tree.items? (depth - 1) items).map .array
  | .object members => if depth = 0 then none else (Tree.members? (depth - 1) members).map .ofMembers
def Tree.items? (depth : Nat) : List Tree → Option (List Json)
  | [] => some []
  | t :: r =>
    match Tree.json? depth t, Tree.items? depth r with
    | some j, some js => some (j :: js)
    | _, _ => none
def Tree.members? (depth : Nat) : List (List Letter × Tree) → Option (List (String × Json))
  | [] => some []
  | (k, t) :: r =>
    match text? k, Tree.json? depth t, Tree.members? depth r with
    | some key, some j, some js => some ((key, j) :: js)
    | _, _, _ => none
end

def read (s : String) : Option Json := (Tree.read s.toList).bind (Tree.json? nestingLimit)

def readOctets (bytes : List UInt8) : Option Json := (ofOctets? bytes).bind read

end QueryKit.Json
