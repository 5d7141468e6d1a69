import QueryKit.Decimal.Binary
import QueryKit.Text.Numeral

-- The fewest decimal digits that read back as a binary number. For 1, 2, ... digits the two
-- neighbours of the value on that decimal grid are tested against the interval of reals that
-- round to it; the first grid with a hit wins, of two hits the nearer.

namespace QueryKit.Decimal
open Text

inductive Tie where
  | up
  | even

-- The value num / den and the interval of its readings, over the same denominator; the ends
-- read back too when the significand is even.
structure Reading where
  num : Nat
  low : Nat
  high : Nat
  den : Nat
  closed : Bool

-- The interval ends half way to the neighbours, which stand at half the distance below a power
-- of two. A quarter of the last bit is the unit.
def Reading.of (f : Format) (m : Nat) (q : Int) : Reading :=
  let below := if m = twoTo f.fraction ∧ f.least < q then 1 else 2
  let (unit, den) := scaled 1 1 (q - 2)
  ⟨4 * m * unit, (4 * m - below) * unit, (4 * m + 2) * unit, den, m % 2 == 0⟩

def magnitude (num den : Nat) : Int :=
  if den ≤ num then (digits (num / den)).length
  else
    let k : Int := 1 - ((digits (den / num)).length : Int)
    if den = num * tenTo ((digits (den / num)).length - 1) then k + 1 else k

def Reading.holds (r : Reading) (candidate : Nat) (scale : Int) : Bool :=
  let c := candidate * tenTo scale.toNat * r.den
  let low := r.low * tenTo (-scale).toNat
  let high := r.high * tenTo (-scale).toNat
  if r.closed then low ≤ c && c ≤ high else low < c && c < high

def Reading.onGrid (tie : Tie) (r : Reading) (scale : Int) : Option Nat :=
  let num := r.num * tenTo (-scale).toNat
  let den := r.den * tenTo scale.toNat
  let d := num / den
  let down := r.holds d scale
  let up := r.holds (d + 1) scale
  if down && up then
    let twice := 2 * num
    let middle := (2 * d + 1) * den
    if twice < middle then some d
    else if middle < twice then some (d + 1)
    else match tie with
      | .up => some (d + 1)
      | .even => some (d + d % 2)
  else if down then some d
  else if up then some (d + 1)
  else none

def dropZeros (digits : Nat) (exponent : Int) : Nat → Nat × Int
  | 0 => (digits, exponent)
  | n + 1 =>
    if digits % 10 = 0 ∧ digits ≠ 0 then dropZeros (digits / 10) (exponent + 1) n
    else (digits, exponent)

-- Digits d and exponent e with d * 10^e standing for m * 2^q, m not zero; d ends in no zero.
-- Seventeen digits always suffice for the formats here.
def shortest (tie : Tie) (f : Format) (m : Nat) (q : Int) : Nat × Int :=
  let r := Reading.of f m q
  let k := magnitude r.num r.den
  let hit := (List.range 17).findSome? fun n =>
    let scale := k - (n + 1 : Nat)
    (r.onGrid tie scale).map fun d => (d, scale)
  match hit with
  | some (d, scale) => dropZeros d scale 18
  | none => (m, q)

end QueryKit.Decimal
