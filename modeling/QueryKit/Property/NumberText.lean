import QueryKit.Decimal.Reading
import QueryKit.Value.Basic

-- Numbers written as text: an integer in the narrowest type that holds it, else a finite floating-point number.

namespace QueryKit.NumberText
open Text Decimal

def finite? (cs : List Char) : Option Value :=
  match Binary64.read cs with
  | some x => if x.isFinite then some (.float64 x) else none
  | none => none

def read (text : String) : Option Value :=
  let cs := trim text.toList
  match readInt64 cs with
  | some n => some ((Value.ofInt? n.toInt).getD (.int64 n))
  | none => finite? cs

end QueryKit.NumberText

-- Stored points as text: two coordinates in parentheses, with blanks or commas between them.

namespace QueryKit.PointText
open Text Decimal

def isSeparator (c : Char) : Bool := c == ',' || isBlank c

def isCoordinate (c : Char) : Bool := !isSeparator c && c != '(' && c != ')'

-- The written coordinates. Blanks may stand at both inner edges; a comma in front of the first
-- coordinate or behind the second is refused.
def split (cs : List Char) : Option (List Char × List Char) :=
  match cs with
  | '(' :: r =>
    let r := r.dropWhile isBlank
    let x := r.takeWhile isCoordinate
    let between := r.dropWhile isCoordinate
    let r := between.dropWhile isSeparator
    let y := r.takeWhile isCoordinate
    if x ≠ [] ∧ (between.takeWhile isSeparator) ≠ [] ∧ y ≠ [] ∧
        (r.dropWhile isCoordinate).dropWhile isBlank = [')'] then some (x, y)
    else none
  | _ => none

def read (text : String) : Option (Binary64 × Binary64) :=
  match split (trim text.toList) with
  | some (x, y) =>
    match Binary64.read x, Binary64.read y with
    | some x, some y => some (x, y)
    | _, _ => none
  | none => none

end QueryKit.PointText
