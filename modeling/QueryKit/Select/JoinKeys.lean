import QueryKit.Comparator.Factories

-- The columns on which two tables are joined: one on each side, or lists taken in pairs.

namespace QueryKit

inductive JoinSide where
  | column (name : String)
  | compare (c : Comparator)

namespace JoinSide

def isBlank : JoinSide → Bool
  | .column name => name == ""
  | .compare _ => false

def isComparator : JoinSide → Bool
  | .column _ => false
  | .compare _ => true

end JoinSide

inductive JoinKeys where
  | single (side : JoinSide)
  | many (sides : List JoinSide)

namespace JoinKeys

def ofColumns (names : List String) : JoinKeys := .many (names.map .column)

def match? : JoinKeys → JoinKeys → Except JoinFault (List (JoinSide × JoinSide))
  | .single a, .single b => .ok [(a, b)]
  | .many as, .many bs =>
    if as.length = bs.length then .ok (as.zip bs) else .error (.unequal as.length bs.length)
  | _, _ => .error .mixed

def checkPairs (pairs : List (JoinSide × JoinSide)) : Except JoinFault (List (JoinSide × JoinSide)) :=
  if pairs.isEmpty then .error .empty
  else if pairs.any fun (a, b) => a.isBlank || b.isBlank then .error .blankColumn
  else if pairs.any fun (a, b) => a.isComparator && b.isComparator then .error .twoComparators
  else .ok pairs

def pair (own other : JoinKeys) : Except Fault (List (JoinSide × JoinSide)) :=
  ((match? own other).bind checkPairs).mapError .malformedJoin

end JoinKeys

end QueryKit
