import QueryKit.Decimal.Binary
import QueryKit.Sorted

-- JSON values. Members of an object are kept in ascending order of their keys, one per key, so
-- that equal objects are equal lists.

namespace QueryKit
open Decimal

inductive Json where
  | null
  | bool (b : Bool)
  | integer (n : Int)
  | real (x : Binary64)
  | text (s : String)
  | array (items : List Json)
  | object (members : List (String × Json))
  deriving Repr, BEq

namespace Json

def ofMembers (members : List (String × Json)) : Json := .object (Sorted.ofPairs members)

-- A number that JSON can hold; infinities and NaN have no JSON form but null.
def ofBinary (x : Binary64) : Json := if x.isFinite then .real x else .null

def binary? : Json → Option Binary64
  | .integer n => some (.ofInt n)
  | .real x => some x
  | _ => none

def integerIn? (low high : Int) : Json → Option Int
  | .integer n => if low ≤ n ∧ n ≤ high then some n else none
  | _ => none

def int64? (j : Json) : Option Int64 :=
  (j.integerIn? (-9223372036854775808) 9223372036854775807).map Int64.ofInt

def uint8? (j : Json) : Option UInt8 := (j.integerIn? 0 255).map fun n => UInt8.ofNat n.toNat

def string? : Json → Option String
  | .text s => some s
  | _ => none

def bool? : Json → Option Bool
  | .bool b => some b
  | _ => none

def optional? {α : Type} (read : Json → Option α) : Json → Option (Option α)
  | .null => some none
  | j => (read j).map some

def list? {α : Type} (read : Json → Option α) : Json → Option (List α)
  | .array items => items.mapM read
  | _ => none

end Json

end QueryKit
