import QueryKit.Columns
import QueryKit.Comparator.Factories

-- Condition trees: tests of columns, one per column and all of them to hold, and combinators over nested trees.

namespace QueryKit

inductive Combinator where
  | and
  | or
  | notAnd
  | notOr
  -- The same as `notAnd`.
  | not
  deriving DecidableEq, Repr

namespace Combinator

def keyword : Combinator → String
  | .and | .notAnd | .not => "AND"
  | .or | .notOr => "OR"

def isNegated : Combinator → Bool
  | .notAnd | .notOr | .not => true
  | .and | .or => false

def ofKey? (key : String) : Option Combinator :=
  if key = "and" then some .and
  else if key = "or" then some .or
  else if key = "not_and" then some .notAnd
  else if key = "not_or" then some .notOr
  else if key = "not" then some .not
  else none

end Combinator

inductive Test where
  | value (v : Value)
  | compare (c : Comparator)

inductive Conditions where
  | node (combinators : List (Combinator × List Conditions)) (columns : Columns Test)

namespace Conditions

def empty : Conditions := .node [] []

def combinators : Conditions → List (Combinator × List Conditions)
  | .node combinators _ => combinators

def columns : Conditions → Columns Test
  | .node _ columns => columns

def set (column : String) (test : Test) : Conditions → Conditions
  | .node combinators columns => .node combinators (Columns.set column test columns)

def eq (column : String) (v : Value) : Conditions → Conditions := set column (.value v)
def isNull (column : String) : Conditions → Conditions := set column (.value .null)
def compare (column : String) (c : Comparator) : Conditions → Conditions := set column (.compare c)

def combine (op : Combinator) (groups : List Conditions) : Conditions → Conditions
  | .node combinators columns => .node (combinators ++ [(op, groups)]) columns

def get? (column : String) (c : Conditions) : Option Test := Columns.get? column c.columns

def isEmpty (c : Conditions) : Bool := c.columns.isEmpty && c.combinators.isEmpty

def ofPairs (pairs : List (String × Test)) : Conditions := .node [] (Columns.ofPairs pairs)

end Conditions

end QueryKit
