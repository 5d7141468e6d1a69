import QueryKit.Conditions
import QueryKit.Sql.Comparison
import QueryKit.Sql.Template

-- The WHERE clause: groups of conditions, each of them plain or a correlated EXISTS, all to hold.

namespace QueryKit

inductive Link where
  | single (inner outer : String)
  | parallel (inner outer : List String)
  deriving DecidableEq, Repr

namespace Link

def check : Link → Except Fault Unit
  | .single inner outer =>
    if inner = "" ∨ outer = "" then .error (.malformedJoin .blankLink) else .ok ()
  | .parallel inner outer =>
    if inner.length ≠ outer.length then .error (.malformedJoin (.unequalLink inner.length outer.length))
    else if inner = [] then .error (.malformedJoin .emptyLink)
    else .ok ()

def checked (inner outer : List String) : Except Fault Link := do
  check (.parallel inner outer)
  pure (.parallel inner outer)

def pairs : Link → List (String × String)
  | .single inner outer => [(inner, outer)]
  | .parallel inner outer => inner.zip outer

end Link

structure Subquery where
  table : String
  outerAlias : String
  link : Link

structure Group where
  table : Option String
  conditions : Conditions
  subquery : Option Subquery

def Group.plain (table : Option String) (conditions : Conditions) : Group := ⟨table, conditions, none⟩

namespace Comparator

def sql (column : List String) (c : Comparator) : Sql :=
  match c.operand with
  | .raw template escapes => Template.comparison template escapes (Sql.path column)
  | .range lower upper => c.op.compare [.name column] (.range [.literal lower] [.literal upper])
  | .value v | .expression v =>
    if c.op.isReversed then c.op.compare [.literal v] (.one [.name column])
    else c.op.compare [.name column] (.one [.literal v])

end Comparator

def Test.sql (column : List String) : Test → Sql
  | .value .null => [.name column, .word " IS NULL"]
  | .value (.array []) => [.word "FALSE"]
  | .value (.array items) => [.name column, .word " = ANY(", .literal (.array items), .word ")"]
  | .value v => [.name column, .word " = ", .literal v]
  | .compare c => c.sql column

def Combinator.sql (op : Combinator) (nested : List Sql) : Sql :=
  .word (if op.isNegated then "NOT ((" else "((") ::
    Sql.separated (") " ++ op.keyword ++ " (") nested ++ [.word "))"]

def columnPath (table : Option String) (column : String) : List String :=
  match table with
  | some table => [table, column]
  | none => [column]

def conjunction? (parts : List Sql) : Option Sql :=
  if parts.isEmpty then none else some (Sql.separated " AND " parts)

namespace Conditions

mutual
def sql? (table : Option String) : Conditions → Option Sql
  | .node combinators columns =>
    conjunction? (combinatorParts table combinators ++
      columns.map fun (column, test) => test.sql (columnPath table column))
def combinatorParts (table : Option String) : List (Combinator × List Conditions) → List Sql
  | [] => []
  | (op, groups) :: r =>
    match nestedParts table groups with
    | [] => combinatorParts table r
    | nested => op.sql nested :: combinatorParts table r
def nestedParts (table : Option String) : List Conditions → List Sql
  | [] => []
  | c :: r =>
    match sql? table c with
    | some part => part :: nestedParts table r
    | none => nestedParts table r
end

end Conditions

def Subquery.sql (q : Subquery) (conditions : Conditions) : Sql :=
  let links := q.link.pairs.map fun (inner, outer) =>
    [Piece.name [inner], .word " = ", .name [q.outerAlias, outer]]
  let rest := match conditions.sql? none with
    | some nested => .word " AND " :: nested
    | none => []
  .word "EXISTS (SELECT * FROM " :: .name [q.table] :: .word " WHERE " ::
    Sql.separated " AND " links ++ rest ++ [.word ")"]

namespace Group

def sql? (qualified : Bool) (g : Group) : Option Sql :=
  match g.subquery with
  | some q => some (q.sql g.conditions)
  | none => g.conditions.sql? (if qualified then g.table else none)

def whereSql? (qualified : Bool) (groups : List Group) : Option Sql :=
  match groups.filterMap (sql? qualified) with
  | [] => none
  | [part] => some (.word "WHERE " :: part)
  | parts => some (.word "WHERE (" :: Sql.separated ") AND (" parts ++ [.word ")"])

end Group

end QueryKit
