import QueryKit.Select.Statement

-- Finding and counting: what to read of a table, told as a record, and the steps of the select
-- query that it stands for.

namespace QueryKit
open Text

structure JoinSpec where
  table : String
  keys : JoinKeys
  target : String
  targetKeys : JoinKeys
  label : Option String := none
  conditions : Option Conditions := none

structure Merge where
  table : String
  keys : JoinKeys
  targetKeys : JoinKeys
  columns : List String
  subject : Option String := none
  filter : Option (String × Conditions) := none

structure Existing where
  table : String
  link : Link
  conditions : Conditions

structure Related where
  joins : List JoinSpec := []
  merge : Option Merge := none
  existing : List Existing := []

structure OrderSpec where
  column : String
  direction : Direction
  table : Option String := none

structure Shape where
  offset : Option UInt64 := none
  limit : Option UInt64 := none
  order : List OrderSpec := []
  distinctOn : Option (List String) := none
  format : Format := .rows
  transform : Option Transform := none

namespace Select
open Select (Call)

def joinCalls (position : Nat) (j : JoinSpec) : List Call :=
  let label := j.label.getD ("j" ++ natText position)
  [.join j.table j.keys j.target j.targetKeys, .tableAlias label] ++
    match j.conditions with
    | some conditions => [.filter (some label) conditions]
    | none => []

def joinsFrom (position : Nat) : List JoinSpec → List Call
  | [] => []
  | j :: r => joinCalls position j ++ joinsFrom (position + 1) r

def mergeCall (m : Merge) : Call := .joinLast m.table m.keys m.targetKeys

-- A filter of a merge without conditions asks nothing, not even that its table is there.
def mergeFilter (m : Merge) : List Call :=
  match m.filter with
  | some (table, conditions) => if conditions.isEmpty then [] else [.filter (some table) conditions]
  | none => []

-- The main conditions: about the subject of a merge, else about the base table where there are
-- others, else unqualified.
def filterCalls (table : String) (r : Related) (conditions : Conditions) : List Call :=
  match r.merge with
  | some m => mergeFilter m ++ [.filter m.subject conditions]
  | none => [.filter (if r.joins.isEmpty then none else some table) conditions]

def existingCalls (table : String) (r : Related) : List Call :=
  r.existing.map fun e => .filterExists e.table table e.link e.conditions

def orderCall (o : OrderSpec) : Call :=
  match o.table with
  | some table => .orderOn table o.column o.direction
  | none => .order o.column o.direction

def shapeCalls (s : Shape) : List Call :=
  (match s.offset with
    | some n => if n = 0 then [] else [Call.offset n]
    | none => []) ++
  (match s.limit with
    | some n => [Call.limit n]
    | none => []) ++
  s.order.map orderCall ++
  (match s.distinctOn with
    | some columns => [Call.distinctOn columns]
    | none => [])

def outputCalls (s : Shape) : List Call :=
  Call.format s.format ::
    match s.transform with
    | some t => [Call.transform t.function t.arguments]
    | none => []

def findCalls (columns : List String) (table : String) (conditions : Conditions) (r : Related)
    (s : Shape) : List Call :=
  [Call.table table, .columns columns] ++ joinsFrom 1 r.joins ++ shapeCalls s ++
    (match r.merge with
      | some m => [mergeCall m, .columns m.columns]
      | none => []) ++
    filterCalls table r conditions ++ existingCalls table r ++ outputCalls s

def countCalls (table : String) (conditions : Conditions) (r : Related) : List Call :=
  Call.table table :: joinsFrom 1 r.joins ++ (r.merge.map mergeCall).toList ++
    filterCalls table r conditions ++ existingCalls table r

end Select

def findSql (zone : Zone) (columns : List String) (table : String) (conditions : Conditions)
    (r : Related) (s : Shape) : Except Fault String := do
  let q ← (Select.new zone).applyAll (Select.findCalls columns table conditions r s)
  q.build.1

def countSql (zone : Zone) (table : String) (conditions : Conditions) (r : Related) :
    Except Fault String := do
  let q ← (Select.new zone).applyAll (Select.countCalls table conditions r)
  q.buildCount

structure Association where
  table : String
  keys : List String
  linkTable : String
  linkKeys : List String
  parentColumn : String

def parentAlias : String := "$p"

namespace Select

def associatedCalls (a : Association) (columns : List String) (parents : List Value) : List Call :=
  [.table a.table, .columns columns, .joinLast a.linkTable (.ofColumns a.linkKeys) (.ofColumns a.keys),
    .columns [a.parentColumn], .named parentAlias,
    .filter (some a.linkTable) (Conditions.empty.eq a.parentColumn (.array parents))]

end Select

def associatedSql (zone : Zone) (a : Association) (columns : List String) (parents : List Value) :
    Except Fault String := do
  let q ← (Select.new zone).applyAll (Select.associatedCalls a columns parents)
  q.build.1

end QueryKit
