import QueryKit.Select.Call
import QueryKit.Value.Json

-- The statement that a select query stands for, clause by clause.

namespace QueryKit
open Text

namespace Select

def columnOf (q : Select) (source : Source) (name : String) : Piece :=
  if q.isQualified then .name [source.label, name] else .name [name]

def withAlias (label : Option String) (sql : Sql) : Sql :=
  match label with
  | some label => sql ++ [.word " AS ", .name [label]]
  | none => sql

def argumentSql (q : Select) (source : Source) : Argument → Sql
  | .column name => [q.columnOf source name]
  | .value v => [.literal v]

def callSql (name : String) (arguments : Sql) : Sql := .word (name ++ "(") :: arguments ++ [.word ")"]

def itemSql? (q : Select) (source : Source) : SelectItem → Option Sql
  | .column name label => some (withAlias label [q.columnOf source name])
  | .expression sql label => some (withAlias label [.word "(", .raw sql, .word ")"])
  | .call function arguments label wrappers =>
    let inner := if arguments.isEmpty then [Piece.word "*"]
      else Sql.separated ", " (arguments.map (q.argumentSql source))
    some (withAlias label
      (wrappers.foldr (fun w sql => callSql w.name sql) (callSql function.name inner)))
  | .having _ => none

def distinctTexts (zone : Zone) (items : List Sql) : List Sql :=
  items.foldl (fun done item =>
    if done.any fun d => Sql.text zone d == Sql.text zone item then done else done ++ [item]) []

def expressions (q : Select) : List Sql :=
  q.sources.flatMap fun source => source.items.filterMap (q.itemSql? source)

def listSql (q : Select) : Sql :=
  match distinctTexts q.zone q.expressions with
  | [] => [.word "*"]
  | items => Sql.separated ", " items

def distinctOnSql (q : Select) : Sql :=
  match q.distinctOn with
  | none => []
  | some columns =>
    let label := if q.isQualified then q.sources.head?.map (·.label) else none
    .word " DISTINCT ON (" :: Sql.separated ", " (columns.map (Sql.column label)) ++ [.word ")"]

def operandColumn (label : String) (v : Value) : Sql := [.name [label, v.nameText]]

def joinComparison (left : List String) (c : Comparator) (label : String) : Sql :=
  match c.operand with
  | .raw template escapes => Template.comparison template escapes (Sql.path left)
  | .range lower upper =>
    c.op.compare [.name left] (.range (operandColumn label lower) (operandColumn label upper))
  | .value v | .expression v => c.op.compare [.name left] (.one (operandColumn label v))

def sideName : JoinSide → String
  | .column name => name
  | .compare c =>
    match c.operand with
    | .value v | .expression v => v.nameText
    | _ => ""

-- A comparator of the joined table compares the earlier table's column with its own; one of the
-- earlier table the other way round.
def joinSql (source : Source) (join : Join) : Sql :=
  match join.own, join.other with
  | .compare c, other => joinComparison [join.target, sideName other] c source.label
  | own, .compare c => joinComparison [source.label, sideName own] c join.target
  | .column own, .column other =>
    [.name [source.label, own], .word " = ", .name [join.target, other]]

def tableSql (aliased : Bool) (source : Source) : Sql :=
  .name [source.table] :: if aliased then [.word " ", .name [source.label]] else []

-- The joined tables. Every join but the last closes a parenthesis that stands in front of the first table.
def joinedSql (aliased : Bool) : List Source → Sql
  | [] => []
  | source :: r =>
    .word " JOIN " :: tableSql aliased source ++ .word " ON " ::
      Sql.separated " AND " (source.joins.map (joinSql source)) ++
      (if r.isEmpty then [] else [.word ")"]) ++ joinedSql aliased r

def fromSql (q : Select) : Sql :=
  match q.sources with
  | [] => [.word "FROM "]
  | first :: r =>
    .word ("FROM " ++ String.ofList (List.replicate (r.length - 1) '(')) ::
      tableSql q.isAliased first ++ joinedSql q.isAliased r

def whereSql? (q : Select) : Option Sql := Group.whereSql? q.isAliased q.groups

def groupByColumns (columns : List String) : List Sql :=
  columns.map fun column => [.name [(Direction.ofTerm column).1]]

def groupByOrder (columns : List String) : List Sql :=
  (columns.filterMap fun column =>
    match Direction.ofTerm column with
    | (name, .descending) => some [Piece.name [name], .word " DESC"]
    | (_, .ascending) => none).reverse

def orderTermSql (qualified : Bool) : OrderTerm → Sql
  | .column table name direction =>
    Sql.column (if qualified then table else none) name ++ [.word (" " ++ direction.keyword)]
  | .raw sql => sql

def havingColumns (q : Select) : List Sql :=
  (q.sources.flatMap (·.items)).filterMap fun item =>
    match item with
    | .having column => some [Piece.name [column]]
    | _ => none

def orderTerms (q : Select) : List Sql :=
  groupByOrder (q.groupBy.getD []) ++ q.order.map (orderTermSql q.isQualified)

def listClause (keyword separator : String) (parts : List Sql) : List Sql :=
  if parts.isEmpty then [] else [.word keyword :: Sql.separated separator parts]

def limitSql (q : Select) : List Sql :=
  match q.limit, q.offset with
  | some limit, some offset =>
    [[.word ("LIMIT " ++ natText limit.toNat ++ " OFFSET " ++ natText offset.toNat)]]
  | some limit, none => [[.word ("LIMIT " ++ natText limit.toNat)]]
  | none, some offset => [[.word ("OFFSET " ++ natText offset.toNat)]]
  | none, none => []

def groupByClause (q : Select) : List Sql :=
  match q.groupBy with
  | none => []
  | some columns => [.word "GROUP BY " :: Sql.separated ", " (groupByColumns columns)]

def clauses (q : Select) : List Sql :=
  [.word "SELECT" :: q.distinctOnSql ++ .word " " :: q.listSql, q.fromSql] ++ q.whereSql?.toList ++
    q.groupByClause ++ listClause "HAVING " " AND " q.havingColumns ++
    listClause "ORDER BY " ", " q.orderTerms ++ q.limitSql

def rowsSql (q : Select) : Sql := Sql.separated " " q.clauses

def aggregateSql (transform : Option Transform) : Sql :=
  let array := Piece.word "array_to_json(array_agg(t))"
  match transform with
  | none => [array]
  | some t =>
    let arguments := match t.arguments with
      | some j => [Piece.word ", ", .literal (.text j.compact)]
      | none => []
    .name [t.function] :: .word "(" :: array :: arguments ++ [.word ")"]

def statementSql (q : Select) : Sql :=
  match q.format with
  | .rows => q.rowsSql
  | .json =>
    .word "SELECT " :: aggregateSql q.transform ++ .word "::text AS json FROM (" :: q.rowsSql ++
      [.word ") t"]

def check (kind : StatementKind) (q : Select) : Except Fault Unit :=
  match q.misuse with
  | some fault => .error (.query fault)
  | none => if q.sources.isEmpty then .error (.query (.noTable kind)) else .ok ()

def flush (q : Select) : Select :=
  match q.pending.getLast? with
  | none => q
  | some function => addCall function [] none { q with pending := q.pending.dropLast }

-- The statement and the query after it: waiting functions are used up by a statement that can be
-- written, and only by that.
def build (q : Select) : Except Fault String × Select :=
  match q.check .select with
  | .error fault => (.error fault, q)
  | .ok () => (q.flush.statementSql.render q.zone, q.flush)

def countSql (q : Select) : Sql :=
  Sql.separated " " ([[.word "SELECT COUNT(*) AS ", .name ["c"]], q.fromSql] ++ q.whereSql?.toList)

def buildCount (q : Select) : Except Fault String := do
  q.check .count
  q.countSql.render q.zone

end Select

end QueryKit
