import QueryKit.Proofs.SelectList

-- The text of a statement of rows, part by part: which clauses it prints, and the entries of those that list some.

namespace QueryKit

def printedList (opening separator closing : String) : Option (List String) → String
  | none => ""
  | some entries => opening ++ separator.intercalate entries ++ closing

def unlessEmpty (entries : List String) : Option (List String) := if entries = [] then none else some entries

structure Outline where
  distinctOn : Option (List String)
  selected : String
  base : String
  joined : List (String × List String)
  filter : Option String
  groupBy : Option (List String)
  having : Option (List String)
  orderBy : Option (List String)
  limit : Option UInt64
  offset : Option UInt64

namespace Outline

def joinedText : List (String × List String) → String
  | [] => ""
  | (table, conditions) :: r =>
    " JOIN " ++ table ++ printedList " ON " " AND " (if r.isEmpty then "" else ")") (some conditions) ++ joinedText r

def tablesText (o : Outline) : String :=
  "FROM " ++ String.ofList (List.replicate (o.joined.length - 1) '(') ++ o.base ++ joinedText o.joined

def countText (keyword : String) : Option UInt64 → String
  | none => ""
  | some count => keyword ++ Text.natText count.toNat

def text (o : Outline) : String :=
  "SELECT" ++ printedList " DISTINCT ON (" ", " ")" o.distinctOn ++ " " ++ o.selected ++ " " ++ o.tablesText ++
    (o.filter.elim "" fun conditions => " " ++ conditions) ++ printedList " GROUP BY " ", " "" o.groupBy ++
    printedList " HAVING " " AND " "" o.having ++ printedList " ORDER BY " ", " "" o.orderBy ++
    countText " LIMIT " o.limit ++ countText " OFFSET " o.offset

-- The lists that are printed, those of the joins among them.
def lists (o : Outline) : List (List String) :=
  o.distinctOn.toList ++ o.joined.map (·.2) ++ o.groupBy.toList ++ o.having.toList ++ o.orderBy.toList

end Outline

namespace Select

-- An entry of the order. A column is qualified when there are several tables and it was asked for of one of them.
def orderEntry (q : Select) : OrderTerm → String
  | .column table name direction =>
    Sql.path (columnPath (if q.isQualified then table else none) name) ++ " " ++ direction.keyword
  | .raw sql => sql.text q.zone

-- The grouping columns with a minus, the last one first, and behind them what the query was told to be ordered by.
def orderEntries (q : Select) : List String :=
  ((descendingNames (q.groupBy.getD [])).reverse.map fun name => Sql.path [name] ++ " DESC") ++ q.order.map q.orderEntry

def tableText (q : Select) (source : Source) : String := Sql.text q.zone (tableSql q.isAliased source)

def joinEntries (q : Select) (source : Source) : List String := source.joins.map fun join => Sql.text q.zone (joinSql source join)

def outline (q : Select) : Outline where
  distinctOn := q.distinctOn.map fun columns => columns.map fun column => Sql.path (columnPath q.distinctLabel column)
  selected := listText q.itemTexts
  base := q.sources.head?.elim "" q.tableText
  joined := q.sources.tail.map fun source => (q.tableText source, q.joinEntries source)
  filter := q.whereSql?.map (Sql.text q.zone)
  groupBy := q.groupBy.map fun columns => columns.map fun column => Sql.path [(Direction.ofTerm column).1]
  having := unlessEmpty (q.havingNames.map fun name => Sql.path [name])
  orderBy := unlessEmpty q.orderEntries
  limit := q.limit
  offset := q.offset

section
variable (q : Select) (zone : Zone)

theorem text_column (label : Option String) (name : String) :
    Sql.text zone (Sql.column label name) = Sql.path (columnPath label name) := by
  cases label <;> simp [Sql.column, columnPath, Sql.text_cons, Sql.text_nil, Piece.text]

theorem text_clauses (clauses : List Sql) :
    Sql.text zone (clauses.flatMap fun clause => .word " " :: clause) =
      String.join (clauses.map fun clause => " " ++ Sql.text zone clause) := by
  induction clauses with
  | nil => rfl
  | cons clause r ih =>
    rw [List.flatMap_cons, Sql.text_append, ih, Sql.text_cons, List.map_cons, String.join_cons]
    rfl

theorem text_listClause (keyword separator : String) (parts : List Sql) :
    String.join ((listClause keyword separator parts).map fun clause => " " ++ Sql.text zone clause) =
      printedList (" " ++ keyword) separator "" (unlessEmpty (parts.map (Sql.text zone))) := by
  cases parts with
  | nil => rfl
  | cons part r =>
    simp [listClause, unlessEmpty, printedList, Sql.text_cons, Sql.text_separated, Piece.text, String.append_assoc]

theorem text_orderTerm (term : OrderTerm) : Sql.text q.zone (orderTermSql q.isQualified term) = q.orderEntry term := by
  cases term with
  | raw sql => rfl
  | column table name direction =>
    simp [orderTermSql, orderEntry, Sql.text_append, text_column, Sql.text_cons, Sql.text_nil, Piece.text,
      String.append_assoc]

theorem text_orderTerms : q.orderTerms.map (Sql.text q.zone) = q.orderEntries := by
  have terms : q.order.map (fun term => Sql.text q.zone (orderTermSql q.isQualified term)) = q.order.map q.orderEntry :=
    List.map_congr_left fun term _ => q.text_orderTerm term
  simp [orderTerms, orderEntries, groupByOrder_eq, Function.comp_def, Sql.text_cons, Sql.text_nil, Piece.text, ← terms]

theorem text_groupBy : String.join (q.groupByClause.map fun clause => " " ++ Sql.text q.zone clause) =
    printedList " GROUP BY " ", " "" q.outline.groupBy := by
  unfold groupByClause outline
  cases q.groupBy with
  | none => rfl
  | some columns =>
    simp [printedList, groupByColumns, Sql.text_cons, Sql.text_separated, Sql.text_nil, Piece.text, Function.comp_def,
      ← String.append_assoc]

theorem text_limits : String.join (q.limitSql.map fun clause => " " ++ Sql.text q.zone clause) =
    Outline.countText " LIMIT " q.limit ++ Outline.countText " OFFSET " q.offset := by
  unfold limitSql
  cases q.limit <;> cases q.offset <;>
    simp [Outline.countText, Sql.text_cons, Sql.text_nil, Piece.text, ← String.append_assoc]

theorem text_tail : Sql.text q.zone q.tailSql = printedList " GROUP BY " ", " "" q.outline.groupBy ++
    printedList " HAVING " " AND " "" q.outline.having ++ printedList " ORDER BY " ", " "" q.outline.orderBy ++
    Outline.countText " LIMIT " q.outline.limit ++ Outline.countText " OFFSET " q.outline.offset := by
  have having : q.havingColumns.map (Sql.text q.zone) = q.havingNames.map fun name => Sql.path [name] := by
    simp [havingColumns_eq, Function.comp_def, Sql.text_cons, Sql.text_nil, Piece.text]
  rw [tailSql, text_clauses]
  simp only [List.map_append, String.join_append, text_groupBy, text_listClause, text_limits, having, text_orderTerms]
  simp only [outline, String.append_assoc]
  rfl

theorem text_head : Sql.text q.zone q.headSql =
    "SELECT" ++ printedList " DISTINCT ON (" ", " ")" q.outline.distinctOn ++ " " ++ q.outline.selected := by
  have distinct : Sql.text q.zone q.distinctOnSql = printedList " DISTINCT ON (" ", " ")" q.outline.distinctOn := by
    unfold distinctOnSql outline
    cases q.distinctOn with
    | none => rfl
    | some columns =>
      simp [printedList, distinctLabel, Sql.text_cons, Sql.text_append, Sql.text_separated, Sql.text_nil, Piece.text,
        Function.comp_def, text_column, String.append_assoc]
  have selected : q.outline.selected = listText q.itemTexts := rfl
  rw [headSql, List.cons_append, Sql.text_cons, Sql.text_append, Sql.text_cons, text_list, distinct, selected]
  simp [Piece.text, String.append_assoc]

theorem text_joined (sources : List Source) : Sql.text q.zone (joinedSql q.isAliased sources) =
    Outline.joinedText (sources.map fun source => (q.tableText source, q.joinEntries source)) := by
  induction sources with
  | nil => rfl
  | cons source r ih =>
    rw [joinedSql, List.map_cons, Outline.joinedText, ← ih]
    cases r <;>
      simp [printedList, tableText, joinEntries, Sql.text_cons, Sql.text_append, Sql.text_separated, Piece.text,
        Function.comp_def, String.append_assoc]

theorem text_scope {q : Select} (filled : q.sources ≠ []) : Sql.text q.zone q.scopeSql =
    q.outline.tablesText ++ q.outline.filter.elim "" fun conditions => " " ++ conditions := by
  have tables : Sql.text q.zone q.fromSql = q.outline.tablesText := by
    obtain ⟨first, r, found⟩ := List.exists_cons_of_ne_nil filled
    simp [fromSql, Outline.tablesText, outline, found, Sql.text_cons, Sql.text_append, text_joined, tableText, Piece.text,
      String.append_assoc]
  rw [scopeSql, separated_behind, Sql.text_append, tables, text_clauses, outline]
  cases q.whereSql? <;> simp

end

theorem text_outline {q : Select} (filled : q.sources ≠ []) :
    Sql.text q.zone q.headSql ++ " " ++ Sql.text q.zone q.scopeSql ++ Sql.text q.zone q.tailSql = q.outline.text := by
  rw [text_head, text_scope filled, text_tail]
  unfold Outline.text
  generalize q.outline = o
  simp only [String.append_assoc]

theorem build_outline {q next : Select} {text : String} (built : q.build = (.ok text, next)) :
    text = next.wrapped q.format next.outline.text := by
  obtain ⟨checked, same, _⟩ := build_parts built
  obtain ⟨spelled, _⟩ := build_scope built
  have filled : next.sources ≠ [] := by
    rw [same]
    exact flush_ne_nil (check_filled checked)
  rw [spelled, text_outline filled]

end Select

end QueryKit
