import QueryKit.Proofs.CountScope
import QueryKit.Proofs.JoinTrees
import QueryKit.Proofs.Qualifiers

-- Searches and the aliases in them. An alias that was looked up for a join, a filter or an order stays the
-- alias of a table until the statement is written, and the FROM clause prints it.

namespace QueryKit
open Text Lexer

section
variable {aliases : List String} {own : Bool}

namespace Select

theorem bound_operand {label : String} (known : label ∈ aliases) (v : Value) :
    Sql.Bound aliases own (operandColumn label v) :=
  bound_column (.qualified known v.nameText)

theorem bound_joinComparison {path : List String} (reaches : Reaches aliases path) (c : Comparator) {label : String}
    (known : label ∈ aliases) (plain : own = false → (Test.compare c).isRaw = false) :
    Sql.Bound aliases own (joinComparison path c label) := by
  have column : Sql.Bound aliases own [.name path] := bound_column reaches
  obtain ⟨op, operand, fits⟩ := c
  cases operand with
  | raw template escapes => exact bound_template plain rfl template escapes reaches
  | range lower upper => exact bound_range op column (bound_operand known lower) (bound_operand known upper)
  | value v | expression v => exact bound_one op column (bound_operand known v)

theorem bound_join {source : Source} {join : Join} (labeled : source.label ∈ aliases) (target : join.target ∈ aliases)
    (plain : own = false → join.own.isRaw = false ∧ join.other.isRaw = false) :
    Sql.Bound aliases own (joinSql source join) := by
  obtain ⟨side, label, other⟩ := join
  cases side with
  | compare c => exact bound_joinComparison (.qualified target _) c labeled fun free => (plain free).1
  | column name =>
    cases other with
    | compare c => exact bound_joinComparison (.qualified labeled name) c target fun free => (plain free).2
    | column against => exact .name (.qualified labeled name) (.word (by decide) (bound_column (.qualified target against)))

theorem bound_table (aliased : Bool) (source : Source) : Sql.Bound aliases own (tableSql aliased source) := by
  cases aliased with
  | false => exact bound_column (.plain source.table)
  | true => exact .name (.plain source.table) (.word (by decide) (bound_column (.plain source.label)))

theorem bound_joined (aliased : Bool) {sources : List Source} (labels : ∀ source ∈ sources, source.label ∈ aliases)
    (targets : ∀ source ∈ sources, ∀ join ∈ source.joins, join.target ∈ aliases)
    (plain : own = false → ∀ source ∈ sources, ∀ join ∈ source.joins, join.own.isRaw = false ∧ join.other.isRaw = false) :
    Sql.Bound aliases own (joinedSql aliased sources) := by
  induction sources with
  | nil => exact .nil
  | cons source r ih =>
    obtain ⟨label, labels⟩ := List.forall_mem_cons.mp labels
    obtain ⟨mine, targets⟩ := List.forall_mem_cons.mp targets
    have on : ∀ part ∈ source.joins.map (joinSql source), Sql.Bound aliases own part := by
      intro part member
      obtain ⟨join, inside, rfl⟩ := List.mem_map.mp member
      exact bound_join label (mine join inside) fun free => plain free source List.mem_cons_self join inside
    have closed : Sql.Bound aliases own (if r.isEmpty then [] else [.word ")"]) := by
      split
      · exact .nil
      · exact .word (by decide) .nil
    have conditions := Sql.bound_separated (w := " AND ") (by decide) on
    have behind := ih labels targets fun free source member => plain free source (List.mem_cons_of_mem _ member)
    have table : Sql.Bound aliases own (tableSql aliased source) := bound_table aliased source
    have whole := table.append (.word (w := " ON ") (by decide) ((conditions.append closed).append behind))
    rw [joinedSql]
    simpa using Sql.Bound.word (w := " JOIN ") (by decide) whole

theorem bound_from {q : Select} (labels : q.isAliased = true → ∀ source ∈ q.sources, source.label ∈ aliases)
    (targets : ∀ source ∈ q.sources, ∀ join ∈ source.joins, ∃ target ∈ q.sources, target.label = join.target)
    (plain : own = false → ∀ source ∈ q.sources, ∀ join ∈ source.joins, join.own.isRaw = false ∧ join.other.isRaw = false) :
    Sql.Bound aliases own q.fromSql := by
  unfold fromSql
  cases placed : q.sources with
  | nil => exact .word (by decide) .nil
  | cons first r =>
    have opening : '.' ∉ ("FROM " ++ String.ofList (List.replicate (r.length - 1) '(')).toList := by
      simp [List.mem_replicate]
    have joined : Sql.Bound aliases own (joinedSql q.isAliased r) := by
      cases r with
      | nil => exact .nil
      | cons next r =>
        have aliased : q.isAliased = true := by simp [isAliased, placed]
        have known := labels aliased
        rw [placed] at known targets plain
        apply bound_joined
        · exact fun source member => known source (List.mem_cons_of_mem _ member)
        · intro source member join inside
          obtain ⟨target, there, same⟩ := targets source (List.mem_cons_of_mem _ member) join inside
          exact same ▸ known target there
        · exact fun free source member => plain free source (List.mem_cons_of_mem _ member)
    exact .word opening ((bound_table q.isAliased first).append joined)

def labels (q : Select) : List String := q.sources.map (·.label)

def printed (q : Select) : List String := if q.isAliased then q.labels else []

theorem label_printed {q : Select} (aliased : q.isAliased = true) {source : Source} (member : source ∈ q.sources) :
    source.label ∈ q.printed := by
  rw [printed, if_pos aliased]
  exact List.mem_map_of_mem member

theorem isAliased_of_isQualified {q : Select} (qualified : q.isQualified = true) : q.isAliased = true := by
  have several : decide (1 < q.sources.length) = true := qualified
  rw [isAliased, several]
  rfl

-- A query of plain columns whose filters and order are about tables that it has, by their aliases of now.
structure Resolved (q : Select) : Prop where
  items : ∀ source ∈ q.sources, ∀ item ∈ source.items, ∃ name, item = .column name none
  tables : ∀ g ∈ q.groups, ∀ label, g.table = some label → label ∈ q.labels
  outer : ∀ g ∈ q.groups, ∀ s, g.subquery = some s → s.outerAlias ∈ q.labels ∧ q.correlated = true
  order : ∀ term ∈ q.order, ∃ table name direction, term = .column table name direction ∧
    ∀ label, table = some label → label ∈ q.labels
  calls : q.pending = []

section
variable {q : Select}

theorem bound_columnOf {source : Source} (member : source ∈ q.sources) (name : String) :
    Sql.Bound q.printed own [q.columnOf source name] := by
  unfold columnOf
  split
  · rename_i qualified
    exact bound_column (.qualified (label_printed (isAliased_of_isQualified qualified) member) name)
  · exact bound_column (.plain name)

theorem bound_list (resolved : q.Resolved) : Sql.Bound q.printed own q.listSql := by
  have each : ∀ sql ∈ distinctTexts q.zone q.expressions, Sql.Bound q.printed own sql := by
    apply forall_mem_distinctTexts
    intro sql member
    obtain ⟨source, known, inside⟩ := List.mem_flatMap.mp member
    obtain ⟨item, present, written⟩ := List.mem_filterMap.mp inside
    obtain ⟨name, rfl⟩ := resolved.items source known item present
    cases written
    exact bound_columnOf known name
  unfold listSql
  split
  · exact .word (by decide) .nil
  · exact Sql.bound_separated (by decide) each

theorem bound_labelled {label : Option String} (known : ∀ l, label = some l → l ∈ aliases) (name : String) :
    Sql.Bound aliases own (Sql.column label name) := by
  cases label with
  | none => exact bound_column (.plain name)
  | some label => exact bound_column (.qualified (known label rfl) name)

theorem bound_distinctOn (q : Select) : Sql.Bound q.printed own q.distinctOnSql := by
  unfold distinctOnSql
  split
  · exact .nil
  · rename_i columns _
    refine .word (by decide) ((Sql.bound_separated (by decide) ?_).append (.word (by decide) .nil))
    intro part member
    obtain ⟨name, _, rfl⟩ := List.mem_map.mp member
    apply bound_labelled
    intro label first
    split at first
    · rename_i qualified
      obtain ⟨source, head, rfl⟩ := Option.map_eq_some_iff.mp first
      exact label_printed (isAliased_of_isQualified qualified) (List.mem_of_mem_head? head)
    · cases first

theorem bound_orderTerms (resolved : q.Resolved) : ∀ part ∈ q.orderTerms, Sql.Bound q.printed own part := by
  rw [orderTerms, List.forall_mem_append]
  constructor
  · intro part member
    obtain ⟨column, _, written⟩ := List.mem_filterMap.mp (List.mem_reverse.mp member)
    split at written
    · cases written
      exact .name (.plain _) (.word (by decide) .nil)
    · cases written
  · intro part member
    obtain ⟨term, known, rfl⟩ := List.mem_map.mp member
    obtain ⟨table, name, direction, rfl, found⟩ := resolved.order term known
    have column : Sql.Bound q.printed own (Sql.column (if q.isQualified then table else none) name) := by
      apply bound_labelled
      intro label given
      split at given
      · rename_i qualified
        rw [printed, if_pos (isAliased_of_isQualified qualified)]
        exact found label given
      · cases given
    refine column.append (.word ?_ .nil)
    cases direction <;> decide

theorem bound_listClause {keyword separator : String} (opening : '.' ∉ keyword.toList) (between : '.' ∉ separator.toList)
    {parts : List Sql} (each : ∀ part ∈ parts, Sql.Bound aliases own part) :
    ∀ clause ∈ listClause keyword separator parts, Sql.Bound aliases own clause := by
  unfold listClause
  split
  · simp
  · exact List.forall_mem_singleton.mpr (.word opening (Sql.bound_separated between each))

theorem bound_groupBy (q : Select) : ∀ clause ∈ q.groupByClause, Sql.Bound aliases own clause := by
  unfold groupByClause
  split
  · simp
  · refine List.forall_mem_singleton.mpr (.word (by decide) (Sql.bound_separated (by decide) ?_))
    intro part member
    obtain ⟨column, _, rfl⟩ := List.mem_map.mp member
    exact bound_column (.plain _)

theorem bound_having (q : Select) : ∀ part ∈ q.havingColumns, Sql.Bound aliases own part := by
  intro part member
  obtain ⟨item, _, written⟩ := List.mem_filterMap.mp member
  split at written
  · cases written
    exact bound_column (.plain _)
  · cases written

theorem free_natText (n : Nat) : '.' ∉ (natText n).toList := by
  intro member
  have digit := isDigit_of_mem_digits n '.' (by simpa [natText] using member)
  cases digit

theorem bound_limit (q : Select) : ∀ clause ∈ q.limitSql, Sql.Bound aliases own clause := by
  have free := free_natText
  unfold limitSql
  split
  all_goals
    simp only [List.forall_mem_singleton, List.not_mem_nil, false_imp_iff, implies_true]
    try
      refine .word ?_ .nil
      simp [free]

theorem bound_clauses (resolved : q.Resolved)
    (targets : ∀ source ∈ q.sources, ∀ join ∈ source.joins, ∃ target ∈ q.sources, target.label = join.target)
    (plain : own = false → q.RawFree) : ∀ clause ∈ q.clauses, Sql.Bound q.printed own clause := by
  have selected : Sql.Bound q.printed own (.word "SELECT" :: q.distinctOnSql ++ .word " " :: q.listSql) :=
    .word (by decide) ((bound_distinctOn q).append (.word (by decide) (bound_list resolved)))
  have source : Sql.Bound q.printed own q.fromSql := by
    apply bound_from _ targets
    · exact fun free => (plain free).joins
    · exact fun aliased source member => label_printed aliased member
  have filters : ∀ clause ∈ q.whereSql?.toList, Sql.Bound q.printed own clause := by
    intro clause member
    refine bound_where ?_ ?_ (fun free => (plain free).groups) (Option.mem_toList.mp member)
    · intro aliased g known _ label given
      rw [printed, if_pos aliased]
      exact resolved.tables g known label given
    · intro g known s given
      obtain ⟨found, correlated⟩ := resolved.outer g known s given
      have aliased : q.isAliased = true := by simp [isAliased, correlated]
      rw [printed, if_pos aliased]
      exact found
  have having : ∀ clause ∈ listClause "HAVING " " AND " q.havingColumns, Sql.Bound q.printed own clause :=
    bound_listClause (by decide) (by decide) (bound_having q)
  have ordered : ∀ clause ∈ listClause "ORDER BY " ", " q.orderTerms, Sql.Bound q.printed own clause :=
    bound_listClause (by decide) (by decide) (bound_orderTerms resolved)
  unfold clauses
  simp only [List.forall_mem_append, List.forall_mem_cons]
  exact ⟨⟨⟨⟨⟨⟨selected, source, by simp⟩, filters⟩, bound_groupBy q⟩, having⟩, ordered⟩, bound_limit q⟩

theorem bound_aggregate (transform : Option Transform) : Sql.Bound aliases own (aggregateSql transform) := by
  have array : Sql.Bound aliases own [.word "array_to_json(array_agg(t))"] := .word (by decide) .nil
  unfold aggregateSql
  split
  · exact array
  · rename_i t
    refine .name (.plain t.function) (.word (by decide) (.word (by decide) (Sql.Bound.append ?_ (.word (by decide) .nil))))
    split
    · exact .word (by decide) (bound_literal _)
    · exact .nil

theorem bound_statement (resolved : q.Resolved)
    (targets : ∀ source ∈ q.sources, ∀ join ∈ source.joins, ∃ target ∈ q.sources, target.label = join.target)
    (plain : own = false → q.RawFree) : Sql.Bound q.printed own q.statementSql := by
  have rows : Sql.Bound q.printed own q.rowsSql := Sql.bound_separated (by decide) (bound_clauses resolved targets plain)
  unfold statementSql
  split
  · exact rows
  · have closed := rows.append (.word (w := ") t") (by decide) .nil)
    have aggregate : Sql.Bound q.printed own (aggregateSql q.transform) := bound_aggregate q.transform
    have whole := aggregate.append (.word (w := "::text AS json FROM (") (by decide) closed)
    simpa using Sql.Bound.word (w := "SELECT ") (by decide) whole

end

end Select

end

-- A blank on its own: only between a table and its alias is there one in a FROM clause.
def Piece.isGap : Piece → Bool
  | .word w => w == " "
  | _ => false

def Sql.aliases : Sql → List String
  | [] => []
  | p :: r => (if p.isGap then match r.head? with
      | some (.name path) => path
      | _ => [] else []) ++ Sql.aliases r

def Sql.gapless (sql : Sql) : Bool := sql.all (!·.isGap)

namespace Sql

theorem gapless_append {a b : Sql} : gapless (a ++ b) = (gapless a && gapless b) := List.all_append

theorem aliases_append {a : Sql} (solid : gapless a = true) (b : Sql) : aliases (a ++ b) = aliases b := by
  induction a with
  | nil => rfl
  | cons p r ih =>
    simp only [gapless, List.all_cons, Bool.and_eq_true, Bool.not_eq_true'] at solid
    rw [List.cons_append, aliases, solid.1, ih solid.2]
    rfl

theorem gapless_separated {w : String} (other : w ≠ " ") {parts : List Sql} (each : ∀ part ∈ parts, gapless part = true) :
    gapless (separated w parts) = true := by
  induction parts with
  | nil => rfl
  | cons part r ih =>
    obtain ⟨here, later⟩ := List.forall_mem_cons.mp each
    cases r with
    | nil =>
      rw [separated_singleton]
      exact here
    | cons next r =>
      have word : gapless (.word w :: separated w (next :: r)) = gapless (separated w (next :: r)) := by
        simp [gapless, Piece.isGap, other]
      rw [separated_cons_cons, gapless_append, here, word, ih later]
      rfl

end Sql

namespace Select

theorem gapless_one (op : Operator) (left right : List String) :
    Sql.gapless (op.compare [.name left] (.one [.name right])) = true := by
  cases op <;> rfl

theorem gapless_range (op : Operator) (left lower upper : List String) :
    Sql.gapless (op.compare [.name left] (.range [.name lower] [.name upper])) = true := by
  cases op <;> rfl

theorem gapless_template (template : String) (escapes : List Value) (column : String) :
    (Template.comparison template escapes column).gapless = true := by
  unfold Template.comparison
  generalize Template.ofTags _ = slots
  induction slots generalizing escapes with
  | nil => rfl
  | cons slot r ih =>
    cases slot <;> cases escapes <;> exact ih _

theorem gapless_join (source : Source) (join : Join) : (joinSql source join).gapless = true := by
  have compared (path : List String) (c : Comparator) (label : String) :
      (joinComparison path c label).gapless = true := by
    obtain ⟨op, operand, fits⟩ := c
    cases operand with
    | raw template escapes => exact gapless_template template escapes _
    | range lower upper => exact gapless_range op path _ _
    | value v | expression v => exact gapless_one op path _
  obtain ⟨side, label, other⟩ := join
  cases side with
  | compare c => exact compared _ c _
  | column name =>
    cases other with
    | compare c => exact compared _ c _
    | column against => rfl

theorem aliases_table (aliased : Bool) (source : Source) (r : Sql) :
    Sql.aliases (tableSql aliased source ++ r) = (if aliased then [source.label] else []) ++ Sql.aliases r := by
  cases aliased <;> simp [tableSql, Sql.aliases, Piece.isGap]

theorem aliases_joined (aliased : Bool) (sources : List Source) :
    Sql.aliases (joinedSql aliased sources) = if aliased then sources.map (·.label) else [] := by
  induction sources with
  | nil => cases aliased <;> rfl
  | cons source r ih =>
    have conditions : (Sql.separated " AND " (source.joins.map (joinSql source))).gapless = true := by
      apply Sql.gapless_separated (by decide)
      intro part member
      obtain ⟨join, _, rfl⟩ := List.mem_map.mp member
      exact gapless_join source join
    have closed : Sql.gapless (if r.isEmpty then [] else [.word ")"]) = true := by split <;> rfl
    have joining : Sql.gapless [.word " JOIN "] = true := rfl
    have on : Sql.gapless [.word " ON "] = true := rfl
    have spelled : joinedSql aliased (source :: r) = [.word " JOIN "] ++ (tableSql aliased source ++
        ([.word " ON "] ++ (Sql.separated " AND " (source.joins.map (joinSql source)) ++
          ((if r.isEmpty then [] else [.word ")"]) ++ joinedSql aliased r)))) := by
      simp [joinedSql]
    rw [spelled, Sql.aliases_append joining, aliases_table, Sql.aliases_append on, Sql.aliases_append conditions,
      Sql.aliases_append closed, ih]
    cases aliased <;> rfl

theorem aliases_from (q : Select) : Sql.aliases q.fromSql = q.printed := by
  unfold fromSql printed labels
  cases q.sources with
  | nil => simp [Sql.aliases, Piece.isGap]
  | cons first r =>
    have opening : Sql.gapless [.word ("FROM " ++ String.ofList (List.replicate (r.length - 1) '('))] = true := by
      have longer : "FROM " ++ String.ofList (List.replicate (r.length - 1) '(') ≠ " " := by
        intro same
        have chars := congrArg String.toList same
        rw [String.toList_append] at chars
        cases (List.cons.inj chars).1
      simp [Sql.gapless, Piece.isGap, longer]
    have front := Sql.aliases_append opening (tableSql q.isAliased first ++ joinedSql q.isAliased r)
    simp only
    rw [List.singleton_append] at front
    rw [List.cons_append, front, aliases_table, aliases_joined]
    cases q.isAliased <;> rfl

end Select

end QueryKit
