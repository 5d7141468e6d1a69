import QueryKit.Driver.Find
import QueryKit.Proofs.JoinTrees

-- Rows of an association: which column the statement gives as the key of the parent, and which one its filter is about.

namespace QueryKit
open Lexer Text

namespace Lexer

def commaParts (part : List Token) : List Token → List (List Token)
  | [] => [part]
  | t :: r => if t = .mark "," then part :: commaParts [] r else commaParts (part ++ [t]) r

def readColumn : List Token → Option (Reference × Option String)
  | [.name table, point, .name column] => if point = .mark "." then some (⟨table, column⟩, none) else none
  | [.name table, point, .name column, naming, .name label] =>
    if point = .mark "." ∧ naming = .word "as" then some (⟨table, column⟩, some label) else none
  | _ => none

-- A statement that selects columns of joined tables under a condition.
structure Search where
  columns : List (Reference × Option String)
  tables : Tables
  filter : Formula

def readSearch (text : String) : Option Search :=
  match (lex text).map (cut 0) with
  | some ([], [(first, list), (second, joins), (third, condition)]) =>
    if first = .word "select" ∧ second = .word "from" ∧ third = .word "where" then do
      let columns ← (commaParts [] list).mapM readColumn
      let tables ← (nest readEnclosed [] [] joins).bind readTables
      let filter ← (nest readInside [] [] condition).bind readCondition
      some ⟨columns, tables, filter⟩
    else none
  | _ => none

theorem commaParts_append (ts : List Token) (free : ∀ t ∈ ts, t ≠ .mark ",") (part r : List Token) :
    commaParts part (ts ++ r) = commaParts (part ++ ts) r := by
  induction ts generalizing part with
  | nil => simp
  | cons t ts ih =>
    obtain ⟨here, later⟩ := List.forall_mem_cons.mp free
    rw [List.cons_append, commaParts, if_neg here, ih later, List.append_assoc, List.singleton_append]

theorem commaParts_listTokens (parts : List (List Token)) (filled : parts ≠ [])
    (free : ∀ part ∈ parts, ∀ t ∈ part, t ≠ .mark ",") : commaParts [] (listTokens parts) = parts := by
  unfold listTokens
  induction parts with
  | nil => exact absurd rfl filled
  | cons part r ih =>
    obtain ⟨here, later⟩ := List.forall_mem_cons.mp free
    cases r with
    | nil =>
      have alone := commaParts_append part here [] []
      simpa [List.intercalate_singleton, commaParts] using alone
    | cons next r =>
      have rest := ih (List.cons_ne_nil _ _) later
      rw [List.intercalate_cons_cons, List.append_assoc, commaParts_append part here, List.nil_append,
        List.singleton_append, commaParts, if_pos rfl, rest]

def exportTokens (column : Reference × Option String) : List Token :=
  column.1.tokens ++ column.2.elim [] fun label => [.word "as", .name label]

theorem columns_read {columns : List (Reference × Option String)} (filled : columns ≠ []) :
    (commaParts [] (listTokens (columns.map exportTokens))).mapM readColumn = some columns := by
  have free : ∀ part ∈ columns.map exportTokens, ∀ t ∈ part, t ≠ .mark "," := by
    refine List.forall_mem_map.mpr fun (reference, label) _ => ?_
    cases label <;> simp [exportTokens, Reference.tokens]
  have each : ∀ part ∈ columns.map fun column => (exportTokens column, column), readColumn part.1 = some part.2 := by
    refine List.forall_mem_map.mpr fun (reference, label) _ => ?_
    cases label <;> rfl
  have read := mapM_of_each _ each
  rw [commaParts_listTokens _ (by simpa using filled) free]
  simpa [Function.comp_def] using read

end Lexer

namespace Select

def rootSource (a : Association) (columns : List String) : Source :=
  ⟨a.table, "t1", [], columns.map fun name => .column name none⟩

def linkSource (a : Association) (pairs : List (JoinSide × JoinSide)) : Source :=
  ⟨a.linkTable, "t2", joinsTo "t1" pairs, [.column a.parentColumn (some parentAlias)]⟩

-- The alias behind the name of the link table: the table that comes first has it if both have one name.
def linkAlias (a : Association) : String := if a.table = a.linkTable then "t1" else "t2"

def associatedQuery (zone : Zone) (a : Association) (columns : List String) (parents : List Value)
    (pairs : List (JoinSide × JoinSide)) : Select :=
  { new zone with
    sources := [rootSource a columns, linkSource a pairs]
    groups := [.plain (some (linkAlias a)) (Conditions.empty.eq a.parentColumn (.array parents))] }

theorem applyAll_associated {zone : Zone} {a : Association} {columns : List String} {parents : List Value} {q : Select}
    (applied : (new zone).applyAll (associatedCalls a columns parents) = .ok q) :
    ∃ pairs, (JoinKeys.ofColumns a.linkKeys).pair (.ofColumns a.keys) = .ok pairs ∧
      q = associatedQuery zone a columns parents pairs := by
  have one : "t" ++ natText 1 = "t1" := by decide +kernel
  have two : "t" ++ natText 2 = "t2" := by decide +kernel
  have selected : addItems (columns.map fun name => .column name none) ((new zone).addTable a.table) =
      { new zone with sources := [rootSource a columns] } := by
    cases columns <;> simp [addTable, addItems, addSource, new, mapLast, rootSource, one]
  have keyed (pairs : List (JoinSide × JoinSide)) : nameLast parentAlias (addItems [.column a.parentColumn none]
      (addSource a.linkTable (joinsTo "t1" pairs) { new zone with sources := [rootSource a columns] })) =
      { new zone with sources := [rootSource a columns, linkSource a pairs] } := by
    simp [nameLast, addItems, addSource, mapLast, linkSource, SelectItem.rename, two]
  obtain ⟨_, started, applied⟩ := ok_of_bind applied
  cases started
  obtain ⟨_, listed, applied⟩ := ok_of_bind applied
  cases listed
  rw [selected] at applied
  obtain ⟨_, joined, applied⟩ := ok_of_bind applied
  obtain ⟨pairs, paired, joined⟩ := ok_of_bind joined
  cases joined
  obtain ⟨_, added, applied⟩ := ok_of_bind applied
  cases added
  obtain ⟨_, given, applied⟩ := ok_of_bind applied
  cases given
  obtain ⟨_, filtered, applied⟩ := ok_of_bind applied
  cases applied
  have filtered : addFilter (some a.linkTable) (Conditions.empty.eq a.parentColumn (.array parents))
      { new zone with sources := [rootSource a columns, linkSource a pairs] } = .ok q := keyed pairs ▸ filtered
  obtain ⟨label, found, filtered⟩ := ok_of_bind filtered
  cases filtered
  refine ⟨pairs, paired, ?_⟩
  have named : label = linkAlias a := by
    by_cases same : a.table = a.linkTable
    · simpa [resolve, aliasOf?, rootSource, linkSource, linkAlias, same] using found.symm
    · simpa [resolve, aliasOf?, rootSource, linkSource, linkAlias, same] using found.symm
  rw [named]
  rfl

theorem linkSource_joins {a : Association} {pairs : List (JoinSide × JoinSide)}
    (paired : (JoinKeys.ofColumns a.linkKeys).pair (.ofColumns a.keys) = .ok pairs) :
    (linkSource a pairs).joins ≠ [] ∧
      ∀ join ∈ (linkSource a pairs).joins, join.own.isRaw = false ∧ join.other.isRaw = false := by
  obtain ⟨filled, _⟩ := JoinKeys.pair_facts paired
  refine ⟨by simpa [linkSource, joinsTo] using filled, fun join member => ?_⟩
  obtain ⟨p, inside, rfl⟩ := List.mem_map.mp member
  rw [JoinKeys.pair_columns paired] at inside
  obtain ⟨names, _, rfl⟩ := List.mem_map.mp inside
  exact ⟨rfl, rfl⟩

def linkComparisons (a : Association) : List Comparison :=
  (a.linkKeys.zip a.keys).map fun keys => ⟨.eq, ⟨"t2", keys.1⟩, [⟨"t1", keys.2⟩]⟩

theorem linkSource_comparisons {a : Association} {pairs : List (JoinSide × JoinSide)}
    (paired : (JoinKeys.ofColumns a.linkKeys).pair (.ofColumns a.keys) = .ok pairs) :
    (linkSource a pairs).joins.map (Join.comparison (linkSource a pairs)) = linkComparisons a := by
  have columns := JoinKeys.pair_columns paired
  simp [linkSource, joinsTo, columns, linkComparisons, Join.comparison, Function.comp_def]

section
variable (zone : Zone) (a : Association) (columns : List String) (parents : List Value)
  (pairs : List (JoinSide × JoinSide))

theorem rawFree_associated (paired : (JoinKeys.ofColumns a.linkKeys).pair (.ofColumns a.keys) = .ok pairs) :
    (associatedQuery zone a columns parents pairs).RawFree := by
  obtain ⟨_, known⟩ := linkSource_joins paired
  refine ⟨?_, ?_, List.forall_mem_singleton.mpr rfl, by simp [associatedQuery, new]⟩
  · simp [associatedQuery, rootSource, linkSource]
  · exact List.forall_mem_cons.mpr ⟨by simp [rootSource], List.forall_mem_singleton.mpr known⟩

theorem linked_associated : (associatedQuery zone a columns parents pairs).Linked :=
  List.forall_mem_singleton.mpr fun s found => by cases found

def keySql (column : String) : Sql := [.name ["t2", column], .word " AS ", .name [parentAlias]]

theorem expressions_associated : (associatedQuery zone a columns parents pairs).expressions =
    (columns.map fun name => [Piece.name ["t1", name]]) ++ [keySql a.parentColumn] := by
  have own (source : Source) : (columns.map fun name => SelectItem.column name none).filterMap
      ((associatedQuery zone a columns parents pairs).itemSql? source) =
        columns.map fun name => [Piece.name [source.label, name]] := by
    rw [List.filterMap_map]
    exact congrFun List.filterMap_eq_map columns
  unfold expressions
  rw [associatedQuery, List.flatMap_cons, List.flatMap_singleton]
  exact congrArg (· ++ _) (own (rootSource a columns))

theorem exists_map {α β : Type} {f : α → β} (bs : List β) (each : ∀ b ∈ bs, ∃ a, b = f a) :
    ∃ as : List α, bs = as.map f := by
  induction bs with
  | nil => exact ⟨[], rfl⟩
  | cons b r ih =>
    obtain ⟨⟨first, rfl⟩, later⟩ := List.forall_mem_cons.mp each
    obtain ⟨rest, rfl⟩ := ih later
    exact ⟨first :: rest, rfl⟩

theorem distinctTexts_concat {items : List Sql} {item : Sql} (apart : ∀ d ∈ items, d.text zone ≠ item.text zone) :
    distinctTexts zone (items ++ [item]) = distinctTexts zone items ++ [item] := by
  have fresh : ∀ d ∈ distinctTexts zone items, d.text zone ≠ item.text zone := forall_mem_distinctTexts items apart
  have absent : (distinctTexts zone items).any (fun d => d.text zone == item.text zone) = false := by
    simpa using fresh
  rw [distinctTexts_behind, absent]
  rfl

theorem listSql_of_ne_nil {q : Select} (filled : distinctTexts q.zone q.expressions ≠ []) :
    q.listSql = Sql.separated ", " (distinctTexts q.zone q.expressions) := by
  unfold listSql
  split
  case h_1 unlisted => exact absurd unlisted filled
  case h_2 => rfl

theorem text_apart (name parent : String) :
    Sql.text zone [.name ["t1", name]] ≠ Sql.text zone (keySql parent) := by
  have naming : lex " AS " = some [.word "as"] := rfl
  have column : Body zone [.name ["t1", name]] := body_column (some "t1") name
  have linked : Body zone [.name ["t2", parent]] := body_column (some "t2") parent
  have exported : Body zone (keySql parent) := (body_withAlias (some parentAlias) linked (begins_name _ _ _)).1
  intro same
  have lexed := Sql.lex_text column.tight
  rw [same, Sql.lex_text exported.tight] at lexed
  simp [keySql, pathTokens] at lexed

theorem distinct_associated : ∃ names : List String,
    distinctTexts zone (associatedQuery zone a columns parents pairs).expressions =
      (names.map fun name => [.name ["t1", name]]) ++ [keySql a.parentColumn] := by
  have plain : ∀ item ∈ columns.map fun name => [Piece.name ["t1", name]], ∃ name, item = [.name ["t1", name]] := by
    refine List.forall_mem_map.mpr fun name _ => ?_
    exact ⟨name, rfl⟩
  have apart : ∀ item ∈ columns.map fun name => [Piece.name ["t1", name]],
      Sql.text zone item ≠ Sql.text zone (keySql a.parentColumn) :=
    List.forall_mem_map.mpr fun name _ => text_apart zone name a.parentColumn
  have kept : ∀ item ∈ distinctTexts zone (columns.map fun name => [Piece.name ["t1", name]]),
      ∃ name, item = [.name ["t1", name]] := forall_mem_distinctTexts _ plain
  obtain ⟨names, spelled⟩ := exists_map _ kept
  refine ⟨names, ?_⟩
  rw [expressions_associated, distinctTexts_concat zone apart, spelled]

-- Columns of the first table, and behind them the key of the parent under its name.
def keyedColumns (names : List String) (parent : String) : List (Reference × Option String) :=
  (names.map fun name => (⟨"t1", name⟩, none)) ++ [(⟨"t2", parent⟩, some parentAlias)]

theorem list_associated : ∃ names, (associatedQuery zone a columns parents pairs).listSql.tokens zone =
    listTokens ((keyedColumns names a.parentColumn).map exportTokens) := by
  have naming : lex " AS " = some [.word "as"] := rfl
  have label : pathTokens [parentAlias] = [.name parentAlias] := rfl
  obtain ⟨names, distinct⟩ := distinct_associated zone a columns parents pairs
  have filled : distinctTexts zone (associatedQuery zone a columns parents pairs).expressions ≠ [] := by
    rw [distinct]
    exact List.append_ne_nil_of_right_ne_nil _ (List.cons_ne_nil _ _)
  have written : (associatedQuery zone a columns parents pairs).listSql =
      Sql.separated ", " (distinctTexts zone (associatedQuery zone a columns parents pairs).expressions) :=
    listSql_of_ne_nil filled
  refine ⟨names, ?_⟩
  rw [written, distinct, Sql.tokens_comma]
  simp [keySql, keyedColumns, exportTokens, Piece.tokens_word zone naming, label, tokens_reference, Function.comp_def]

theorem tables_associated (paired : (JoinKeys.ofColumns a.linkKeys).pair (.ofColumns a.keys) = .ok pairs) :
    (nest readEnclosed [] [] ((associatedQuery zone a columns parents pairs).fromTokens zone)).bind readTables =
      some (.join (.table a.table (some "t1")) (.table a.linkTable (some "t2")) (linkComparisons a)) := by
  obtain ⟨joined, known⟩ := linkSource_joins paired
  obtain ⟨items, nests, read⟩ := joins_read zone true [linkSource a pairs] (List.forall_mem_singleton.mpr joined)
    (List.forall_mem_singleton.mpr known) (nests_table true (rootSource a columns))
  have tokens : Nests readEnclosed ((associatedQuery zone a columns parents pairs).fromTokens zone) items := nests
  rw [nest_of_nests tokens, ← linkSource_comparisons paired]
  exact read

def amongTokens (zone : Zone) (r : Reference) (keys : List Value) : List Token :=
  r.tokens ++ [.operator "=", .word "any", .mark "(", .text (Sql.arrayLiteral zone keys), .mark ")"]

def keyTokens (zone : Zone) (r : Reference) (keys : List Value) : List Token :=
  if keys.isEmpty then [.word "false"] else amongTokens zone r keys

theorem filter_associated : ∃ clause, (associatedQuery zone a columns parents pairs).whereSql? = some clause ∧
    (clause.tokens zone).tail = keyTokens zone ⟨linkAlias a, a.parentColumn⟩ parents := by
  have opened : lex "WHERE " = some [.word "where"] := rfl
  have never : lex "FALSE" = some [.word "false"] := rfl
  have among : lex " = ANY(" = some [.operator "=", .word "any", .mark "("] := rfl
  have closed : lex ")" = some [.mark ")"] := rfl
  cases parents with
  | nil =>
    refine ⟨[.word "WHERE ", .word "FALSE"], rfl, ?_⟩
    simp [keyTokens, Piece.tokens_word zone opened, Piece.tokens_word zone never]
  | cons v vs =>
    refine ⟨[.word "WHERE ", .name [linkAlias a, a.parentColumn], .word " = ANY(", .literal (.array (v :: vs)), .word ")"],
      rfl, ?_⟩
    simp [keyTokens, amongTokens, Piece.tokens_word zone opened, Piece.tokens_word zone among, Piece.tokens_word zone closed,
      tokens_reference, literalTokens]

theorem keyTokens_read (zone : Zone) (r : Reference) (keys : List Value) :
    (nest readInside [] [] (keyTokens zone r keys)).bind readCondition = some (.atom (keyTokens zone r keys)) := by
  cases keys with
  | nil => rfl
  | cons v vs => rfl

theorem clauseTokens_associated : (associatedQuery zone a columns parents pairs).clauseTokens zone =
    [(.word "select", (associatedQuery zone a columns parents pairs).listSql.tokens zone),
      (.word "from", (associatedQuery zone a columns parents pairs).fromTokens zone),
      (.word "where", keyTokens zone ⟨linkAlias a, a.parentColumn⟩ parents)] := by
  obtain ⟨clause, filtered, tokens⟩ : ∃ clause, (associatedQuery zone a columns parents pairs).whereSql? = some clause ∧
      (clause.tokens zone).tail = keyTokens zone ⟨linkAlias a, a.parentColumn⟩ parents :=
    filter_associated zone a columns parents pairs
  have having : (associatedQuery zone a columns parents pairs).havingNames = [] := by
    simp [havingNames, associatedQuery, rootSource, linkSource]
  rw [← tokens]
  unfold clauseTokens
  rw [having, filtered]
  rfl

theorem search_associated (paired : (JoinKeys.ofColumns a.linkKeys).pair (.ofColumns a.keys) = .ok pairs) :
    ∃ names, readSearch ((associatedQuery zone a columns parents pairs).rowsSql.text zone) =
      some ⟨keyedColumns names a.parentColumn,
        .join (.table a.table (some "t1")) (.table a.linkTable (some "t2")) (linkComparisons a),
        .atom (keyTokens zone ⟨linkAlias a, a.parentColumn⟩ parents)⟩ := by
  have free := rawFree_associated zone a columns parents pairs paired
  have linked := linked_associated zone a columns parents pairs
  obtain ⟨_, _, split⟩ : Sql.Tight zone _ ∧ _ := rows_split free linked (List.cons_ne_nil _ _)
  obtain ⟨names, listed⟩ := list_associated zone a columns parents pairs
  have joined := tables_associated zone a columns parents pairs paired
  have selected : keyedColumns names a.parentColumn ≠ [] := List.append_ne_nil_of_right_ne_nil _ (List.cons_ne_nil _ _)
  refine ⟨names, ?_⟩
  unfold readSearch
  rw [split, clauseTokens_associated, listed]
  simp [columns_read selected, joined, keyTokens_read]

end

theorem associatedSql_text {zone : Zone} {a : Association} {columns : List String} {parents : List Value}
    {text : String} (written : associatedSql zone a columns parents = .ok text) :
    ∃ pairs, (JoinKeys.ofColumns a.linkKeys).pair (.ofColumns a.keys) = .ok pairs ∧
      text = (associatedQuery zone a columns parents pairs).rowsSql.text zone := by
  obtain ⟨q, applied, written⟩ := ok_of_bind written
  obtain ⟨pairs, paired, rfl⟩ := applyAll_associated applied
  have built : (associatedQuery zone a columns parents pairs).build =
      (.ok text, (associatedQuery zone a columns parents pairs).build.2) := Prod.ext written rfl
  obtain ⟨_, _, rendered⟩ := build_parts built
  exact ⟨pairs, paired, Sql.text_of_render rendered⟩

-- How the server judges a row of the joined tables: FALSE never holds, and a column is found among keys only if
-- the row has one of them there. A NULL is not found among any.
structure Judged (zone : Zone) (keys : List Value) (row : Reference → Value) (σ : Truth) : Prop where
  never : σ [.word "false"] = false
  among : ∀ r, σ (amongTokens zone r keys) = true → row r ∈ keys

theorem Judged.keyed {zone : Zone} {keys : List Value} {row : Reference → Value} {σ : Truth}
    (judged : Judged zone keys row σ) {r : Reference} (passes : σ (keyTokens zone r keys) = true) : row r ∈ keys := by
  cases keys with
  | nil =>
    rw [keyTokens, List.isEmpty_nil, if_pos rfl, judged.never] at passes
    cases passes
  | cons v vs => exact judged.among r passes

end Select

-- The statement for an association gives the column of the link table under the name for keys of parents, and no
-- other column gets a name. Its filter is about that column as long as the link table is another table: every row
-- that passes has the key of one of the parents there, and none passes when there are no parents. A table that
-- links to itself is filtered by the same column of the other row.
theorem associated_rows (zone : Zone) (a : Association) (columns : List String) (parents : List Value)
    {text : String} (written : associatedSql zone a columns parents = .ok text) :
    ∃ (search : Search) (names : List String), readSearch text = some search ∧
      search.tables = .join (.table a.table (some "t1")) (.table a.linkTable (some "t2")) (Select.linkComparisons a) ∧
      search.columns = (names.map fun name => (⟨"t1", name⟩, none)) ++ [(⟨"t2", a.parentColumn⟩, some parentAlias)] ∧
      search.filter = .atom (Select.keyTokens zone
        ⟨if a.table = a.linkTable then "t1" else "t2", a.parentColumn⟩ parents) ∧
      (a.table ≠ a.linkTable → ∀ rows row σ, Select.Judged zone parents row σ → search.filter.eval rows σ = true →
        row ⟨"t2", a.parentColumn⟩ ∈ parents) := by
  obtain ⟨pairs, paired, rfl⟩ := Select.associatedSql_text written
  obtain ⟨names, read⟩ := Select.search_associated zone a columns parents pairs paired
  refine ⟨_, names, read, rfl, rfl, rfl, ?_⟩
  intro apart rows row σ judged passes
  have linked : Select.linkAlias a = "t2" := if_neg apart
  rw [linked] at passes
  exact judged.keyed passes

def rowAt (r : Reference) (key other : Value) (s : Reference) : Value := if s = r then key else other

def judgeAt (zone : Zone) (r : Reference) (keys : List Value) : Truth := fun ts =>
  ts == Select.amongTokens zone r keys

theorem judgeAt_judged (zone : Zone) (r : Reference) {keys : List Value} {key : Value} (member : key ∈ keys)
    (other : Value) : Select.Judged zone keys (rowAt r key other) (judgeAt zone r keys) := by
  obtain ⟨table, column⟩ := r
  refine ⟨by simp [judgeAt, Select.amongTokens, Reference.tokens], fun s passes => ?_⟩
  have equal : Select.amongTokens zone s keys = Select.amongTokens zone ⟨table, column⟩ keys := eq_of_beq passes
  simp only [Select.amongTokens, Reference.tokens, List.cons_append, List.cons.injEq, Token.name.injEq] at equal
  have same : s = ⟨table, column⟩ := congrArg₂ Reference.mk equal.1 equal.2.2.1
  rw [rowAt, if_pos same]
  exact member

def petKeys : List Value := [.int32 1, .int32 2]

def personPets : Association := ⟨"pet", ["id"], "person_pets", ["pets_id"], "person_id"⟩

def personPetsText : String :=
  "SELECT \"t1\".\"name\", \"t2\".\"person_id\" AS \"$p\" FROM \"pet\" \"t1\" JOIN \"person_pets\" \"t2\" " ++
    "ON \"t2\".\"pets_id\" = \"t1\".\"id\" WHERE \"t2\".\"person_id\" = ANY('\x7b1,2\x7d')"

theorem personPets_carry : ∃ search, readSearch personPetsText = some search ∧
    search.filter.eval (fun _ _ => []) (judgeAt .utc ⟨"t2", "person_id"⟩ petKeys) = true ∧
    rowAt ⟨"t2", "person_id"⟩ (.int32 2) .null ⟨"t2", "person_id"⟩ ∈ petKeys := by
  have spelled : (associatedSql .utc personPets ["name"] petKeys).toOption = some personPetsText := by
    decide +kernel
  have written := Select.ok_of_toOption spelled
  obtain ⟨search, _, read, _, _, filter, keyed⟩ := associated_rows .utc personPets ["name"] petKeys written
  have member : Value.int32 2 ∈ petKeys := List.mem_cons_of_mem _ List.mem_cons_self
  have judged : Select.Judged .utc petKeys (rowAt ⟨"t2", "person_id"⟩ (.int32 2) .null) (judgeAt .utc _ petKeys) :=
    judgeAt_judged .utc ⟨"t2", "person_id"⟩ member .null
  have apart : personPets.table ≠ personPets.linkTable := by decide
  have passes : search.filter.eval (fun _ _ => []) (judgeAt .utc ⟨"t2", "person_id"⟩ petKeys) = true := by
    rw [filter]
    exact beq_self_eq_true _
  exact ⟨search, read, passes, keyed apart _ _ _ judged passes⟩

def nodeChildren : Association := ⟨"node", ["id"], "node", ["child"], "parent"⟩

def nodeChildrenText : String :=
  "SELECT \"t1\".\"id\", \"t2\".\"parent\" AS \"$p\" FROM \"node\" \"t1\" JOIN \"node\" \"t2\" " ++
    "ON \"t2\".\"child\" = \"t1\".\"id\" WHERE \"t1\".\"parent\" = ANY('\x7b1,2\x7d')"

-- The row whose parent was asked for is not the one whose parent is given.
theorem nodeChildren_strayed : associatedSql .utc nodeChildren ["id"] petKeys = .ok nodeChildrenText ∧
    ∃ search row σ, readSearch nodeChildrenText = some search ∧ (⟨"t2", "parent"⟩, some parentAlias) ∈ search.columns ∧
      Select.Judged .utc petKeys row σ ∧ row ⟨"t2", "child"⟩ = row ⟨"t1", "id"⟩ ∧
      search.filter.eval (fun _ _ => []) σ = true ∧ row ⟨"t2", "parent"⟩ ∉ petKeys := by
  have spelled : (associatedSql .utc nodeChildren ["id"] petKeys).toOption = some nodeChildrenText := by
    decide +kernel
  have written := Select.ok_of_toOption spelled
  obtain ⟨pairs, paired, spelled⟩ := Select.associatedSql_text written
  obtain ⟨_, read⟩ := Select.search_associated .utc nodeChildren ["id"] petKeys pairs paired
  have stray : Value.int32 9 ∉ petKeys := by simp [petKeys]
  have judged : Select.Judged .utc petKeys (rowAt ⟨"t1", "parent"⟩ (.int32 1) (.int32 9)) (judgeAt .utc _ petKeys) :=
    judgeAt_judged .utc ⟨"t1", "parent"⟩ List.mem_cons_self (.int32 9)
  refine ⟨written, _, _, _, spelled ▸ read, List.mem_append_right _ List.mem_cons_self, judged, rfl, ?_, stray⟩
  exact beq_self_eq_true _

end QueryKit
