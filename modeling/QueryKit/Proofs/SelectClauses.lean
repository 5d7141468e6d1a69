import QueryKit.Proofs.Assignments
import QueryKit.Proofs.ClauseSplit
import QueryKit.Proofs.SelectTokens

-- The clauses of a SELECT statement. Cut at the words that open a clause outside of every
-- parenthesis, its text gives the clauses of the query, each one with what the query holds for it.

namespace QueryKit
open Text Lexer

structure Clauses (zone : Zone) (sql : Sql) (clauses : List (Token × List Token)) : Prop where
  tight : Sql.Tight zone sql
  begins : Begins zone sql
  tokens : sql.tokens zone = clauses.flatMap fun c => c.1 :: c.2
  opens : ∀ c ∈ clauses, c.1.opensClause = true
  bodies : ∀ c ∈ clauses, ∃ items, Nests readInside c.2 items ∧ ∀ i ∈ items, i.opensClause = false

section
variable {zone : Zone}

theorem clauses_one {w : String} {t : Token} {ts : List Token} {c : Char} {cs : List Char} {sql : Sql}
    (first : w.toList = c :: cs) (solid : isSpace c = false) (free : c ≠ '-') (lexed : lex w = some (t :: ts))
    (opens : t.opensClause = true) (inner : isInner ts = true) (complete : (Mode.ground.scan w.toList).2 = .ground)
    (body : Body zone sql) : Clauses zone (.word w :: sql) [(t, ts ++ sql.tokens zone)] := by
  obtain ⟨as, nests, quiet⟩ := nests_inner inner
  obtain ⟨bs, behind, silent⟩ := body.nests
  refine ⟨.word complete body.tight, begins_word sql first solid free, ?_, List.forall_mem_singleton.mpr opens,
    List.forall_mem_singleton.mpr ⟨as ++ bs, nests.append behind, List.forall_mem_append.mpr ⟨quiet, silent⟩⟩⟩
  simp [Piece.tokens_word zone lexed]

theorem clauses_separated (parts : List (Sql × List (Token × List Token)))
    (each : ∀ part ∈ parts, Clauses zone part.1 part.2) :
    Sql.Tight zone (Sql.separated " " (parts.map (·.1))) ∧
      Sql.tokens zone (Sql.separated " " (parts.map (·.1))) =
        (parts.flatMap (·.2)).flatMap fun c => c.1 :: c.2 := by
  induction parts with
  | nil => exact ⟨.nil, rfl⟩
  | cons part r ih =>
    obtain ⟨here, later⟩ := List.forall_mem_cons.mp each
    obtain ⟨tight, tokens⟩ := ih later
    cases r with
    | nil =>
      simp only [List.map_cons, List.map_nil, Sql.separated_singleton, List.flatMap_cons, List.flatMap_nil,
        List.append_nil]
      exact ⟨here.tight, here.tokens⟩
    | cons next r =>
      have blank : lex " " = some [] := rfl
      have begins := begins_separated " " (r.map (·.1)) (later next List.mem_cons_self).begins
      simp only [List.map_cons] at tight tokens ⊢
      rw [Sql.separated_cons_cons]
      refine ⟨here.tight.append (.word rfl tight) begins.breaks, ?_⟩
      rw [Sql.tokens_append, Sql.tokens_cons, Piece.tokens_word zone blank, tokens, here.tokens]
      simp

theorem cut_separated (parts : List (Sql × List (Token × List Token)))
    (each : ∀ part ∈ parts, Clauses zone part.1 part.2) :
    (lex (Sql.text zone (Sql.separated " " (parts.map (·.1))))).map (cut 0) = some ([], parts.flatMap (·.2)) := by
  obtain ⟨tight, tokens⟩ := clauses_separated parts each
  rw [Sql.lex_text tight, tokens, Option.map_some]
  refine congrArg some (cut_clauses _ (fun c member => ?_) fun c member => ?_)
  · obtain ⟨part, known, inside⟩ := List.mem_flatMap.mp member
    exact (each part known).opens c inside
  · obtain ⟨part, known, inside⟩ := List.mem_flatMap.mp member
    obtain ⟨items, nests, free⟩ := (each part known).bodies c inside
    exact nests.together free

theorem nests_clauses (clauses : List (Token × List Token)) (opens : ∀ c ∈ clauses, c.1.opensClause = true)
    (bodies : ∀ c ∈ clauses, ∃ items, Nests readInside c.2 items ∧ ∀ i ∈ items, i.opensClause = false) :
    ∃ items, Nests readInside (clauses.flatMap fun c => c.1 :: c.2) items := by
  induction clauses with
  | nil => exact ⟨[], .nil⟩
  | cons c r ih =>
    obtain ⟨here, later⟩ := List.forall_mem_cons.mp opens
    obtain ⟨⟨as, nests, _⟩, behind⟩ := List.forall_mem_cons.mp bodies
    obtain ⟨bs, rest⟩ := ih later behind
    obtain ⟨t, ts⟩ := c
    have plain : t.isParenthesis = false := by
      match t, here with
      | .word w, _ => rfl
    exact ⟨.token t :: (as ++ bs), .token plain (nests.append rest)⟩

end

def Sections (zone : Zone) (texts : List Sql) (clauses : List (Token × List Token)) : Prop :=
  ∃ parts : List (Sql × List (Token × List Token)), texts = parts.map (·.1) ∧ clauses = parts.flatMap (·.2) ∧
    ∀ part ∈ parts, Clauses zone part.1 part.2

section
variable {zone : Zone}

theorem sections_nil : Sections zone [] [] := ⟨[], rfl, rfl, by simp⟩

theorem sections_one {sql : Sql} {clauses : List (Token × List Token)} (whole : Clauses zone sql clauses) :
    Sections zone [sql] clauses :=
  ⟨[(sql, clauses)], rfl, by simp, List.forall_mem_singleton.mpr whole⟩

theorem Sections.append {as bs : List Sql} {cs ds : List (Token × List Token)} (left : Sections zone as cs)
    (right : Sections zone bs ds) : Sections zone (as ++ bs) (cs ++ ds) := by
  obtain ⟨first, rfl, rfl, each⟩ := left
  obtain ⟨second, rfl, rfl, all⟩ := right
  exact ⟨first ++ second, List.map_append.symm, List.flatMap_append.symm, List.forall_mem_append.mpr ⟨each, all⟩⟩

end

namespace Select

def distinctLabel (q : Select) : Option String := if q.isQualified then q.sources.head?.map (·.label) else none

def distinctTokens (q : Select) : List Token :=
  match q.distinctOn with
  | none => []
  | some columns =>
    [.word "distinct", .word "on", .mark "("] ++
      listTokens (columns.map fun column => pathTokens (columnPath q.distinctLabel column)) ++ [.mark ")"]

def tableTokens (aliased : Bool) (source : Source) : List Token :=
  .name source.table :: if aliased then [.name source.label] else []

def joinedTokens (zone : Zone) (aliased : Bool) : List Source → List Token
  | [] => []
  | source :: r =>
    .word "join" :: tableTokens aliased source ++ .word "on" ::
      List.intercalate [.word "and"] (source.joins.map fun join => Sql.tokens zone (joinSql source join)) ++
      (if r.isEmpty then [] else [.mark ")"]) ++ joinedTokens zone aliased r

def fromTokens (zone : Zone) (q : Select) : List Token :=
  match q.sources with
  | [] => []
  | first :: r =>
    List.replicate (r.length - 1) (.mark "(") ++ (tableTokens q.isAliased first ++ joinedTokens zone q.isAliased r)

def havingNames (q : Select) : List String :=
  (q.sources.flatMap (·.items)).filterMap fun item =>
    match item with
    | .having column => some column
    | _ => none

def descendingNames (columns : List String) : List String :=
  columns.filterMap fun column =>
    match Direction.ofTerm column with
    | (name, .descending) => some name
    | (_, .ascending) => none

def directionToken : Direction → Token
  | .ascending => .word "asc"
  | .descending => .word "desc"

def orderTokens (zone : Zone) (qualified : Bool) : OrderTerm → List Token
  | .column table name direction =>
    pathTokens (columnPath (if qualified then table else none) name) ++ [directionToken direction]
  | .raw sql => sql.tokens zone

def orderLists (zone : Zone) (q : Select) : List (List Token) :=
  ((descendingNames (q.groupBy.getD [])).reverse.map fun name => [.name name, .word "desc"]) ++
    q.order.map (orderTokens zone q.isQualified)

def numberTokens (n : UInt64) : List Token := [.number (natText n.toNat)]

-- The clauses of a query, each with the word that opens it.
def clauseTokens (zone : Zone) (q : Select) : List (Token × List Token) :=
  [(.word "select", q.distinctTokens ++ q.listSql.tokens zone), (.word "from", q.fromTokens zone)] ++
    (if q.groups.all Group.isVacuous then []
      else [(.word "where", (Sql.tokens zone (q.whereSql?.getD [])).tail)]) ++
    (q.groupBy.toList.map fun columns =>
      (.word "group", .word "by" :: listTokens (columns.map fun column => [.name (Direction.ofTerm column).1]))) ++
    (if q.havingNames = [] then []
      else [(.word "having", List.intercalate [.word "and"] (q.havingNames.map fun name => [.name name]))]) ++
    (if q.orderLists zone = [] then [] else [(.word "order", .word "by" :: listTokens (q.orderLists zone))]) ++
    (q.limit.toList.map fun count => (.word "limit", numberTokens count)) ++
    q.offset.toList.map fun count => (.word "offset", numberTokens count)

section
variable {zone : Zone}

theorem tokens_column (label : Option String) (name : String) :
    Sql.tokens zone (Sql.column label name) = pathTokens (columnPath label name) := by
  cases label <;> simp [Sql.column, columnPath]

theorem body_head (q : Select) {list : Sql} (body : Body zone list) (begins : Begins zone list) :
    Body zone (q.distinctOnSql ++ .word " " :: list) ∧
      breaks (Sql.chars zone (q.distinctOnSql ++ .word " " :: list)) = true ∧
      Sql.tokens zone q.distinctOnSql = q.distinctTokens := by
  have blank : lex " " = some [] := rfl
  have behind : Body zone (.word " " :: list) := body.word blank rfl rfl
  unfold distinctOnSql distinctTokens
  cases q.distinctOn with
  | none => exact ⟨behind, begins.breaks, rfl⟩
  | some columns =>
    have opened : lex " DISTINCT ON (" = some [.word "distinct", .word "on", .mark "("] := rfl
    have closed : lex ")" = some [.mark ")"] := rfl
    have distinct : Body zone (.word " DISTINCT ON (" ::
        Sql.separated ", " (columns.map (Sql.column q.distinctLabel)) ++ [.word ")"]) :=
      body_distinctOn q.distinctLabel columns
    refine ⟨distinct.append behind begins.breaks, Sql.breaks_word (by decide) rfl, ?_⟩
    simp [Piece.tokens_word zone opened, Piece.tokens_word zone closed, Sql.tokens_comma, Function.comp_def,
      tokens_column, distinctLabel]

theorem clauses_select {q : Select} (own : ∀ source ∈ q.sources, ∀ item ∈ source.items, ∀ sql label,
    item ≠ .expression sql label) :
    Clauses zone (.word "SELECT" :: q.distinctOnSql ++ .word " " :: q.listSql)
      [(.word "select", q.distinctTokens ++ q.listSql.tokens zone)] := by
  have keyword : lex "SELECT" = some [.word "select"] := rfl
  have blank : lex " " = some [] := rfl
  obtain ⟨list, begins⟩ := body_list zone own
  obtain ⟨body, ends, tokens⟩ := q.body_head list begins
  obtain ⟨items, nests, free⟩ := body.nests
  rw [Sql.tokens_append, Sql.tokens_cons, Piece.tokens_word zone blank, tokens, List.nil_append] at nests
  refine ⟨.apart rfl ends body.tight, begins_word (c := 'S') _ rfl rfl (by decide), ?_,
    List.forall_mem_singleton.mpr rfl, List.forall_mem_singleton.mpr ⟨items, nests, free⟩⟩
  simp [Piece.tokens_word zone keyword, Piece.tokens_word zone blank, tokens]

theorem tokens_table (aliased : Bool) (source : Source) :
    Sql.tokens zone (tableSql aliased source) = tableTokens aliased source := by
  have blank : lex " " = some [] := rfl
  cases aliased <;> simp [tableSql, tableTokens, Piece.tokens_word zone blank, pathTokens]

theorem tokens_joinedSql (aliased : Bool) (sources : List Source) :
    Sql.tokens zone (joinedSql aliased sources) = joinedTokens zone aliased sources := by
  have joining : lex " JOIN " = some [.word "join"] := rfl
  have matching : lex " ON " = some [.word "on"] := rfl
  have both : lex " AND " = some [.word "and"] := rfl
  have closed : lex ")" = some [.mark ")"] := rfl
  induction sources with
  | nil => rfl
  | cons source r ih =>
    rw [joinedSql, joinedTokens, ← ih]
    cases r <;>
      simp [tokens_table, Sql.tokens_separated, Piece.tokens_word zone joining, Piece.tokens_word zone matching,
        Piece.tokens_word zone both, Piece.tokens_word zone closed, Function.comp_def]

theorem scan_parentheses (k : Nat) :
    Mode.ground.scan (List.replicate k '(') = (List.replicate k (.mark "("), .ground) := by
  induction k with
  | zero => rfl
  | succ k ih =>
    have step : Mode.ground.step '(' = ([.mark "("], .ground) := rfl
    rw [List.replicate_succ, Mode.scan, step, ih]
    rfl

theorem scan_from (k : Nat) :
    Mode.ground.scan ("FROM " ++ String.ofList (List.replicate k '(')).toList =
      (.word "from" :: List.replicate k (.mark "("), .ground) := by
  have keyword : Mode.ground.scan "FROM ".toList = ([.word "from"], .ground) := rfl
  rw [String.toList_append, Mode.scan_append, keyword, String.toList_ofList, scan_parentheses]
  rfl

theorem clauses_from {q : Select} (filled : q.sources ≠ [])
    (known : ∀ source ∈ q.sources, ∀ join ∈ source.joins, join.own.isRaw = false ∧ join.other.isRaw = false) :
    Clauses zone q.fromSql [(.word "from", q.fromTokens zone)] := by
  obtain ⟨first, r, found⟩ := List.exists_cons_of_ne_nil filled
  rw [found] at known
  obtain ⟨_, later⟩ := List.forall_mem_cons.mp known
  have scanned := scan_from (r.length - 1)
  have lexed : lex ("FROM " ++ String.ofList (List.replicate (r.length - 1) '(')) =
      some (.word "from" :: List.replicate (r.length - 1) (.mark "(")) := by
    rw [lex, lexFrom, scanned]
    simp [Mode.flush]
  have table : Body zone (tableSql q.isAliased first) := body_table q.isAliased first
  obtain ⟨tight, ends⟩ := tight_joinedSql zone q.isAliased r later
  have nests := nests_joinedSql zone q.isAliased r later _ table.nests
  rw [tokens_table, tokens_joinedSql] at nests
  unfold fromSql fromTokens
  rw [found]
  refine ⟨?_, ?_, ?_, ?_, ?_⟩
  · exact .word (by rw [scanned]) (table.tight.append tight ends)
  · have letter : ("FROM " ++ String.ofList (List.replicate (r.length - 1) '(')).toList =
        'F' :: ("ROM ".toList ++ List.replicate (r.length - 1) '(') := by
      simp
    exact begins_word _ letter rfl (by decide)
  · simp [Piece.tokens_word zone lexed, tokens_table, tokens_joinedSql]
  · exact List.forall_mem_singleton.mpr rfl
  · exact List.forall_mem_singleton.mpr nests

theorem sections_where (zone : Zone) (qualified : Bool) (groups : List Group) (known : ∀ g ∈ groups, g.Known) :
    Sections zone (Group.whereSql? qualified groups).toList (if groups.all Group.isVacuous then []
      else [(.word "where", (Sql.tokens zone ((Group.whereSql? qualified groups).getD [])).tail)]) := by
  obtain ⟨silent, reads⟩ := whereSql?_reads zone qualified groups known
  have vacuous : groups.all Group.isVacuous = true ↔ Group.whereSql? qualified groups = none := by
    rw [silent, List.all_eq_true]
  cases found : Group.whereSql? qualified groups with
  | none =>
    rw [if_pos (vacuous.mpr found)]
    exact sections_nil
  | some clause =>
    have telling : ¬groups.all Group.isVacuous = true := by
      rw [vacuous, found]
      exact Option.some_ne_none clause
    rw [if_neg telling]
    obtain ⟨tight, items, _, nests, _, _, free⟩ := (reads clause found).1
    obtain ⟨rest, worded⟩ := Group.text_whereSql? zone found
    have begins : Begins zone clause := by
      refine ⟨'W', "HERE ".toList ++ rest.toList, ?_, by decide, by decide⟩
      rw [← Sql.toList_text, worded]
      simp
    generalize told : Sql.tokens zone clause = tokens at nests
    cases nests with
    | token plain behind =>
      refine sections_one ⟨tight, begins, ?_, List.forall_mem_singleton.mpr rfl,
        List.forall_mem_singleton.mpr ⟨items, ?_, free⟩⟩
      · simp [told]
      · simpa [told] using behind

theorem sections_list {keyword separator : String} {t : Token} {ts : List Token} {c : Char} {cs : List Char}
    (parts : List Sql) (first : keyword.toList = c :: cs) (solid : isSpace c = false) (free : c ≠ '-')
    (lexed : lex keyword = some (t :: ts)) (opens : t.opensClause = true) (inner : isInner ts = true)
    (complete : (Mode.ground.scan keyword.toList).2 = .ground) (body : Body zone (Sql.separated separator parts)) :
    Sections zone (listClause keyword separator parts) (if parts = [] then []
      else [(t, ts ++ Sql.tokens zone (Sql.separated separator parts))]) := by
  unfold listClause
  cases parts with
  | nil => exact sections_nil
  | cons part r =>
    simp only [List.isEmpty_cons, Bool.false_eq_true, if_false, List.cons_ne_nil]
    exact sections_one (clauses_one first solid free lexed opens inner complete body)

theorem body_names (columns : List String) (separator : String) {ts : List Token} (separates : Sql.Separates separator)
    (lexed : lex separator = some ts) (inner : isInner ts = true) :
    Body zone (Sql.separated separator (columns.map fun column => [.name [column]])) := by
  refine Body.joined separates lexed inner fun part member => ?_
  obtain ⟨column, _, rfl⟩ := List.mem_map.mp member
  exact (side_name column []).body

theorem sections_groupBy (zone : Zone) (q : Select) :
    Sections zone q.groupByClause (q.groupBy.toList.map fun columns =>
      (.word "group", .word "by" :: listTokens (columns.map fun column => [.name (Direction.ofTerm column).1]))) := by
  have comma : lex ", " = some [.mark ","] := rfl
  have keyword : lex "GROUP BY " = some (.word "group" :: [.word "by"]) := rfl
  unfold groupByClause
  cases q.groupBy with
  | none => exact sections_nil
  | some columns =>
    have body : Body zone (Sql.separated ", " (groupByColumns columns)) := by
      have names : Body zone (Sql.separated ", " ((columns.map fun column => (Direction.ofTerm column).1).map
          fun name => [.name [name]])) := body_names _ ", " Sql.separates_comma comma rfl
      simpa [groupByColumns, Function.comp_def] using names
    have whole := clauses_one (c := 'G') rfl rfl (by decide) keyword rfl rfl rfl body
    have listed : Sql.tokens zone (Sql.separated ", " (groupByColumns columns)) =
        listTokens (columns.map fun column => [.name (Direction.ofTerm column).1]) := by
      simp [Sql.tokens_comma, groupByColumns, pathTokens, Function.comp_def]
    rw [listed] at whole
    exact sections_one whole

theorem havingColumns_eq (q : Select) : q.havingColumns = q.havingNames.map fun name => [.name [name]] := by
  unfold havingColumns havingNames
  rw [List.map_filterMap]
  congr 1
  funext item
  cases item <;> rfl

theorem sections_having (zone : Zone) (q : Select) :
    Sections zone (listClause "HAVING " " AND " q.havingColumns) (if q.havingNames = [] then []
      else [(.word "having", List.intercalate [.word "and"] (q.havingNames.map fun name => [.name name]))]) := by
  have both : lex " AND " = some [.word "and"] := rfl
  have keyword : lex "HAVING " = some (.word "having" :: []) := rfl
  have body : Body zone (Sql.separated " AND " (q.havingNames.map fun name => [.name [name]])) :=
    body_names _ " AND " ⟨rfl, rfl, by decide⟩ both rfl
  rw [havingColumns_eq]
  have sections := sections_list (c := 'H') _ rfl rfl (by decide) keyword rfl rfl rfl body
  simpa [Sql.tokens_separated, Piece.tokens_word zone both, pathTokens, Function.comp_def] using sections

theorem tokens_direction (zone : Zone) (direction : Direction) :
    lex (" " ++ direction.keyword) = some [directionToken direction] ∧ isInner [directionToken direction] = true ∧
      (Mode.ground.scan (" " ++ direction.keyword).toList).2.rests = true ∧
      breaks (Sql.chars zone [.word (" " ++ direction.keyword)]) = true := by
  cases direction <;> exact ⟨rfl, rfl, rfl, Sql.breaks_word (by decide) rfl⟩

theorem body_orderTerm (qualified : Bool) (term : OrderTerm) (own : ∀ sql, term ≠ .raw sql) :
    Body zone (orderTermSql qualified term) ∧
      Sql.tokens zone (orderTermSql qualified term) = orderTokens zone qualified term := by
  cases term with
  | raw sql => exact absurd rfl (own sql)
  | column table name direction =>
    obtain ⟨lexed, inner, whole, ends⟩ := tokens_direction zone direction
    refine ⟨(body_column _ name).append (body_last lexed inner whole) ends, ?_⟩
    simp [orderTermSql, orderTokens, tokens_column, Piece.tokens_word zone lexed]

theorem groupByOrder_eq (columns : List String) :
    groupByOrder columns = (descendingNames columns).reverse.map fun name => [.name [name], .word " DESC"] := by
  unfold groupByOrder descendingNames
  rw [List.map_reverse, List.map_filterMap]
  congr 2
  funext column
  rcases Direction.ofTerm column with ⟨name, _ | _⟩ <;> rfl

theorem body_descending (name : String) : Body zone [.name [name], .word " DESC"] := by
  have lexed : lex " DESC" = some [.word "desc"] := rfl
  have last : Body zone [.word " DESC"] := body_last lexed rfl rfl
  exact (side_name name []).body.append last (Sql.breaks_word (by decide) rfl)

theorem tokens_orderTerms (zone : Zone) {q : Select} (own : ∀ term ∈ q.order, ∀ sql, term ≠ .raw sql) :
    q.orderTerms.map (Sql.tokens zone) = q.orderLists zone := by
  have lexed : lex " DESC" = some [.word "desc"] := rfl
  have terms : q.order.map (fun term => Sql.tokens zone (orderTermSql q.isQualified term)) =
      q.order.map (orderTokens zone q.isQualified) :=
    List.map_congr_left fun term member => (body_orderTerm q.isQualified term (own term member)).2
  simp [orderTerms, orderLists, groupByOrder_eq, Function.comp_def, Piece.tokens_word zone lexed, pathTokens, ← terms]

theorem sections_order (zone : Zone) {q : Select} (own : ∀ term ∈ q.order, ∀ sql, term ≠ .raw sql) :
    Sections zone (listClause "ORDER BY " ", " q.orderTerms) (if q.orderLists zone = [] then []
      else [(.word "order", .word "by" :: listTokens (q.orderLists zone))]) := by
  have keyword : lex "ORDER BY " = some (.word "order" :: [.word "by"]) := rfl
  have body : Body zone (Sql.separated ", " q.orderTerms) := by
    refine Body.listed fun part member => ?_
    rcases List.mem_append.mp member with grouping | ordering
    · rw [groupByOrder_eq] at grouping
      obtain ⟨name, _, rfl⟩ := List.mem_map.mp grouping
      exact body_descending name
    · obtain ⟨term, inside, rfl⟩ := List.mem_map.mp ordering
      exact (body_orderTerm q.isQualified term (own term inside)).1
  have sections := sections_list (c := 'O') _ rfl rfl (by decide) keyword rfl rfl rfl body
  have unordered : q.orderTerms = [] ↔ q.orderLists zone = [] := by
    rw [← tokens_orderTerms zone own, List.map_eq_nil_iff]
  simpa only [Sql.tokens_comma, tokens_orderTerms zone own, unordered, List.singleton_append] using sections

theorem splits_count {w : String} {t : Token} (lexed : Splits w.toList [t])
    (complete : (Mode.ground.scan w.toList).2 = .ground) (n : UInt64) :
    Splits (w ++ natText n.toNat).toList (t :: numberTokens n) := by
  have number := splits_signed (numeral_digits n.toNat) false
  have whole := lexed.append number (.inl complete)
  simpa [natText, numberTokens, signedTokens, signed] using whole

theorem clauses_count {w : String} {clauses : List (Token × List Token)} {c : Char} {cs : List Char}
    (first : w.toList = c :: cs) (solid : isSpace c = false) (free : c ≠ '-')
    (split : Splits w.toList (clauses.flatMap fun c => c.1 :: c.2)) (opens : ∀ c ∈ clauses, c.1.opensClause = true)
    (inner : ∀ c ∈ clauses, isInner c.2 = true) : Clauses zone [.word w] clauses := by
  refine ⟨.last split.rests, begins_word [] first solid free, ?_, opens, fun c member => nests_inner (inner c member)⟩
  simp [Piece.tokens_word zone (lex_of_splits split)]

theorem sections_limit (zone : Zone) (q : Select) :
    Sections zone q.limitSql ((q.limit.toList.map fun count => (.word "limit", numberTokens count)) ++
      q.offset.toList.map fun count => (.word "offset", numberTokens count)) := by
  have limited (n : UInt64) : Splits ("LIMIT " ++ natText n.toNat).toList (.word "limit" :: numberTokens n) :=
    splits_count ⟨rfl, rfl⟩ rfl n
  have offset (n : UInt64) : Splits ("OFFSET " ++ natText n.toNat).toList (.word "offset" :: numberTokens n) :=
    splits_count ⟨rfl, rfl⟩ rfl n
  have behind (n : UInt64) : Splits (" OFFSET " ++ natText n.toNat).toList (.word "offset" :: numberTokens n) :=
    splits_count ⟨rfl, rfl⟩ rfl n
  have letter (first : Char) (rest : List Char) (n : UInt64) :
      (String.ofList (first :: rest) ++ natText n.toNat).toList = first :: (rest ++ (natText n.toNat).toList) := by simp
  unfold limitSql
  cases q.limit with
  | none =>
    cases q.offset with
    | none => exact sections_nil
    | some m =>
      refine sections_one (clauses_count (letter 'O' ['F', 'F', 'S', 'E', 'T', ' '] m) rfl (by decide) ?_ ?_ ?_)
      · simpa using offset m
      · exact List.forall_mem_singleton.mpr rfl
      · exact List.forall_mem_singleton.mpr rfl
  | some n =>
    cases q.offset with
    | none =>
      refine sections_one (clauses_count (letter 'L' ['I', 'M', 'I', 'T', ' '] n) rfl (by decide) ?_ ?_ ?_)
      · simpa using limited n
      · exact List.forall_mem_singleton.mpr rfl
      · exact List.forall_mem_singleton.mpr rfl
    | some m =>
      have both := (limited n).append (behind m) (.inr (by simp [breaks, isSeparator, isSpace, isNewline]))
      have first : ("LIMIT " ++ natText n.toNat ++ " OFFSET " ++ natText m.toNat).toList = 'L' ::
          ("IMIT ".toList ++ (natText n.toNat).toList ++ " OFFSET ".toList ++ (natText m.toNat).toList) := by simp
      refine sections_one (clauses_count first rfl (by decide) ?_ ?_ ?_)
      · simpa [String.toList_append] using both
      · exact List.forall_mem_cons.mpr ⟨rfl, List.forall_mem_singleton.mpr rfl⟩
      · exact List.forall_mem_cons.mpr ⟨rfl, List.forall_mem_singleton.mpr rfl⟩

end

end Select

end QueryKit
