import Mathlib.Tactic.Choose
import QueryKit.Proofs.JoinTargets
import QueryKit.Proofs.TableReading

-- The FROM clause of a query, read by the server, joins its tables from left to right in the order in which
-- they were added, each on its own conditions.

namespace QueryKit
open Lexer

namespace Operator

def middle : Operator → List Token
  | .eq => [.operator "="]
  | .ne => [.operator "<>"]
  | .gt => [.operator ">"]
  | .gte => [.operator ">="]
  | .lt => [.operator "<"]
  | .lte => [.operator "<="]
  | .like => [.word "like"]
  | .notLike => [.word "not", .word "like"]
  | .modulo => [.operator "%"]
  | .ancestor => [.operator "@>"]
  | .descendant => [.operator "<@"]
  | .pathMatch => [.operator "~"]
  | .between => [.word "between"]
  | .notBetween => [.word "not", .word "between"]
  | .notIn => [.operator "<>", .word "all"]
  | .any | .notAny => [.operator "=", .word "any"]
  | .raw => []

def isQuantified : Operator → Bool
  | .notIn | .any | .notAny => true
  | _ => false

theorem lex_infixText (op : Operator) :
    lex op.infixText = some (op.middle ++ if op.isQuantified then [.mark "("] else []) := by
  cases op <;> rfl

end Operator

namespace Lexer

def Reference.tokens (r : Reference) : List Token := [.name r.table, .mark ".", .name r.column]

theorem tokens_reference (table column : String) : pathTokens [table, column] = (Reference.mk table column).tokens :=
  rfl

-- Tokens that read as one comparison among others with AND between them.
structure Compares (ts : List Token) (c : Comparison) : Prop where
  reads : ∃ items, Nests readEnclosed ts items ∧ Unbroken items ∧ readComparison items = some c ∧
    ∀ i ∈ items, i.isBranch = false

def flatItems (ts : List Token) : List (Item Enclosed) := ts.map .token

def isFlat (ts : List Token) : Bool :=
  ts.all fun t => !t.isParenthesis && !(Item.token t : Item Enclosed).isBranch

theorem nests_flat {ts : List Token} (flat : isFlat ts = true) :
    Nests readEnclosed ts (flatItems ts) ∧ ∀ i ∈ flatItems ts, i.isBranch = false := by
  have each := List.all_eq_true.mp flat
  refine ⟨nests_tokens fun t member => ?_, fun i member => ?_⟩
  · have here := each t member
    simp only [Bool.and_eq_true, Bool.not_eq_true'] at here
    exact here.1
  · obtain ⟨t, inside, rfl⟩ := List.mem_map.mp member
    have here := each t inside
    simp only [Bool.and_eq_true, Bool.not_eq_true'] at here
    exact here.2

theorem compares_flat {ts : List Token} {c : Comparison} (flat : isFlat ts = true)
    (quiet : (flatItems ts).all Item.isQuiet = true) (read : readComparison (flatItems ts) = some c) :
    Compares ts c := by
  obtain ⟨nests, free⟩ := nests_flat flat
  exact ⟨flatItems ts, nests, unbroken_of_quiet (List.all_eq_true.mp quiet), read, free⟩

theorem compares_binary {op : Operator} (single : op.isRange = false) (known : op ≠ .raw)
    (bare : op.isQuantified = false) (left right : Reference) :
    Compares (left.tokens ++ op.middle ++ right.tokens) ⟨op, left, [right]⟩ := by
  cases op with
  | between | notBetween => cases single
  | raw => exact absurd rfl known
  | notIn | any | notAny => cases bare
  | _ => exact compares_flat rfl rfl rfl

theorem compares_quantified {op : Operator} (quantified : op.isQuantified = true) (asserts : op ≠ .notAny)
    (left right : Reference) :
    Compares (left.tokens ++ op.middle ++ (.mark "(" :: right.tokens ++ [.mark ")"])) ⟨op, left, [right]⟩ := by
  obtain ⟨inner, _⟩ : Nests readEnclosed right.tokens (flatItems right.tokens) ∧ _ := nests_flat rfl
  have front : isFlat (left.tokens ++ op.middle) = true := by cases op <;> rfl
  obtain ⟨nests, free⟩ := nests_flat front
  refine ⟨_, nests.append inner.enclosed, unbroken_of_quiet ?_, ?_, ?_⟩
  · have quiet : (flatItems (left.tokens ++ op.middle)).all Item.isQuiet = true := by
      cases op with
      | notIn | any | notAny => rfl
      | _ => cases quantified
    exact List.forall_mem_append.mpr ⟨List.all_eq_true.mp quiet, List.forall_mem_singleton.mpr rfl⟩
  · cases op with
    | notAny => exact absurd rfl asserts
    | notIn | any => rfl
    | _ => cases quantified
  · exact List.forall_mem_append.mpr ⟨free, List.forall_mem_singleton.mpr rfl⟩

theorem Compares.denied {ts : List Token} {c d : Comparison} (compares : Compares ts c) (denied : c.denied? = some d) :
    Compares (.word "not" :: (.mark "(" :: ts ++ [.mark ")"])) d := by
  obtain ⟨items, nests, _, read, _⟩ := compares.reads
  refine ⟨[.token (.word "not"), enclose readEnclosed items], .token rfl nests.enclosed, unbroken_of_quiet ?_, ?_, ?_⟩
  · exact List.forall_mem_cons.mpr ⟨rfl, List.forall_mem_singleton.mpr rfl⟩
  · have inside : (readComparison items).bind Comparison.denied? = some d := by rw [read]; exact denied
    exact inside
  · exact List.forall_mem_cons.mpr ⟨rfl, List.forall_mem_singleton.mpr rfl⟩

theorem compares_range {op : Operator} (range : op.isRange = true) (left lower upper : Reference) :
    Compares (left.tokens ++ op.middle ++ (lower.tokens ++ .word "and" :: upper.tokens))
      ⟨op, left, [lower, upper]⟩ := by
  have quiet (r : Reference) : ∀ i ∈ flatItems r.tokens, i.isQuiet = true := List.all_eq_true.mp rfl
  have denied : ∀ i ∈ flatItems (left.tokens ++ [.word "not"]), i.isQuiet = true := List.all_eq_true.mp rfl
  have flat : isFlat (left.tokens ++ op.middle ++ (lower.tokens ++ .word "and" :: upper.tokens)) = true := by
    cases op <;> rfl
  obtain ⟨nests, free⟩ := nests_flat flat
  cases op with
  | between => exact ⟨_, nests, unbroken_range (quiet left) (quiet lower) (quiet upper), rfl, free⟩
  | notBetween => exact ⟨_, nests, unbroken_range denied (quiet lower) (quiet upper), rfl, free⟩
  | _ => cases range

theorem comparisons_read (parts : List (List Token × Comparison)) (filled : parts ≠ [])
    (each : ∀ part ∈ parts, Compares part.1 part.2) :
    ∃ items, Nests readEnclosed (List.intercalate [.word "and"] (parts.map (·.1))) items ∧
      readComparisons items = some (parts.map (·.2)) ∧ ∀ i ∈ items, i.isBranch = false := by
  choose! items nests unbroken read free using fun part member => (each part member).reads
  have both : Nests readEnclosed [.word "and"] [.token (.word "and")] := nests_token rfl
  have whole := nests_intercalate both (parts.map fun part => (part.1, items part)) (List.forall_mem_map.mpr nests)
  have split := conjuncts_intercalate (parts.map items) (by simpa using filled) (List.forall_mem_map.mpr unbroken)
  have compared : ((parts.map fun part => (items part, part.2)).map (·.1)).mapM readComparison = _ :=
    mapM_of_each _ (List.forall_mem_map.mpr read)
  refine ⟨List.intercalate [.token (.word "and")] (parts.map items), ?_, ?_, ?_⟩
  · simpa [Function.comp_def] using whole
  · rw [readComparisons, split]
    simpa [Function.comp_def] using compared
  · exact forall_mem_intercalate _ rfl (List.forall_mem_map.mpr free)

end Lexer

namespace Operand

def columns : Operand → List String
  | .value v | .expression v => [v.nameText]
  | .range lower upper => [lower.nameText, upper.nameText]
  | .raw .. => []

end Operand

namespace Join

-- A column compared with those that the operand names, which have their alias from `label`.
def compared (left : Reference) (c : Comparator) (label : String) : Comparison :=
  ⟨c.op, left, c.operand.columns.map fun name => ⟨label, name⟩⟩

-- What a condition of a join says about the joined table and the one it is joined to. A comparator on the side of the
-- joined table has its operands there, and the other side's column on the left; one on the other side the reverse.
def comparison (source : Source) (join : Join) : Comparison :=
  match join.own, join.other with
  | .column own, .column other => ⟨.eq, ⟨source.label, own⟩, [⟨join.target, other⟩]⟩
  | .compare c, other => compared ⟨join.target, Select.sideName other⟩ c source.label
  | .column own, .compare c => compared ⟨source.label, own⟩ c join.target

end Join

namespace Select

def leaf (aliased : Bool) (source : Source) : Tables :=
  .table source.table (if aliased then some source.label else none)

-- All tables so far joined with one more, on its own conditions.
def joinOne (aliased : Bool) (tree : Tables) (source : Source) : Tables :=
  .join tree (leaf aliased source) (source.joins.map (Join.comparison source))

section
variable {zone : Zone}

theorem compare_one {op : Operator} (known : op ≠ .raw) (bare : op.isQuantified = false) (left right : Sql) :
    op.compare left (.one right) = left ++ .word op.infixText :: right := by
  cases op with
  | raw => exact absurd rfl known
  | notIn | any | notAny => cases bare
  | _ => rfl

theorem compares_asserted {op : Operator} (quantified : op.isQuantified = true) (asserts : op ≠ .notAny)
    (left right : Reference) :
    Compares (Sql.tokens zone (op.compare [.name [left.table, left.column]] (.one [.name [right.table, right.column]])))
      ⟨op, left, [right]⟩ := by
  have every : lex " <> ALL(" = some [.operator "<>", .word "all", .mark "("] := rfl
  have oneOf : lex " = ANY(" = some [.operator "=", .word "any", .mark "("] := rfl
  have closed : lex ")" = some [.mark ")"] := rfl
  have compares := compares_quantified quantified asserts left right
  cases op with
  | notIn =>
    simpa [Operator.compare, Operator.infixText, Operator.middle, Piece.tokens_word zone every,
      Piece.tokens_word zone closed, tokens_reference] using compares
  | any =>
    simpa [Operator.compare, Operator.infixText, Operator.middle, Piece.tokens_word zone oneOf,
      Piece.tokens_word zone closed, tokens_reference] using compares
  | notAny => exact absurd rfl asserts
  | _ => cases quantified

theorem compares_one {op : Operator} (single : op.isRange = false) (known : op ≠ .raw) (left right : Reference) :
    Compares (Sql.tokens zone (op.compare [.name [left.table, left.column]] (.one [.name [right.table, right.column]])))
      ⟨op, left, [right]⟩ := by
  cases quantified : op.isQuantified with
  | false =>
    have lexed := op.lex_infixText
    have compares := compares_binary single known quantified left right
    rw [quantified] at lexed
    rw [compare_one known quantified]
    simpa [Piece.tokens_word zone lexed, tokens_reference] using compares
  | true =>
    by_cases denies : op = .notAny
    · subst denies
      have oneOf : lex " = ANY(" = some [.operator "=", .word "any", .mark "("] := rfl
      have opened : lex "NOT (" = some [.word "not", .mark "("] := rfl
      have closed : lex ")" = some [.mark ")"] := rfl
      have closing : lex "))" = some [.mark ")", .mark ")"] := rfl
      have asserted : Compares (Sql.tokens zone (Operator.any.compare _ _)) ⟨.any, left, [right]⟩ :=
        compares_asserted rfl (by decide) left right
      have denied := asserted.denied rfl
      simpa [Operator.compare, Operator.infixText, Piece.tokens_word zone oneOf, Piece.tokens_word zone opened,
        Piece.tokens_word zone closed, Piece.tokens_word zone closing] using denied
    · exact compares_asserted quantified denies left right

theorem compares_operand (left : Reference) {c : Comparator} (known : (Test.compare c).isRaw = false) (label : String) :
    Compares (Sql.tokens zone (joinComparison [left.table, left.column] c label)) (Join.compared left c label) := by
  obtain ⟨op, operand, fits⟩ := c
  cases operand with
  | raw template escapes => cases known
  | value v | expression v =>
    simp only [Operand.fits, Bool.and_eq_true, Bool.not_eq_true', bne_iff_ne] at fits
    exact compares_one fits.1 fits.2 left ⟨label, v.nameText⟩
  | range lower upper =>
    have within : lex " BETWEEN " = some [.word "between"] := rfl
    have beyond : lex " NOT BETWEEN " = some [.word "not", .word "between"] := rfl
    have both : lex " AND " = some [.word "and"] := rfl
    have compares := compares_range fits left ⟨label, lower.nameText⟩ ⟨label, upper.nameText⟩
    cases op with
    | between =>
      simpa [joinComparison, operandColumn, Operator.compare, Operator.middle, Piece.tokens_word zone within,
        Piece.tokens_word zone both, tokens_reference, Join.compared, Operand.columns] using compares
    | notBetween =>
      simpa [joinComparison, operandColumn, Operator.compare, Operator.middle, Piece.tokens_word zone beyond,
        Piece.tokens_word zone both, tokens_reference, Join.compared, Operand.columns] using compares
    | _ => cases fits

theorem compares_join (source : Source) {join : Join} (known : join.own.isRaw = false ∧ join.other.isRaw = false) :
    Compares (Sql.tokens zone (joinSql source join)) (join.comparison source) := by
  obtain ⟨own, target, other⟩ := join
  cases own with
  | compare c => exact compares_operand ⟨target, sideName other⟩ known.1 source.label
  | column name =>
    cases other with
    | compare c => exact compares_operand ⟨source.label, name⟩ known.2 target
    | column against =>
      have equals : lex " = " = some [.operator "="] := rfl
      have compares : Compares _ ⟨.eq, ⟨source.label, name⟩, [⟨target, against⟩]⟩ :=
        compares_binary rfl (by decide) rfl _ _
      simpa [joinSql, Operator.middle, Piece.tokens_word zone equals, tokens_reference, Join.comparison] using compares

theorem nests_table (aliased : Bool) (source : Source) :
    ∃ items, Nests readEnclosed (tableTokens aliased source) items ∧ readTable items = some (leaf aliased source) ∧
      ∀ i ∈ items, i.isBranch = false := by
  have flat : isFlat (tableTokens aliased source) = true := by cases aliased <;> rfl
  obtain ⟨nests, free⟩ := nests_flat flat
  refine ⟨_, nests, ?_, free⟩
  cases aliased <;> rfl

theorem conditions_read (zone : Zone) {source : Source} (joined : source.joins ≠ [])
    (known : ∀ join ∈ source.joins, join.own.isRaw = false ∧ join.other.isRaw = false) :
    ∃ items, Nests readEnclosed (List.intercalate [.word "and"]
        (source.joins.map fun join => Sql.tokens zone (joinSql source join))) items ∧
      readComparisons items = some (source.joins.map (Join.comparison source)) ∧ ∀ i ∈ items, i.isBranch = false := by
  have compares := comparisons_read
    (source.joins.map fun join => (Sql.tokens zone (joinSql source join), join.comparison source))
    (by simpa using joined) (List.forall_mem_map.mpr fun join member => compares_join source (known join member))
  simpa [Function.comp_def] using compares

theorem join_read (zone : Zone) (aliased : Bool) {source : Source} (joined : source.joins ≠ [])
    (known : ∀ join ∈ source.joins, join.own.isRaw = false ∧ join.other.isRaw = false) {ts : List Token} {tree : Tables}
    (front : ∃ items, Nests readEnclosed ts items ∧ readTable items = some tree ∧ ∀ i ∈ items, i.isBranch = false) :
    ∃ items, Nests readEnclosed (ts ++ .word "join" :: (tableTokens aliased source ++ .word "on" ::
        List.intercalate [.word "and"] (source.joins.map fun join => Sql.tokens zone (joinSql source join)))) items ∧
      readTables items = some (joinOne aliased tree source) := by
  obtain ⟨before, first, left, quiet⟩ := front
  obtain ⟨table, second, right, silent⟩ := nests_table aliased source
  obtain ⟨conditions, third, on, free⟩ := conditions_read zone joined known
  exact ⟨_, first.append (.token rfl (second.append (.token rfl third))), readTables_join quiet silent free left right on⟩

theorem joins_read (zone : Zone) (aliased : Bool) (sources : List Source) (joined : ∀ source ∈ sources, source.joins ≠ [])
    (known : ∀ source ∈ sources, ∀ join ∈ source.joins, join.own.isRaw = false ∧ join.other.isRaw = false)
    {ts : List Token} {tree : Tables}
    (front : ∃ items, Nests readEnclosed ts items ∧ readTable items = some tree ∧ ∀ i ∈ items, i.isBranch = false) :
    ∃ items, Nests readEnclosed (List.replicate (sources.length - 1) (.mark "(") ++
        (ts ++ joinedTokens zone aliased sources)) items ∧
      readTables items = some (sources.foldl (joinOne aliased) tree) := by
  induction sources generalizing ts tree with
  | nil =>
    obtain ⟨items, nests, read, free⟩ := front
    exact ⟨items, by simpa [joinedTokens] using nests, by rw [readTables_alone free, read]; rfl⟩
  | cons source r ih =>
    obtain ⟨here, later⟩ := List.forall_mem_cons.mp joined
    obtain ⟨mine, others⟩ := List.forall_mem_cons.mp known
    obtain ⟨items, nests, read⟩ := join_read zone aliased here mine front
    cases r with
    | nil => exact ⟨items, by simpa [joinedTokens] using nests, read⟩
    | cons next r =>
      have closed : readTable [enclose readEnclosed items] = some (joinOne aliased tree source) := by
        simp [readTable, enclose, readEnclosed, read, joinOne, Tables.isJoined]
      obtain ⟨outer, deeper, whole⟩ := ih later others
        ⟨_, nests.enclosed, closed, List.forall_mem_singleton.mpr rfl⟩
      refine ⟨outer, ?_, whole⟩
      have opened : List.replicate ((source :: next :: r).length - 1) (Token.mark "(") =
          List.replicate ((next :: r).length - 1) (.mark "(") ++ [.mark "("] := by
        simp [List.replicate_succ']
      rw [opened, joinedTokens]
      simpa using deeper

end

end Select

-- However many tables a query has got, and whatever their names are: the FROM clause of a query without
-- conditions of the caller's own in its joins is read as the tables from left to right, in the order in
-- which they were added, each with its alias exactly when the query gives aliases. Parentheses match, and
-- behind the ON of a table stand that table's conditions in order.
theorem from_reads (zone : Zone) {q : Select} (reached : Select.Reached zone q) {first : Source}
    {later : List Source} (placed : q.sources = first :: later)
    (known : ∀ source ∈ q.sources, ∀ join ∈ source.joins, join.own.isRaw = false ∧ join.other.isRaw = false) :
    readFrom (q.fromSql.text q.zone) =
      some (later.foldl (Select.joinOne q.isAliased) (Select.leaf q.isAliased first)) := by
  have filled : q.sources ≠ [] := by simp [placed]
  have clauses : Clauses q.zone q.fromSql [(.word "from", q.fromTokens q.zone)] := Select.clauses_from filled known
  have joined : ∀ source ∈ later, source.joins ≠ [] := by
    intro source member
    obtain ⟨before, after, rfl⟩ := List.append_of_mem member
    have parted : q.sources = (first :: before) ++ source :: after := placed
    have rooted := ((Select.reached_chained reached).joined parted).rooted
    exact fun bare => List.cons_ne_nil first before (rooted.mp bare)
  rw [placed] at known
  have front : ∃ items, Nests readEnclosed (Select.tableTokens q.isAliased first) items ∧ _ :=
    Select.nests_table q.isAliased first
  obtain ⟨items, nests, read⟩ := Select.joins_read q.zone q.isAliased later joined (List.forall_mem_cons.mp known).2 front
  have spelled : q.fromSql.tokens q.zone = .word "from" :: q.fromTokens q.zone := by simpa using clauses.tokens
  have whole : nest readEnclosed [] [] (q.fromSql.tokens q.zone) = some (.token (.word "from") :: items) := by
    rw [spelled, Select.fromTokens, placed]
    exact nest_of_nests (.token rfl nests)
  rw [readFrom, Sql.lex_text clauses.tight]
  simp [whole, read]

def quotedJoins : List Select.Call :=
  [.table "a JOIN (b", .join "c\" ON" (.many [.column "d", .compare (.between (.text "e) AND") (.text "f"))]) "a JOIN (b"
    (.many [.column "g", .column "h"]), .tableAlias ") JOIN", .joinLast "i" (.single (.column "j"))
    (.single (.compare (.notAny (.text "k"))))]

def quotedSources : List Source :=
  [⟨"a JOIN (b", "t" ++ Text.natText 1, [], []⟩,
    ⟨"c\" ON", ") JOIN", [⟨.column "d", "t" ++ Text.natText 1, .column "g"⟩,
      ⟨.compare (.between (.text "e) AND") (.text "f")), "t" ++ Text.natText 1, .column "h"⟩], []⟩,
    ⟨"i", "t" ++ Text.natText 3, [⟨.column "j", ") JOIN", .compare (.notAny (.text "k"))⟩], []⟩]

def quotedFrom : String :=
  "FROM (\"a JOIN (b\" \"t1\" JOIN \"c\"\" ON\" \") JOIN\" ON \") JOIN\".\"d\" = \"t1\".\"g\" AND " ++
    "\"t1\".\"h\" BETWEEN \") JOIN\".\"e) AND\" AND \") JOIN\".\"f\") " ++
    "JOIN \"i\" \"t3\" ON NOT (\"t3\".\"j\" = ANY(\") JOIN\".\"k\"))"

def quotedTables : Tables :=
  .join
    (.join (.table "a JOIN (b" (some "t1")) (.table "c\" ON" (some ") JOIN"))
      [⟨.eq, ⟨") JOIN", "d"⟩, [⟨"t1", "g"⟩]⟩, ⟨.between, ⟨"t1", "h"⟩, [⟨") JOIN", "e) AND"⟩, ⟨") JOIN", "f"⟩]⟩])
    (.table "i" (some "t3")) [⟨.notAny, ⟨"t3", "j"⟩, [⟨") JOIN", "k"⟩]⟩]

def quotedQueryOfJoins : Select := { Select.new .utc with sources := quotedSources }

theorem quoted_from_reads : readFrom quotedFrom = some quotedTables := by
  have run : (Select.new .utc).applyAll quotedJoins = .ok quotedQueryOfJoins := rfl
  have reached : Select.Reached .utc quotedQueryOfJoins := Select.reached_applyAll quotedJoins .start run
  have known : ∀ source ∈ quotedSources, ∀ join ∈ source.joins, join.own.isRaw = false ∧ join.other.isRaw = false := by
    simp [quotedSources, JoinSide.isRaw, Test.isRaw, Comparator.between, Comparator.notAny]
  have read := from_reads .utc reached rfl known
  have spelled : quotedQueryOfJoins.fromSql.text .utc = quotedFrom := by decide +kernel
  have tree : quotedSources.tail.foldl (Select.joinOne true) (.table "a JOIN (b" (some ("t" ++ Text.natText 1))) =
      quotedTables := by decide +kernel
  rw [← spelled, ← tree]
  exact read

end QueryKit
