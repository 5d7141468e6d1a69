import QueryKit.Proofs.FilterMeaning
import QueryKit.Select.Statement

-- The parts of a SELECT statement as tokens: parentheses match in each of them, and none of them
-- opens a clause outside of a parenthesis.

namespace QueryKit
open Lexer

structure Body (zone : Zone) (sql : Sql) : Prop where
  tight : Sql.Tight zone sql
  nests : ∃ items, Nests readInside (sql.tokens zone) items ∧ ∀ i ∈ items, i.opensClause = false

def isInner (ts : List Token) : Bool := ts.all fun t => !t.isParenthesis && !t.opensClause

section
variable {zone : Zone}

theorem nests_inner {ts : List Token} (inner : isInner ts = true) :
    ∃ items, Nests readInside ts items ∧ ∀ i ∈ items, i.opensClause = false := by
  have each := List.all_eq_true.mp inner
  refine ⟨ts.map .token, nests_tokens fun t member => ?_, fun i member => ?_⟩
  · have here := each t member
    simp only [Bool.and_eq_true, Bool.not_eq_true'] at here
    exact here.1
  · obtain ⟨t, inside, rfl⟩ := List.mem_map.mp member
    have here := each t inside
    simp only [Bool.and_eq_true, Bool.not_eq_true'] at here
    exact here.2

theorem Predicate.body {sql : Sql} {meaning : Rows → Truth → Bool} (predicate : Predicate zone sql meaning) :
    Body zone sql := by
  obtain ⟨items, _, nests, _, _, _, free⟩ := predicate.reads
  exact ⟨predicate.tight, items, nests, free⟩

theorem Side.body {sql : Sql} (side : Side zone sql) : Body zone sql := by
  obtain ⟨items, factor⟩ := side.reads
  exact ⟨side.tight, items, factor.nests, opensClause_of_quiet factor.isQuiet⟩

theorem body_nil : Body zone [] := ⟨.nil, [], .nil, by simp⟩

theorem Body.append {a b : Sql} (left : Body zone a) (right : Body zone b)
    (ends : breaks (Sql.chars zone b) = true) : Body zone (a ++ b) := by
  obtain ⟨as, first, quiet⟩ := left.nests
  obtain ⟨bs, second, silent⟩ := right.nests
  refine ⟨left.tight.append right.tight ends, as ++ bs, ?_, List.forall_mem_append.mpr ⟨quiet, silent⟩⟩
  rw [Sql.tokens_append]
  exact first.append second

theorem Body.word {w : String} {ts : List Token} {r : Sql} (lexed : lex w = some ts) (inner : isInner ts = true)
    (complete : (Mode.ground.scan w.toList).2 = .ground) (rest : Body zone r) : Body zone (.word w :: r) := by
  obtain ⟨as, first, quiet⟩ := nests_inner inner
  obtain ⟨bs, second, silent⟩ := rest.nests
  refine ⟨.word complete rest.tight, as ++ bs, ?_, List.forall_mem_append.mpr ⟨quiet, silent⟩⟩
  rw [Sql.tokens_cons, Piece.tokens_word zone lexed]
  exact first.append second

theorem body_last {w : String} {ts : List Token} (lexed : lex w = some ts) (inner : isInner ts = true)
    (whole : (Mode.ground.scan w.toList).2.rests = true) : Body zone [.word w] := by
  obtain ⟨as, first, quiet⟩ := nests_inner inner
  refine ⟨.last whole, as, ?_, quiet⟩
  rw [Sql.tokens_cons, Piece.tokens_word zone lexed, Sql.tokens_nil, List.append_nil]
  exact first

theorem Body.glue {a b : Sql} {w : String} {ts : List Token} (separates : Sql.Separates w) (lexed : lex w = some ts)
    (inner : isInner ts = true) (left : Body zone a) (right : Body zone b) : Body zone (a ++ .word w :: b) :=
  left.append (right.word lexed inner separates.complete) (Sql.breaks_word separates.some separates.ends)

theorem Body.joined {w : String} {ts : List Token} (separates : Sql.Separates w) (lexed : lex w = some ts)
    (inner : isInner ts = true) {parts : List Sql} (each : ∀ part ∈ parts, Body zone part) :
    Body zone (Sql.separated w parts) := by
  induction parts with
  | nil => exact body_nil
  | cons part r ih =>
    have first := each part List.mem_cons_self
    have rest := ih fun p member => each p (List.mem_cons_of_mem _ member)
    cases r with
    | nil => rw [Sql.separated_singleton]; exact first
    | cons next r => rw [Sql.separated_cons_cons]; exact first.glue separates lexed inner rest

theorem Body.listed {parts : List Sql} (each : ∀ part ∈ parts, Body zone part) :
    Body zone (Sql.separated ", " parts) := by
  have comma : lex ", " = some [.mark ","] := rfl
  exact Body.joined Sql.separates_comma comma rfl each

theorem Body.called {w : String} {ts : List Token} {arguments : Sql} (lexed : lex w = some (ts ++ [.mark "("]))
    (inner : isInner ts = true) (complete : (Mode.ground.scan w.toList).2 = .ground)
    (inside : Body zone arguments) : Body zone (.word w :: arguments ++ [.word ")"]) := by
  obtain ⟨as, first, quiet⟩ := nests_inner inner
  obtain ⟨bs, second, _⟩ := inside.nests
  have closed : lex ")" = some [.mark ")"] := rfl
  refine ⟨.word complete (inside.tight.append (.last rfl) (Sql.breaks_word (by decide) rfl)),
    as ++ [enclose readInside bs], ?_, List.forall_mem_append.mpr ⟨quiet, List.forall_mem_singleton.mpr rfl⟩⟩
  have whole := first.append second.enclosed
  simpa [Piece.tokens_word zone lexed, Piece.tokens_word zone closed] using whole

theorem body_column (label : Option String) (name : String) : Body zone (Sql.column label name) := by
  cases label with
  | none => exact (side_name name []).body
  | some table => exact (side_name table [name]).body

end

def Begins (zone : Zone) (sql : Sql) : Prop :=
  ∃ c r, Sql.chars zone sql = c :: r ∧ isSpace c = false ∧ c ≠ '-'

section
variable {zone : Zone}

theorem begins_word {w : String} {c : Char} {cs : List Char} (r : Sql) (first : w.toList = c :: cs)
    (solid : isSpace c = false) (free : c ≠ '-') : Begins zone (.word w :: r) := by
  refine ⟨c, cs ++ Sql.chars zone r, ?_, solid, free⟩
  rw [Sql.chars_cons, Piece.text, first, List.cons_append]

theorem begins_name (s : String) (segments : List String) (r : Sql) : Begins zone (.name (s :: segments) :: r) := by
  have quoted (s : String) : ∃ cs, (Sql.identifier s).toList = '"' :: cs := by
    refine ⟨Sql.doubled '"' s.toList ++ ['"'], ?_⟩
    simp [Sql.identifier, Sql.quotedWith]
  obtain ⟨cs, first⟩ := quoted s
  cases segments with
  | nil =>
    refine ⟨'"', cs ++ Sql.chars zone r, ?_, by decide, by decide⟩
    rw [Sql.chars_cons, Piece.text, Sql.path]
    simp [first]
  | cons t segments =>
    refine ⟨'"', cs ++ '.' :: (Sql.path (t :: segments)).toList ++ Sql.chars zone r, ?_, by decide, by decide⟩
    rw [Sql.chars_cons, Piece.text, path_cons_cons, first]
    simp

theorem Begins.append {a : Sql} (begins : Begins zone a) (b : Sql) : Begins zone (a ++ b) := by
  obtain ⟨c, r, spelled, solid, free⟩ := begins
  exact ⟨c, r ++ Sql.chars zone b, by rw [Sql.chars_append, spelled, List.cons_append], solid, free⟩

theorem Begins.breaks {sql : Sql} (begins : Begins zone sql) : breaks (Sql.chars zone (.word " " :: sql)) = true := by
  obtain ⟨c, r, spelled, solid, free⟩ := begins
  have blank : Sql.chars zone (.word " " :: sql) = ' ' :: c :: r := by
    rw [Sql.chars_cons, spelled, Piece.text]; rfl
  simp [blank, Lexer.breaks, isSeparator, solid, free]

theorem begins_separated (w : String) {part : Sql} (r : List Sql) (begins : Begins zone part) :
    Begins zone (Sql.separated w (part :: r)) := by
  cases r with
  | nil => rwa [Sql.separated_singleton]
  | cons next r => rw [Sql.separated_cons_cons]; exact begins.append _

end

namespace JoinSide

def isRaw : JoinSide → Bool
  | .compare c => (Test.compare c).isRaw
  | .column _ => false

end JoinSide

structure Select.RawFree (q : Select) : Prop where
  items : ∀ source ∈ q.sources, ∀ item ∈ source.items, ∀ sql label, item ≠ .expression sql label
  joins : ∀ source ∈ q.sources, ∀ join ∈ source.joins, join.own.isRaw = false ∧ join.other.isRaw = false
  groups : ∀ g ∈ q.groups, g.conditions.every (!·.isRaw) = true
  order : ∀ term ∈ q.order, ∀ sql, term ≠ .raw sql

namespace Select
variable {zone : Zone}

theorem body_columnOf (q : Select) (source : Source) (name : String) : Body zone [q.columnOf source name] := by
  unfold columnOf
  split
  · exact (side_name _ _).body
  · exact (side_name _ _).body

theorem body_argument (q : Select) (source : Source) (argument : Argument) :
    Body zone (q.argumentSql source argument) := by
  cases argument with
  | column name => exact q.body_columnOf source name
  | value v => exact (side_literal v).body

theorem lex_function (f : SqlFunction) : ∃ t, lex (f.name ++ "(") = some [t, .mark "("] ∧ isInner [t] = true ∧
    (Mode.ground.scan (f.name ++ "(").toList).2 = .ground := by
  cases f <;> exact ⟨_, rfl, rfl, rfl⟩

theorem begins_function (f : SqlFunction) (r : Sql) : Begins zone (.word (f.name ++ "(") :: r) := by
  cases f <;> exact begins_word r rfl rfl (by decide)

theorem body_call (f : SqlFunction) {arguments : Sql} (inside : Body zone arguments) :
    Body zone (callSql f.name arguments) ∧ Begins zone (callSql f.name arguments) := by
  obtain ⟨t, lexed, inner, complete⟩ := lex_function f
  exact ⟨inside.called lexed inner complete, (begins_function f arguments).append _⟩

theorem body_wrapped (wrappers : List SqlFunction) {sql : Sql} (inside : Body zone sql) (begins : Begins zone sql) :
    Body zone (wrappers.foldr (fun w sql => callSql w.name sql) sql) ∧
      Begins zone (wrappers.foldr (fun w sql => callSql w.name sql) sql) := by
  induction wrappers with
  | nil => exact ⟨inside, begins⟩
  | cons w r ih => exact body_call w ih.1

theorem body_withAlias (label : Option String) {sql : Sql} (inside : Body zone sql) (begins : Begins zone sql) :
    Body zone (withAlias label sql) ∧ Begins zone (withAlias label sql) := by
  have lexed : lex " AS " = some [.word "as"] := rfl
  cases label with
  | none => exact ⟨inside, begins⟩
  | some label =>
    have name : Body zone [.name [label]] := (side_name label []).body
    exact ⟨inside.append (name.word lexed rfl rfl) (Sql.breaks_word (by decide) rfl), begins.append _⟩

theorem body_item {q : Select} {source : Source} {item : SelectItem} {sql : Sql}
    (own : ∀ text label, item ≠ .expression text label) (written : q.itemSql? source item = some sql) :
    Body zone sql ∧ Begins zone sql := by
  cases item with
  | column name label =>
    cases written
    have begins : Begins zone [q.columnOf source name] := by
      unfold columnOf
      split <;> exact begins_name _ _ _
    exact body_withAlias label (q.body_columnOf source name) begins
  | expression text label => exact absurd rfl (own text label)
  | call function arguments label wrappers =>
    cases written
    have star : lex "*" = some [.operator "*"] := rfl
    have inner : Body zone (if arguments.isEmpty then [Piece.word "*"]
        else Sql.separated ", " (arguments.map (q.argumentSql source))) := by
      split
      · exact body_last star rfl rfl
      · refine Body.listed fun part member => ?_
        obtain ⟨argument, _, rfl⟩ := List.mem_map.mp member
        exact q.body_argument source argument
    obtain ⟨called, begins⟩ := body_call function inner
    obtain ⟨wrapped, opens⟩ := body_wrapped wrappers called begins
    exact body_withAlias label wrapped opens
  | having name => cases written

theorem forall_mem_distinctTexts {p : Sql → Prop} (items : List Sql) (each : ∀ item ∈ items, p item) :
    ∀ item ∈ distinctTexts zone items, p item := by
  have kept (done : List Sql) (before : ∀ item ∈ done, p item) : ∀ item ∈ items.foldl (fun done item =>
      if done.any fun d => Sql.text zone d == Sql.text zone item then done else done ++ [item]) done, p item := by
    induction items generalizing done with
    | nil => exact before
    | cons item r ih =>
      obtain ⟨here, later⟩ := List.forall_mem_cons.mp each
      refine ih later _ ?_
      show ∀ kept ∈ if done.any fun d => Sql.text zone d == Sql.text zone item then done else done ++ [item], p kept
      split
      · exact before
      · exact List.forall_mem_append.mpr ⟨before, List.forall_mem_singleton.mpr here⟩
  exact kept [] (by simp)

theorem distinctTexts_behind (zone : Zone) (items : List Sql) (item : Sql) : distinctTexts zone (items ++ [item]) =
    if (distinctTexts zone items).any fun d => d.text zone == item.text zone then distinctTexts zone items
    else distinctTexts zone items ++ [item] := by
  rw [distinctTexts, List.foldl_append]
  rfl

theorem body_list (zone : Zone) {q : Select}
    (own : ∀ source ∈ q.sources, ∀ item ∈ source.items, ∀ sql label, item ≠ .expression sql label) :
    Body zone q.listSql ∧ Begins zone q.listSql := by
  have each : ∀ sql ∈ distinctTexts q.zone q.expressions, Body zone sql ∧ Begins zone sql := by
    refine forall_mem_distinctTexts _ fun sql member => ?_
    obtain ⟨source, known, inside⟩ := List.mem_flatMap.mp member
    obtain ⟨item, present, written⟩ := List.mem_filterMap.mp inside
    exact body_item (own source known item present) written
  have star : lex "*" = some [.operator "*"] := rfl
  unfold listSql
  generalize distinctTexts q.zone q.expressions = items at each
  cases items with
  | nil => exact ⟨body_last star rfl rfl, begins_word [] rfl rfl (by decide)⟩
  | cons first r =>
    exact ⟨Body.listed fun part member => (each part member).1,
      begins_separated ", " r (each first List.mem_cons_self).2⟩

theorem body_distinctOn (label : Option String) (columns : List String) :
    Body zone (.word " DISTINCT ON (" :: Sql.separated ", " (columns.map (Sql.column label)) ++ [.word ")"]) := by
  have opened : lex " DISTINCT ON (" = some ([.word "distinct", .word "on"] ++ [.mark "("]) := rfl
  have columns : Body zone (Sql.separated ", " (columns.map (Sql.column label))) := by
    refine Body.listed fun part member => ?_
    obtain ⟨column, _, rfl⟩ := List.mem_map.mp member
    exact body_column label column
  exact columns.called opened rfl rfl

theorem body_joinComparison (s : String) (r : List String) (c : Comparator) (label : String)
    (known : (Test.compare c).isRaw = false) : Body zone (joinComparison (s :: r) c label) := by
  have column : Side zone [.name (s :: r)] := side_name s r
  obtain ⟨op, operand, fits⟩ := c
  cases operand with
  | raw template escapes => cases known
  | range lower upper =>
    exact (predicate_between op column (side_name label [lower.nameText]) (side_name label [upper.nameText])).body
  | value v | expression v =>
    simp only [Operand.fits, Bool.and_eq_true, Bool.not_eq_true', bne_iff_ne] at fits
    have other : Side zone (operandColumn label v) := side_name _ _
    by_cases denied : op = .notAny
    · subst denied
      exact (predicate_notAny column other).body
    · exact (predicate_one fits.1 fits.2 denied column other).body

theorem body_join (source : Source) (join : Join) (known : join.own.isRaw = false ∧ join.other.isRaw = false) :
    Body zone (joinSql source join) := by
  obtain ⟨own, target, other⟩ := join
  cases own with
  | compare c => exact body_joinComparison _ _ c _ known.1
  | column name =>
    cases other with
    | compare c => exact body_joinComparison _ _ c _ known.2
    | column against =>
      have inner : Side zone [.name [source.label, name]] := side_name _ _
      exact (predicate_binary inner (side_name target [against]) separates_equals rfl rfl).body

theorem body_table (aliased : Bool) (source : Source) : Body zone (tableSql aliased source) := by
  have lexed : lex " " = some [] := rfl
  have table : Body zone [.name [source.table]] := (side_name _ _).body
  cases aliased with
  | false => exact table
  | true =>
    have label : Body zone [.name [source.label]] := (side_name _ _).body
    exact table.append (label.word lexed rfl rfl) (begins_name source.label [] []).breaks

def joinClause (aliased : Bool) (source : Source) : Sql :=
  .word " JOIN " :: tableSql aliased source ++
    .word " ON " :: Sql.separated " AND " (source.joins.map (joinSql source))

theorem joinedSql_cons (aliased : Bool) (source : Source) (r : List Source) :
    joinedSql aliased (source :: r) =
      joinClause aliased source ++ ((if r.isEmpty then [] else [.word ")"]) ++ joinedSql aliased r) := by
  simp [joinedSql, joinClause]

theorem body_joinClause (aliased : Bool) (source : Source)
    (known : ∀ join ∈ source.joins, join.own.isRaw = false ∧ join.other.isRaw = false) :
    Body zone (joinClause aliased source) := by
  have joining : lex " JOIN " = some [.word "join"] := rfl
  have matching : lex " ON " = some [.word "on"] := rfl
  have both : lex " AND " = some [.word "and"] := rfl
  have conditions : Body zone (Sql.separated " AND " (source.joins.map (joinSql source))) := by
    refine Body.joined ⟨rfl, rfl, by decide⟩ both rfl fun part member => ?_
    obtain ⟨join, inside, rfl⟩ := List.mem_map.mp member
    exact body_join source join (known join inside)
  exact ((body_table aliased source).append (conditions.word matching rfl rfl)
    (Sql.breaks_word (by decide) rfl)).word joining rfl rfl

theorem tight_joinedSql (zone : Zone) (aliased : Bool) (sources : List Source)
    (known : ∀ source ∈ sources, ∀ join ∈ source.joins, join.own.isRaw = false ∧ join.other.isRaw = false) :
    Sql.Tight zone (joinedSql aliased sources) ∧ breaks (Sql.chars zone (joinedSql aliased sources)) = true := by
  induction sources with
  | nil => exact ⟨.nil, rfl⟩
  | cons source r ih =>
    obtain ⟨here, later⟩ := List.forall_mem_cons.mp known
    obtain ⟨tight, ends⟩ := ih later
    have first : Body zone (joinClause aliased source) := body_joinClause aliased source here
    rw [joinedSql_cons]
    refine ⟨first.tight.append ?_ ?_, Sql.breaks_word (by decide) rfl⟩
    · split
      · exact tight
      · exact (Sql.Tight.last rfl).append tight ends
    · split
      · exact ends
      · exact Sql.breaks_word (by decide) rfl

theorem nests_joinedSql (zone : Zone) (aliased : Bool) (sources : List Source)
    (known : ∀ source ∈ sources, ∀ join ∈ source.joins, join.own.isRaw = false ∧ join.other.isRaw = false)
    (ts : List Token) (before : ∃ items, Nests readInside ts items ∧ ∀ i ∈ items, i.opensClause = false) :
    ∃ items, Nests readInside (List.replicate (sources.length - 1) (.mark "(") ++
        (ts ++ Sql.tokens zone (joinedSql aliased sources))) items ∧ ∀ i ∈ items, i.opensClause = false := by
  induction sources generalizing ts with
  | nil => simpa [joinedSql] using before
  | cons source r ih =>
    obtain ⟨here, later⟩ := List.forall_mem_cons.mp known
    obtain ⟨as, first, quiet⟩ := before
    have join : Body zone (joinClause aliased source) := body_joinClause aliased source here
    obtain ⟨bs, second, silent⟩ := join.nests
    have whole := first.append second
    have free := List.forall_mem_append.mpr ⟨quiet, silent⟩
    rw [joinedSql_cons]
    cases r with
    | nil => exact ⟨as ++ bs, by simpa [joinedSql] using whole, free⟩
    | cons next r =>
      have closed : lex ")" = some [.mark ")"] := rfl
      obtain ⟨items, nests, silent⟩ := ih later _
        ⟨[enclose readInside (as ++ bs)], whole.enclosed, List.forall_mem_singleton.mpr rfl⟩
      refine ⟨items, ?_, silent⟩
      have deeper : List.replicate ((source :: next :: r).length - 1) (Token.mark "(") =
          List.replicate ((next :: r).length - 1) (.mark "(") ++ [.mark "("] := by
        simp [List.replicate_succ']
      rw [deeper]
      simpa [Piece.tokens_word zone closed] using nests

end Select

end QueryKit
