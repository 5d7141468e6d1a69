import QueryKit.Proofs.CallOutcomes
import QueryKit.Proofs.SelectClauses

-- Statements of queries that were put together call by call: as rows the clauses of the query, as
-- JSON the same statement in parentheses, behind the words that make an array of it.

namespace QueryKit
open Text Lexer

namespace Select

def Linked (q : Select) : Prop := ∀ g ∈ q.groups, ∀ s, g.subquery = some s → s.link.check = .ok ()

theorem groups_noteMisuse (fault : QueryFault) (q : Select) : (q.noteMisuse fault).groups = q.groups := by
  unfold noteMisuse
  split <;> rfl

theorem groups_addItems (items : List SelectItem) (q : Select) : (addItems items q).groups = q.groups := by
  unfold addItems
  split
  · rfl
  · split
    · exact groups_noteMisuse _ q
    · rfl

theorem apply_groups {q next : Select} {c : Call} (applied : q.apply c = .ok next) :
    next.groups = q.groups ∨
      ∃ g, next.groups = q.groups ++ [g] ∧ ∀ s, g.subquery = some s → s.link.check = .ok () := by
  cases makes_of_apply applied with
  | unjoined | unaliased => exact .inl (groups_noteMisuse _ q)
  | columns | expression | having => exact .inl (groups_addItems _ q)
  | called function arguments label => exact .inl (groups_addItems _ { q with pending := [] })
  | filtered | filteredOn =>
    refine .inr ⟨_, rfl, ?_⟩
    rintro s ⟨⟩
  | linked checked found =>
    refine .inr ⟨_, rfl, ?_⟩
    rintro s ⟨⟩
    exact checked
  | _ => exact .inl rfl

theorem apply_linked {q next : Select} {c : Call} (applied : q.apply c = .ok next) (linked : q.Linked) :
    next.Linked := by
  rcases apply_groups applied with same | ⟨g, added, checked⟩
  · intro h member
    exact linked h (same ▸ member)
  · intro h member
    rw [added] at member
    rcases List.mem_append.mp member with earlier | last
    · exact linked h earlier
    · cases List.mem_singleton.mp last
      exact checked

theorem applyAll_linked {q last : Select} (calls : List Call) (applied : q.applyAll calls = .ok last)
    (linked : q.Linked) : last.Linked := by
  induction calls generalizing q with
  | nil => cases applied; exact linked
  | cons c r ih =>
    obtain ⟨next, here, rest⟩ := ok_of_bind applied
    exact ih rest (apply_linked here linked)

theorem new_linked (zone : Zone) : (new zone).Linked := by
  intro g member
  cases member

theorem forall_mem_mapLast {α : Type} {p : α → Prop} {change : α → α} (kept : ∀ a, p a → p (change a)) (as : List α)
    (each : ∀ a ∈ as, p a) : ∀ a ∈ mapLast change as, p a := by
  induction as using mapLast.induct with
  | case1 => exact each
  | case2 a => exact List.forall_mem_singleton.mpr (kept a (each a List.mem_cons_self))
  | case3 a b r ih =>
    obtain ⟨here, later⟩ := List.forall_mem_cons.mp each
    exact List.forall_mem_cons.mpr ⟨here, ih later⟩

theorem mapLast_ne_nil {α : Type} (change : α → α) {as : List α} (filled : as ≠ []) : mapLast change as ≠ [] := by
  induction as using mapLast.induct with
  | case1 => exact filled
  | case2 a => exact List.cons_ne_nil _ _
  | case3 a b r ih => exact List.cons_ne_nil _ _

theorem flush_cases {q : Select} (filled : q.sources ≠ []) :
    q.flush = q ∨ ∃ function wrappers, q.flush = { q with
      pending := []
      sources := mapLast (fun s => { s with items := s.items ++ [.call function [] none wrappers] }) q.sources } := by
  have tabled : q.sources.isEmpty = false := by simpa using filled
  unfold flush
  cases q.pending.getLast? with
  | none => exact .inl rfl
  | some function =>
    right
    refine ⟨function, q.pending.dropLast, ?_⟩
    simp [addCall, addItems, tabled]

theorem flush_ne_nil {q : Select} (filled : q.sources ≠ []) : q.flush.sources ≠ [] := by
  rcases flush_cases filled with same | ⟨function, wrappers, called⟩
  · rwa [same]
  · rw [called]
    exact mapLast_ne_nil _ filled

theorem flush_kept {q : Select} (filled : q.sources ≠ []) :
    q.flush.format = q.format ∧ q.flush.transform = q.transform ∧ q.flush.groups = q.groups := by
  rcases flush_cases filled with same | ⟨function, wrappers, called⟩
  · rw [same]
    exact ⟨rfl, rfl, rfl⟩
  · rw [called]
    exact ⟨rfl, rfl, rfl⟩

theorem RawFree.flush {q : Select} (free : q.RawFree) (filled : q.sources ≠ []) : q.flush.RawFree := by
  rcases flush_cases filled with same | ⟨function, wrappers, called⟩
  · rwa [same]
  · rw [called]
    refine ⟨forall_mem_mapLast (fun source own => ?_) q.sources free.items, ?_, free.groups, free.order⟩
    · refine List.forall_mem_append.mpr ⟨own, List.forall_mem_singleton.mpr fun sql label found => ?_⟩
      cases found
    · let known (source : Source) : Prop := ∀ join ∈ source.joins, join.own.isRaw = false ∧ join.other.isRaw = false
      have kept (source : Source) (joined : known source) :
          known { source with items := source.items ++ [.call function [] none wrappers] } := joined
      exact forall_mem_mapLast (p := known) kept q.sources free.joins

theorem sections_clauses (zone : Zone) {q : Select} (free : q.RawFree) (linked : q.Linked)
    (filled : q.sources ≠ []) : Sections zone q.clauses (q.clauseTokens zone) := by
  have known : ∀ g ∈ q.groups, g.Known := fun g member => ⟨linked g member, free.groups g member⟩
  have list : Clauses zone _ _ := clauses_select free.items
  have head := (sections_one list).append (sections_one (clauses_from filled free.joins))
  have filtered := head.append (sections_where zone q.isAliased q.groups known)
  have grouped := (filtered.append (sections_groupBy zone q)).append (sections_having zone q)
  have whole := (grouped.append (sections_order zone free.order)).append (sections_limit zone q)
  simpa only [clauses, clauseTokens, whereSql?, List.append_assoc, List.cons_append, List.nil_append] using whole

theorem rows_split {zone : Zone} {q : Select} (free : q.RawFree) (linked : q.Linked) (filled : q.sources ≠ []) :
    Sql.Tight zone q.rowsSql ∧ (∃ items, Nests readInside (q.rowsSql.tokens zone) items) ∧
      (lex (q.rowsSql.text zone)).map (cut 0) = some ([], q.clauseTokens zone) := by
  obtain ⟨parts, written, all, each⟩ := sections_clauses zone free linked filled
  obtain ⟨tight, tokens⟩ := clauses_separated parts each
  unfold rowsSql
  rw [written, all]
  refine ⟨tight, ?_, cut_separated parts each⟩
  rw [tokens]
  refine nests_clauses _ (fun c member => ?_) fun c member => ?_
  · obtain ⟨part, known, inside⟩ := List.mem_flatMap.mp member
    exact (each part known).opens c inside
  · obtain ⟨part, known, inside⟩ := List.mem_flatMap.mp member
    exact (each part known).bodies c inside

def arrayTokens : List Token :=
  [.word "array_to_json", .mark "(", .word "array_agg", .mark "(", .word "t", .mark ")", .mark ")"]

def aggregateTokens : Option Transform → List Token
  | none => arrayTokens
  | some t =>
    .name t.function :: .mark "(" :: arrayTokens ++ (t.arguments.elim [] fun j => [.mark ",", .text j.compact]) ++
      [.mark ")"]

def jsonClauses (transform : Option Transform) (rows : List Token) : List (Token × List Token) :=
  [(.word "select", aggregateTokens transform ++ [.mark "::", .word "text", .word "as", .word "json"]),
    (.word "from", .mark "(" :: rows ++ [.mark ")", .word "t"])]

section
variable {zone : Zone}

theorem lex_array : lex "array_to_json(array_agg(t))" = some arrayTokens := rfl

theorem body_array : Body zone [.word "array_to_json(array_agg(t))"] := by
  have tokens : Nests readInside [.word "t"] _ := nests_token rfl
  have rows : Nests readInside [.word "array_agg"] _ := nests_token rfl
  have array : Nests readInside [.word "array_to_json"] _ := nests_token rfl
  have nests : Nests readInside arrayTokens _ := array.append (rows.append tokens.enclosed).enclosed
  have spelled : Sql.tokens zone [.word "array_to_json(array_agg(t))"] = arrayTokens := by
    rw [Sql.tokens_cons, Piece.tokens_word zone lex_array, Sql.tokens_nil, List.append_nil]
  refine ⟨.last rfl, _, spelled ▸ nests, ?_⟩
  exact List.forall_mem_cons.mpr ⟨rfl, List.forall_mem_singleton.mpr rfl⟩

theorem body_aggregate (transform : Option Transform) :
    Body zone (aggregateSql transform) ∧ Sql.tokens zone (aggregateSql transform) = aggregateTokens transform := by
  have comma : lex ", " = some [.mark ","] := rfl
  have opened : lex "(" = some ([] ++ [.mark "("]) := rfl
  have closed : lex ")" = some [.mark ")"] := rfl
  cases transform with
  | none =>
    refine ⟨body_array, ?_⟩
    simp [aggregateSql, aggregateTokens, Piece.tokens_word zone lex_array]
  | some t =>
    have function : Body zone [.name [t.function]] := (side_name _ _).body
    obtain ⟨name, arguments⟩ := t
    cases arguments with
    | none =>
      have array : Body zone [.word "array_to_json(array_agg(t))"] := body_array
      refine ⟨function.append (array.called opened rfl rfl) (Sql.breaks_word (by decide) rfl), ?_⟩
      simp [aggregateSql, aggregateTokens, Piece.tokens_word zone lex_array, Piece.tokens_word zone opened,
        Piece.tokens_word zone closed, pathTokens]
    | some j =>
      have literal : Body zone [.literal (.text j.compact)] := (side_literal _).body
      have arguments := body_array.append (literal.word comma rfl rfl) (Sql.breaks_word (by decide) rfl)
      refine ⟨function.append (arguments.called opened rfl rfl) (Sql.breaks_word (by decide) rfl), ?_⟩
      simp [aggregateSql, aggregateTokens, Piece.tokens_word zone lex_array, Piece.tokens_word zone opened,
        Piece.tokens_word zone closed, Piece.tokens_word zone comma, pathTokens, literalTokens]

-- The aggregate ends with a parenthesis, so that anything may come behind it.
theorem tight_aggregate (transform : Option Transform) {r : Sql} (rest : Sql.Tight zone r) :
    Sql.Tight zone (aggregateSql transform ++ r) := by
  cases transform with
  | none => exact .word rfl rest
  | some t =>
    obtain ⟨name, arguments⟩ := t
    have closed : Sql.Tight zone (.word ")" :: r) := .word rfl rest
    have ends : breaks (Sql.chars zone (.word ")" :: r)) = true := Sql.breaks_word (by decide) rfl
    cases arguments with
    | none => exact .name (Sql.breaks_word (by decide) rfl) (.word rfl (.word rfl closed))
    | some j =>
      have literal : Sql.Tight zone (.word ", " :: .literal (.text j.compact) :: .word ")" :: r) :=
        .word rfl (.literal ends closed)
      exact .name (Sql.breaks_word (by decide) rfl) (.word rfl (.word rfl literal))

theorem tight_json (transform : Option Transform) {rows : Sql} (tight : Sql.Tight zone rows) :
    Sql.Tight zone (.word "SELECT " :: (aggregateSql transform ++ .word "::text AS json FROM (" :: rows ++
      [.word ") t"])) := by
  have inside : Sql.Tight zone (.word "::text AS json FROM (" :: rows ++ [.word ") t"]) :=
    .word rfl (tight.append (.last rfl) (Sql.breaks_word (by decide) rfl))
  rw [List.append_assoc]
  exact .word rfl (tight_aggregate transform inside)

theorem json_split (transform : Option Transform) {rows : Sql} (tight : Sql.Tight zone rows)
    (nests : ∃ items, Nests readInside (rows.tokens zone) items) :
    (lex (Sql.text zone (.word "SELECT " :: aggregateSql transform ++ .word "::text AS json FROM (" :: rows ++
      [.word ") t"]))).map (cut 0) = some ([], jsonClauses transform (rows.tokens zone)) := by
  have selecting : lex "SELECT " = some [.word "select"] := rfl
  have naming : lex "::text AS json FROM (" =
    some [.mark "::", .word "text", .word "as", .word "json", .word "from", .mark "("] := rfl
  have closing : lex ") t" = some [.mark ")", .word "t"] := rfl
  have inner : isInner [.mark "::", .word "text", .word "as", .word "json"] = true := rfl
  obtain ⟨body, tokens⟩ : Body zone (aggregateSql transform) ∧ _ := body_aggregate transform
  obtain ⟨as, first, free⟩ := body.nests
  obtain ⟨bs, label, quiet⟩ := nests_inner inner
  obtain ⟨cs, second⟩ := nests
  have whole := tight_json transform tight
  have selected : Together 0 (aggregateTokens transform ++ [.mark "::", .word "text", .word "as", .word "json"]) := by
    rw [tokens] at first
    exact (first.append label).together (List.forall_mem_append.mpr ⟨free, quiet⟩)
  have source : Together 0 (.mark "(" :: rows.tokens zone ++ [.mark ")", .word "t"]) := by
    have table : Nests readInside [Token.word "t"] _ := nests_token rfl
    exact Nests.together (.group second table) (List.forall_mem_cons.mpr ⟨rfl, List.forall_mem_singleton.mpr rfl⟩)
  have clauses := cut_clauses (jsonClauses transform (rows.tokens zone))
    (List.forall_mem_cons.mpr ⟨rfl, List.forall_mem_singleton.mpr rfl⟩)
    (List.forall_mem_cons.mpr ⟨selected, List.forall_mem_singleton.mpr source⟩)
  have tokenized : Sql.tokens zone (.word "SELECT " :: (aggregateSql transform ++ .word "::text AS json FROM (" ::
      rows ++ [.word ") t"])) = (jsonClauses transform (rows.tokens zone)).flatMap fun c => c.1 :: c.2 := by
    simp [jsonClauses, Piece.tokens_word zone selecting, Piece.tokens_word zone naming,
      Piece.tokens_word zone closing, tokens]
  rw [List.cons_append, List.cons_append, Sql.lex_text whole, tokenized, Option.map_some, clauses]

end

theorem flush_rows (q : Select) (filled : q.sources ≠ []) :
    { q with format := .rows }.flush = { q.flush with format := .rows } := by
  have tabled : q.sources.isEmpty = false := by simpa using filled
  unfold flush
  cases q.pending.getLast? with
  | none => rfl
  | some function => simp [addCall, addItems, tabled]

theorem render_rows {zone : Zone} {transform : Option Transform} {rows : Sql} {text : String}
    (written : Sql.render zone (.word "SELECT " :: aggregateSql transform ++ .word "::text AS json FROM (" :: rows ++
      [.word ") t"]) = .ok text) :
    rows.render zone = .ok (rows.text zone) ∧ text = "SELECT " ++ Sql.text zone (aggregateSql transform) ++
      "::text AS json FROM (" ++ rows.text zone ++ ") t" := by
  have spelled := Sql.text_of_render written
  unfold Sql.render at written ⊢
  split at written
  case isFalse => cases written
  case isTrue fits =>
    simp only [List.all_append, List.all_cons, Bool.and_eq_true] at fits
    refine ⟨if_pos (by tauto), ?_⟩
    rw [spelled]
    simp [Sql.text_append, Sql.text_cons, Sql.text_nil, Piece.text, String.append_assoc]

theorem check_filled {kind : StatementKind} {q : Select} (checked : q.check kind = .ok ()) : q.sources ≠ [] := by
  unfold check at checked
  split at checked
  · cases checked
  · split at checked
    · cases checked
    case isFalse tabled => simpa using tabled

theorem build_cases (q : Select) : q.build.2 = q ∨ q.sources ≠ [] ∧ q.build.2 = q.flush := by
  unfold build
  split
  · exact .inl rfl
  case h_2 checked => exact .inr ⟨check_filled checked, rfl⟩

theorem build_parts {q next : Select} {text : String} (built : q.build = (.ok text, next)) :
    q.check .select = .ok () ∧ next = q.flush ∧ q.flush.statementSql.render q.zone = .ok text := by
  unfold build at built
  split at built
  · cases built
  case h_2 checked =>
    obtain ⟨written, after⟩ := Prod.mk.inj built
    exact ⟨checked, after.symm, written⟩

end Select

-- Where the statement of a query that was put together call by call can be cut. As rows its clauses
-- are those that the query holds; as JSON it is one statement of rows in parentheses.
theorem statement_cut (zone : Zone) (calls : List Select.Call) {q next : Select}
    (reached : (Select.new zone).applyAll calls = .ok q) (free : q.RawFree) {text : String}
    (built : q.build = (.ok text, next)) :
    match q.format with
    | .rows => (lex text).map (cut 0) = some ([], next.clauseTokens q.zone)
    | .json => ∃ rows ts, { q with format := .rows }.build = (.ok rows, { next with format := .rows }) ∧
        text = "SELECT " ++ Sql.text q.zone (Select.aggregateSql q.transform) ++ "::text AS json FROM (" ++ rows ++
          ") t" ∧
        (lex text).map (cut 0) = some ([], Select.jsonClauses q.transform ts) ∧
        lex rows = some ts ∧ cut 0 ts = ([], next.clauseTokens q.zone) := by
  obtain ⟨checked, rfl, written⟩ := Select.build_parts built
  have filled := Select.check_filled checked
  obtain ⟨sameFormat, sameTransform, sameGroups⟩ := Select.flush_kept filled
  have linked : q.flush.Linked := by
    intro g member
    rw [sameGroups] at member
    exact Select.applyAll_linked calls reached (Select.new_linked zone) g member
  obtain ⟨tight, nests, split⟩ : Sql.Tight q.zone q.flush.rowsSql ∧ _ :=
    Select.rows_split (free.flush filled) linked (Select.flush_ne_nil filled)
  rw [Select.statementSql, sameFormat] at written
  cases format : q.format with
  | rows =>
    rw [format] at written
    rw [Sql.text_of_render written]
    exact split
  | json =>
    rw [format, sameTransform] at written
    obtain ⟨rows, spelled⟩ := Select.render_rows written
    have cutting := Sql.text_of_render written ▸ Select.json_split q.transform tight nests
    have lexed := Sql.lex_text tight
    refine ⟨_, _, ?_, spelled, cutting, lexed, ?_⟩
    · have checkedRows : { q with format := .rows }.check .select = .ok () := checked
      rw [Select.build, checkedRows]
      simp only [Select.flush_rows q filled]
      exact Prod.ext rows rfl
    · rw [lexed] at split
      exact Option.some.inj split

def quotedSteps : List Select.Call :=
  [.table "a\" WHERE (", .columns ["b FROM c"], .distinctOn ["d) FROM"],
    .filter none (.node [] [("e", .value (.text "') GROUP BY 1 --"))]), .having "f LIMIT 1",
    .groupBy ["-g"], .order "h" .ascending]

def quotedQuery : Select :=
  { Select.new .utc with
    sources := [⟨"a\" WHERE (", "t" ++ Text.natText 1, [], [.column "b FROM c" none, .having "f LIMIT 1"]⟩]
    groups := [.plain none (.node [] [("e", .value (.text "') GROUP BY 1 --"))])]
    order := [.column none "h" .ascending]
    groupBy := some ["-g"]
    distinctOn := some ["d) FROM"] }

def quotedStatement : String :=
  "SELECT DISTINCT ON (\"d) FROM\") \"b FROM c\" FROM \"a\"\" WHERE (\" WHERE \"e\" = ''') GROUP BY 1 --' " ++
    "GROUP BY \"g\" HAVING \"f LIMIT 1\" ORDER BY \"g\" DESC, \"h\" ASC"

def quotedClauses : List (Token × List Token) :=
  [(.word "select", [.word "distinct", .word "on", .mark "(", .name "d) FROM", .mark ")", .name "b FROM c"]),
    (.word "from", [.name "a\" WHERE ("]),
    (.word "where", [.name "e", .operator "=", .text "') GROUP BY 1 --"]),
    (.word "group", [.word "by", .name "g"]),
    (.word "having", [.name "f LIMIT 1"]),
    (.word "order", [.word "by", .name "g", .word "desc", .mark ",", .name "h", .word "asc"])]

theorem quoted_statement_cut : (lex quotedStatement).map (cut 0) = some ([], quotedClauses) := by
  have reached : (Select.new .utc).applyAll quotedSteps = .ok quotedQuery := rfl
  have free : quotedQuery.RawFree := by
    refine ⟨?_, ?_, List.forall_mem_singleton.mpr rfl, ?_⟩ <;> simp [quotedQuery]
  have built : quotedQuery.build = (.ok quotedStatement, quotedQuery) := rfl
  have clauses : quotedQuery.clauseTokens .utc = quotedClauses := by decide +kernel
  rw [← clauses]
  exact statement_cut .utc quotedSteps reached free built

end QueryKit
