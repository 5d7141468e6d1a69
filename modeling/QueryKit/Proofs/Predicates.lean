import QueryKit.Filter
import QueryKit.Proofs.BooleanReading

-- Text that reads as a predicate or as a condition, and how a statement puts it together: sides with
-- an operator between them, conditions in parentheses, chains of AND and OR, subqueries.

namespace QueryKit
open Lexer

-- Text that reads as one predicate, which no AND and no OR around it takes apart.
structure Predicate (zone : Zone) (sql : Sql) (meaning : Rows → Truth → Bool) : Prop where
  tight : Sql.Tight zone sql
  reads : ∃ items f, Nests readInside (sql.tokens zone) items ∧ Unbroken items ∧ readPredicate items = some f ∧
    (∀ rows σ, f.eval rows σ = meaning rows σ) ∧ ∀ i ∈ items, i.opensClause = false

structure Condition (zone : Zone) (sql : Sql) (meaning : Rows → Truth → Bool) : Prop where
  tight : Sql.Tight zone sql
  reads : ∃ items f, Nests readInside (sql.tokens zone) items ∧ readCondition items = some f ∧
    (∀ rows σ, f.eval rows σ = meaning rows σ) ∧ ∀ i ∈ items, i.opensClause = false

structure Side (zone : Zone) (sql : Sql) : Prop where
  tight : Sql.Tight zone sql
  reads : ∃ items, Factor readInside (sql.tokens zone) items

section
variable {zone : Zone}

theorem side_name (s : String) (r : List String) : Side zone [.name (s :: r)] := by
  refine ⟨.name rfl .nil, (pathTokens (s :: r)).map .token, ?_⟩
  simpa using factor_path s r

theorem side_literal (v : Value) : Side zone [.literal v] := by
  obtain ⟨items, factor⟩ := factor_literal zone v
  exact ⟨.literal rfl .nil, items, by simpa using factor⟩

theorem Lexer.Factor.isQuiet {ts : List Token} {items : List (Item Inside)} (factor : Factor readInside ts items) :
    ∀ i ∈ items, i.isQuiet = true :=
  fun i member => isQuiet_of_isPlain (factor.plain i member)

theorem opensClause_of_quiet {items : List (Item Inside)} (quiet : ∀ i ∈ items, i.isQuiet = true) :
    ∀ i ∈ items, i.opensClause = false := by
  intro i member
  have here := quiet i member
  simp only [Item.isQuiet, Bool.and_eq_true, Bool.not_eq_true'] at here
  exact here.2

def isMiddle (ts : List Token) : Bool :=
  ts.all fun t => !t.isParenthesis && (Item.token t : Item Inside).isQuiet

theorem nests_middle {ts : List Token} (middle : isMiddle ts = true) : Nests readInside ts (ts.map .token) := by
  refine nests_tokens fun t member => ?_
  have here := List.all_eq_true.mp middle t member
  simp only [Bool.and_eq_true, Bool.not_eq_true'] at here
  exact here.1

theorem quiet_middle {ts : List Token} (middle : isMiddle ts = true) :
    ∀ i ∈ ts.map (Item.token : Token → Item Inside), i.isQuiet = true := by
  intro i member
  obtain ⟨t, inside, rfl⟩ := List.mem_map.mp member
  have here := List.all_eq_true.mp middle t inside
  simp only [Bool.and_eq_true] at here
  exact here.2

theorem readPredicate_factor {ts us : List Token} {left rest : List (Item Inside)}
    (factor : Factor readInside ts left) (nests : Nests readInside us (left ++ rest)) :
    readPredicate (left ++ rest) = some (.atom us) := by
  obtain ⟨t, r, rfl⟩ := factor.begins
  have plain := factor.plain (.token t) List.mem_cons_self
  have word (w : String) (member : w ∈ reserved) : t ≠ .word w := by
    rintro rfl
    have clear := List.all_eq_true.mp plain w member
    simp [Item.isWord] at clear
  have spelled := nests.spelled
  rw [List.cons_append, readPredicate, if_neg (word "not" (by decide)), if_neg (word "exists" (by decide)), ← spelled]
  rfl

theorem predicate_atom {sql : Sql} {ts : List Token} {left rest : List (Item Inside)} (tight : Sql.Tight zone sql)
    (factor : Factor readInside ts left) (nests : Nests readInside (sql.tokens zone) (left ++ rest))
    (unbroken : Unbroken (left ++ rest)) (free : ∀ i ∈ left ++ rest, i.opensClause = false) :
    Predicate zone sql fun _ σ => σ (sql.tokens zone) :=
  ⟨tight, left ++ rest, .atom (sql.tokens zone), nests, unbroken, readPredicate_factor factor nests,
    fun _ _ => rfl, free⟩

theorem Predicate.means {sql : Sql} {meaning other : Rows → Truth → Bool} (predicate : Predicate zone sql meaning)
    (same : ∀ rows σ, meaning rows σ = other rows σ) : Predicate zone sql other := by
  have equal : meaning = other := by funext rows σ; exact same rows σ
  exact equal ▸ predicate

theorem predicate_binary {left right : Sql} {w : String} {ws : List Token} (first : Side zone left)
    (second : Side zone right) (separates : Sql.Separates w) (lexed : lex w = some ws)
    (middle : isMiddle ws = true) :
    Predicate zone (left ++ .word w :: right) fun _ σ => σ (Sql.tokens zone (left ++ .word w :: right)) := by
  obtain ⟨as, a⟩ := first.reads
  obtain ⟨bs, b⟩ := second.reads
  have quiet := List.forall_mem_append.mpr ⟨a.isQuiet, List.forall_mem_append.mpr ⟨quiet_middle middle, b.isQuiet⟩⟩
  refine predicate_atom (first.tight.glue separates second.tight) a ?_ (unbroken_of_quiet quiet)
    (opensClause_of_quiet quiet)
  rw [Sql.tokens_append, Sql.tokens_cons, Piece.tokens_word zone lexed]
  exact a.nests.append ((nests_middle middle).append b.nests)

theorem nests_quantified {left right : Sql} {w : String} {ws : List Token} {as bs : List (Item Inside)}
    (a : Factor readInside (left.tokens zone) as) (b : Factor readInside (right.tokens zone) bs)
    (lexed : lex w = some (ws ++ [.mark "("])) (middle : isMiddle ws = true) :
    Nests readInside (Sql.tokens zone (left ++ .word w :: right ++ [.word ")"]))
      (as ++ (ws.map .token ++ [enclose readInside bs])) := by
  have closed : lex ")" = some [.mark ")"] := rfl
  have whole := a.nests.append ((nests_middle middle).append b.nests.enclosed)
  simpa [Piece.tokens_word zone lexed, Piece.tokens_word zone closed] using whole

theorem quiet_quantified {ws : List Token} {as bs : List (Item Inside)} {ts : List Token}
    (a : Factor readInside ts as) (middle : isMiddle ws = true) :
    ∀ i ∈ as ++ (ws.map .token ++ [enclose readInside bs]), i.isQuiet = true := by
  simp only [List.forall_mem_append, List.forall_mem_singleton]
  exact ⟨a.isQuiet, quiet_middle middle, rfl⟩

theorem tight_quantified {left right : Sql} {w : String} (first : Side zone left) (second : Side zone right)
    (separates : Sql.Separates w) : Sql.Tight zone (left ++ .word w :: right ++ [.word ")"]) :=
  (first.tight.glue separates second.tight).append (.last rfl) (Sql.breaks_word (by decide) rfl)

theorem predicate_quantified {left right : Sql} {w : String} {ws : List Token} (first : Side zone left)
    (second : Side zone right) (separates : Sql.Separates w) (lexed : lex w = some (ws ++ [.mark "("]))
    (middle : isMiddle ws = true) :
    Predicate zone (left ++ .word w :: right ++ [.word ")"]) fun _ σ =>
      σ (Sql.tokens zone (left ++ .word w :: right ++ [.word ")"])) := by
  obtain ⟨as, a⟩ := first.reads
  obtain ⟨bs, b⟩ := second.reads
  have quiet : ∀ i ∈ as ++ (ws.map .token ++ [enclose readInside bs]), i.isQuiet = true := quiet_quantified a middle
  exact predicate_atom (tight_quantified first second separates) a (nests_quantified a b lexed middle)
    (unbroken_of_quiet quiet) (opensClause_of_quiet quiet)

theorem predicate_range {left lower upper : Sql} {w : String} {ws : List Token} (first : Side zone left)
    (second : Side zone lower) (third : Side zone upper) (separates : Sql.Separates w)
    (lexed : lex w = some (ws ++ [.word "between"])) (middle : isMiddle ws = true) :
    Predicate zone (left ++ .word w :: lower ++ .word " AND " :: upper) fun _ σ =>
      σ (Sql.tokens zone (left ++ .word w :: lower ++ .word " AND " :: upper)) := by
  obtain ⟨as, a⟩ := first.reads
  obtain ⟨bs, b⟩ := second.reads
  obtain ⟨cs, c⟩ := third.reads
  have both : lex " AND " = some [.word "and"] := rfl
  have between : Nests readInside [.word "between"] [.token (.word "between")] := nests_token rfl
  have conjunction : Nests readInside [.word "and"] [.token (.word "and")] := nests_token rfl
  have whole := a.nests.append ((nests_middle middle).append (between.append (b.nests.append (conjunction.append c.nests))))
  have quiet := List.forall_mem_append.mpr ⟨a.isQuiet, quiet_middle middle⟩
  have unbroken := unbroken_range quiet b.isQuiet c.isQuiet
  have tight := (first.tight.glue separates second.tight).glue (w := " AND ") ⟨rfl, rfl, by decide⟩ third.tight
  have nests : Nests readInside (Sql.tokens zone (left ++ .word w :: lower ++ .word " AND " :: upper))
      (as ++ (ws.map .token ++ .token (.word "between") :: (bs ++ .token (.word "and") :: cs))) := by
    simpa [Piece.tokens_word zone lexed, Piece.tokens_word zone both] using whole
  refine predicate_atom tight a nests (by simpa using unbroken) ?_
  simp only [List.forall_mem_append, List.forall_mem_cons]
  exact ⟨opensClause_of_quiet a.isQuiet, opensClause_of_quiet (quiet_middle middle), rfl,
    opensClause_of_quiet b.isQuiet, rfl, opensClause_of_quiet c.isQuiet⟩

theorem readCondition_predicate {items : List (Item Inside)} {f : Formula} (unbroken : Unbroken items)
    (read : readPredicate items = some f) :
    ∃ g, readCondition items = some g ∧ ∀ rows σ, g.eval rows σ = f.eval rows σ := by
  obtain ⟨g, whole, same⟩ := readCondition_and [(items, f)] (by simp) (by simpa using unbroken) (by simpa using read)
  exact ⟨g, by simpa [List.intercalate_singleton] using whole, by simpa using same⟩

theorem Predicate.condition {sql : Sql} {meaning : Rows → Truth → Bool} (predicate : Predicate zone sql meaning) :
    Condition zone sql meaning := by
  obtain ⟨items, f, nests, unbroken, read, means, free⟩ := predicate.reads
  obtain ⟨g, whole, same⟩ := readCondition_predicate unbroken read
  exact ⟨predicate.tight, items, g, nests, whole, fun rows σ => (same rows σ).trans (means rows σ), free⟩

theorem readPredicate_enclosed {items : List (Item Inside)} {f : Formula} (read : readCondition items = some f) :
    readPredicate [enclose readInside items] = some f ∧
      readPredicate [.token (.word "not"), enclose readInside items] = some (.not f) := by
  have inside : readPredicate [enclose readInside items] = some f := read
  exact ⟨inside, by rw [readPredicate, if_pos rfl, inside]; rfl⟩

theorem quiet_group (items : List (Item Inside)) : ∀ i ∈ [enclose readInside items], i.isQuiet = true :=
  List.forall_mem_singleton.mpr rfl

theorem quiet_behind {w : String} (quiet : (Item.token (.word w) : Item Inside).isQuiet = true)
    (items : List (Item Inside)) : ∀ i ∈ [.token (.word w), enclose readInside items], i.isQuiet = true :=
  List.forall_mem_cons.mpr ⟨quiet, quiet_group items⟩

theorem readPredicate_exists {items : List (Item Inside)} {f : Formula} (read : readSubquery items = some f) :
    readPredicate [.token (.word "exists"), enclose readInside items] = some f := by
  rw [readPredicate, if_neg (by decide), if_pos rfl]
  exact read

theorem predicate_notAny {left right : Sql} (first : Side zone left) (second : Side zone right) :
    Predicate zone (Operator.notAny.compare left (.one right)) fun _ σ =>
      !σ (Sql.tokens zone (Operator.any.compare left (.one right))) := by
  have separates : Sql.Separates " = ANY(" := ⟨rfl, rfl, by decide⟩
  have lexed : lex " = ANY(" = some ([.operator "=", .word "any"] ++ [.mark "("]) := rfl
  have opened : lex "NOT (" = some [.word "not", .mark "("] := rfl
  have closed : lex ")" = some [.mark ")"] := rfl
  have closing : lex "))" = some [.mark ")", .mark ")"] := rfl
  obtain ⟨items, f, nests, read, means, free⟩ :=
    (predicate_quantified first second separates lexed rfl).condition.reads
  have denial : Nests readInside [.word "not"] [.token (.word "not")] := nests_token rfl
  have quiet := quiet_behind (w := "not") rfl items
  refine ⟨.word rfl ((first.tight.glue separates second.tight).append (.last rfl) (Sql.breaks_word (by decide) rfl)),
    [.token (.word "not"), enclose readInside items], .not f, ?_, unbroken_of_quiet quiet,
    (readPredicate_enclosed read).2, fun rows σ => ?_, opensClause_of_quiet quiet⟩
  · have whole := denial.append nests.enclosed
    simp only [Sql.tokens_append, Sql.tokens_cons, Piece.tokens_word zone lexed, Piece.tokens_word zone closed] at whole
    simpa [Operator.compare, Operator.infixText, Piece.tokens_word zone opened, Piece.tokens_word zone lexed,
      Piece.tokens_word zone closing] using whole
  · rw [Formula.eval, means]; rfl

theorem separates_equals : Sql.Separates " = " := ⟨rfl, rfl, by decide⟩

theorem separates_any : Sql.Separates " = ANY(" := ⟨rfl, rfl, by decide⟩

theorem lex_any : lex " = ANY(" = some ([.operator "=", .word "any"] ++ [.mark "("]) := rfl

theorem predicate_one {op : Operator} {left right : Sql} (single : op.isRange = false) (known : op ≠ .raw)
    (asserts : op ≠ .notAny) (first : Side zone left) (second : Side zone right) :
    Predicate zone (op.compare left (.one right)) fun _ σ => σ (Sql.tokens zone (op.compare left (.one right))) := by
  have all : lex " <> ALL(" = some ([.operator "<>", .word "all"] ++ [.mark "("]) := rfl
  cases op with
  | between | notBetween => cases single
  | raw => exact absurd rfl known
  | notAny => exact absurd rfl asserts
  | any => exact predicate_quantified first second separates_any lex_any rfl
  | notIn => exact predicate_quantified first second (w := " <> ALL(") ⟨rfl, rfl, by decide⟩ all rfl
  | eq => exact predicate_binary first second separates_equals rfl rfl
  | ne => exact predicate_binary first second (w := " <> ") ⟨rfl, rfl, by decide⟩ rfl rfl
  | gt => exact predicate_binary first second (w := " > ") ⟨rfl, rfl, by decide⟩ rfl rfl
  | gte => exact predicate_binary first second (w := " >= ") ⟨rfl, rfl, by decide⟩ rfl rfl
  | lt => exact predicate_binary first second (w := " < ") ⟨rfl, rfl, by decide⟩ rfl rfl
  | lte => exact predicate_binary first second (w := " <= ") ⟨rfl, rfl, by decide⟩ rfl rfl
  | like => exact predicate_binary first second (w := " LIKE ") ⟨rfl, rfl, by decide⟩ rfl rfl
  | notLike => exact predicate_binary first second (w := " NOT LIKE ") ⟨rfl, rfl, by decide⟩ rfl rfl
  | modulo => exact predicate_binary first second (w := " % ") ⟨rfl, rfl, by decide⟩ rfl rfl
  | ancestor => exact predicate_binary first second (w := " @> ") ⟨rfl, rfl, by decide⟩ rfl rfl
  | descendant => exact predicate_binary first second (w := " <@ ") ⟨rfl, rfl, by decide⟩ rfl rfl
  | pathMatch => exact predicate_binary first second (w := " ~ ") ⟨rfl, rfl, by decide⟩ rfl rfl

theorem predicate_between (op : Operator) {left lower upper : Sql} (first : Side zone left)
    (second : Side zone lower) (third : Side zone upper) :
    Predicate zone (op.compare left (.range lower upper)) fun _ σ =>
      σ (Sql.tokens zone (op.compare left (.range lower upper))) := by
  have plain : lex " BETWEEN " = some ([] ++ [.word "between"]) := rfl
  have denied : lex " NOT BETWEEN " = some ([.word "not"] ++ [.word "between"]) := rfl
  by_cases negated : op = .notBetween
  · subst negated
    exact predicate_range first second third (w := " NOT BETWEEN ") ⟨rfl, rfl, by decide⟩ denied rfl
  · simp only [Operator.compare, if_neg negated]
    exact predicate_range first second third (w := " BETWEEN ") ⟨rfl, rfl, by decide⟩ plain rfl

theorem predicate_null (s : String) (r : List String) :
    Predicate zone [.name (s :: r), .word " IS NULL"] fun _ σ =>
      σ (Sql.tokens zone [.name (s :: r), .word " IS NULL"]) := by
  have column : Side zone [.name (s :: r)] := side_name s r
  obtain ⟨items, factor⟩ := column.reads
  have lexed : lex " IS NULL" = some [.word "is", .word "null"] := rfl
  have middle : isMiddle [.word "is", .word "null"] = true := rfl
  have quiet := List.forall_mem_append.mpr ⟨factor.isQuiet, quiet_middle middle⟩
  refine predicate_atom (.name (Sql.breaks_word (by decide) rfl) (.last rfl)) factor ?_ (unbroken_of_quiet quiet)
    (opensClause_of_quiet quiet)
  have whole := factor.nests.append (nests_middle middle)
  simpa [Piece.tokens_word zone lexed] using whole

theorem predicate_false : Predicate zone [.word "FALSE"] fun _ σ => σ (Sql.tokens zone [.word "FALSE"]) := by
  have lexed : lex "FALSE" = some [.word "false"] := rfl
  have factor : Factor readInside [.word "false"] [.token (.word "false")] := factor_tokens (by simp) (by decide)
  have nests : Nests readInside (Sql.tokens zone [.word "FALSE"]) ([.token (.word "false")] ++ []) := by
    simpa [Piece.tokens_word zone lexed] using factor.nests
  exact predicate_atom (.last rfl) factor nests (unbroken_of_quiet factor.isQuiet)
    (opensClause_of_quiet factor.isQuiet)

structure Reading where
  tokens : List Token
  items : List (Item Inside)
  formula : Formula

structure Reading.Sound (r : Reading) : Prop where
  nests : Nests readInside r.tokens r.items
  unbroken : Unbroken r.items
  read : readPredicate r.items = some r.formula
  free : ∀ i ∈ r.items, i.opensClause = false

theorem readings (parts : List (Sql × (Rows → Truth → Bool)))
    (each : ∀ part ∈ parts, Predicate zone part.1 part.2) :
    ∃ rs : List Reading, rs.map (·.tokens) = parts.map (Sql.tokens zone ·.1) ∧
      (∀ rows σ, rs.map (·.formula.eval rows σ) = parts.map (·.2 rows σ)) ∧ ∀ r ∈ rs, r.Sound := by
  induction parts with
  | nil => exact ⟨[], rfl, fun _ _ => rfl, fun r member => by cases member⟩
  | cons part parts ih =>
    obtain ⟨rs, tokens, means, sound⟩ := ih fun p member => each p (List.mem_cons_of_mem _ member)
    obtain ⟨items, f, nests, unbroken, read, meaning, free⟩ := (each part List.mem_cons_self).reads
    refine ⟨⟨part.1.tokens zone, items, f⟩ :: rs, ?_, fun rows σ => ?_, ?_⟩
    · rw [List.map_cons, List.map_cons, tokens]
    · rw [List.map_cons, List.map_cons, means, meaning]
    · exact List.forall_mem_cons.mpr ⟨⟨nests, unbroken, read, free⟩, sound⟩

theorem condition_joined (join : List Bool → Bool) {w : String} {t : Token} (separates : Sql.Separates w)
    (lexed : lex w = some [t]) (solid : t.isParenthesis = false)
    (quiet : (Item.token t : Item Inside).opensClause = false)
    (joins : ∀ rs : List (List (Item Inside) × Formula), rs ≠ [] → (∀ r ∈ rs, Unbroken r.1) →
      (∀ r ∈ rs, readPredicate r.1 = some r.2) →
      ∃ f, readCondition (List.intercalate [.token t] (rs.map (·.1))) = some f ∧
        ∀ rows σ, f.eval rows σ = join (rs.map (·.2.eval rows σ)))
    (parts : List (Sql × (Rows → Truth → Bool))) (filled : parts ≠ [])
    (each : ∀ part ∈ parts, Predicate zone part.1 part.2) :
    Condition zone (Sql.separated w (parts.map (·.1))) fun rows σ => join (parts.map (·.2 rows σ)) := by
  obtain ⟨rs, tokens, means, sound⟩ := readings parts each
  have filled : rs ≠ [] := by
    rintro rfl
    exact filled (List.map_eq_nil_iff.mp tokens.symm)
  obtain ⟨f, read, evaluates⟩ := joins (rs.map fun r => (r.items, r.formula)) (by simpa using filled)
    (by simpa using fun r member => (sound r member).unbroken) (by simpa using fun r member => (sound r member).read)
  refine ⟨Sql.Tight.joined separates ?_, List.intercalate [.token t] (rs.map (·.items)), f, ?_, ?_, ?_, ?_⟩
  · intro sql member
    obtain ⟨part, inside, rfl⟩ := List.mem_map.mp member
    exact (each part inside).tight
  · have nests := nests_intercalate (nests_token solid) (rs.map fun r => (r.tokens, r.items))
      (by simpa using fun r member => (sound r member).nests)
    rw [Sql.tokens_separated, Piece.tokens_word zone lexed, List.map_map]
    simp only [List.map_map, Function.comp_def] at nests ⊢
    rwa [← tokens]
  · simpa [Function.comp_def] using read
  · intro rows σ
    rw [evaluates, ← means, List.map_map]
    rfl
  · exact forall_mem_intercalate _ quiet (by simpa using fun r member => (sound r member).free)

theorem condition_and (parts : List (Sql × (Rows → Truth → Bool))) (filled : parts ≠ [])
    (each : ∀ part ∈ parts, Predicate zone part.1 part.2) :
    Condition zone (Sql.separated " AND " (parts.map (·.1))) fun rows σ => (parts.map (·.2 rows σ)).all id :=
  condition_joined (fun holds => holds.all id) ⟨rfl, rfl, by decide⟩ rfl rfl rfl readCondition_and parts filled each

theorem condition_or (parts : List (Sql × (Rows → Truth → Bool))) (filled : parts ≠ [])
    (each : ∀ part ∈ parts, Predicate zone part.1 part.2) :
    Condition zone (Sql.separated " OR " (parts.map (·.1))) fun rows σ => (parts.map (·.2 rows σ)).any id :=
  condition_joined (fun holds => holds.any id) ⟨rfl, rfl, by decide⟩ rfl rfl rfl readCondition_or parts filled each

def enclosedSql (sql : Sql) : Sql := .word "(" :: sql ++ [.word ")"]

theorem tokens_enclosedSql (sql : Sql) :
    Sql.tokens zone (enclosedSql sql) = .mark "(" :: sql.tokens zone ++ [.mark ")"] := by
  have opened : lex "(" = some [.mark "("] := rfl
  have closed : lex ")" = some [.mark ")"] := rfl
  simp [enclosedSql, Piece.tokens_word zone opened, Piece.tokens_word zone closed]

theorem Sql.Tight.enclosed {sql : Sql} (tight : Sql.Tight zone sql) : Sql.Tight zone (enclosedSql sql) :=
  (Sql.Tight.word rfl tight).append (.last rfl) (Sql.breaks_word (by decide) rfl)

theorem Condition.enclosed {sql : Sql} {meaning : Rows → Truth → Bool} (condition : Condition zone sql meaning) :
    Predicate zone (enclosedSql sql) meaning := by
  obtain ⟨items, f, nests, read, means, free⟩ := condition.reads
  have quiet := quiet_group items
  refine ⟨condition.tight.enclosed, [enclose readInside items], f, ?_, unbroken_of_quiet quiet,
    (readPredicate_enclosed read).1, means, opensClause_of_quiet quiet⟩
  rw [tokens_enclosedSql]
  exact nests.enclosed

theorem intercalate_enclosed (t : Token) (parts : List (List Token)) (filled : parts ≠ []) :
    .mark "(" :: List.intercalate [.mark ")", t, .mark "("] parts ++ [.mark ")"] =
      List.intercalate [t] (parts.map fun part => .mark "(" :: part ++ [.mark ")"]) := by
  induction parts with
  | nil => exact absurd rfl filled
  | cons part r ih =>
    cases r with
    | nil => simp only [List.map_cons, List.map_nil, List.intercalate_singleton]
    | cons next r =>
      have rest := ih (by simp)
      simp only [List.map_cons, List.intercalate_cons_cons] at rest ⊢
      rw [← rest]
      simp

theorem predicate_combined (negated : Bool) {w wide : String} {t : Token} (meaning : List Bool → Bool)
    (lexed : lex w = some [t]) (separates : Sql.Separates wide)
    (widened : lex wide = some [.mark ")", t, .mark "("]) (parts : List (Sql × (Rows → Truth → Bool)))
    (filled : parts ≠ []) (each : ∀ part ∈ parts, Sql.Tight zone part.1)
    (joined : Condition zone (Sql.separated w (parts.map fun part => enclosedSql part.1)) fun rows σ =>
      meaning (parts.map (·.2 rows σ))) :
    Predicate zone (.word (if negated then "NOT ((" else "((") :: Sql.separated wide (parts.map (·.1)) ++ [.word "))"])
      fun rows σ => meaning (parts.map (·.2 rows σ)) != negated := by
  obtain ⟨items, f, nests, read, means, free⟩ := joined.reads
  have opened : lex "((" = some [.mark "(", .mark "("] := rfl
  have denied : lex "NOT ((" = some [.word "not", .mark "(", .mark "("] := rfl
  have closed : lex "))" = some [.mark ")", .mark ")"] := rfl
  have denial : Nests readInside [.word "not"] [.token (.word "not")] := nests_token rfl
  have tight : Sql.Tight zone (Sql.separated wide (parts.map (·.1)) ++ [.word "))"]) :=
    (Sql.Tight.joined separates (by simpa using each)).append (.last rfl) (Sql.breaks_word (by decide) rfl)
  have parenthesized := intercalate_enclosed t (parts.map (Sql.tokens zone ·.1)) (by simpa using filled)
  have wrapped := nests.enclosed
  rw [Sql.tokens_separated, Piece.tokens_word zone lexed] at wrapped
  simp only [List.map_map, Function.comp_def, tokens_enclosedSql] at wrapped parenthesized
  rw [← parenthesized] at wrapped
  cases negated with
  | false =>
    have quiet := quiet_group items
    refine ⟨.word rfl tight, [enclose readInside items], f, ?_, unbroken_of_quiet quiet,
      (readPredicate_enclosed read).1, fun rows σ => by rw [means, Bool.bne_false], opensClause_of_quiet quiet⟩
    simpa [Sql.tokens_separated, Piece.tokens_word zone opened, Piece.tokens_word zone widened,
      Piece.tokens_word zone closed, Function.comp_def] using wrapped
  | true =>
    have quiet := quiet_behind (w := "not") rfl items
    refine ⟨.word rfl tight, [.token (.word "not"), enclose readInside items], .not f, ?_, unbroken_of_quiet quiet,
      (readPredicate_enclosed read).2, fun rows σ => by rw [Formula.eval, means, Bool.bne_true],
      opensClause_of_quiet quiet⟩
    have whole := denial.append wrapped
    simpa [Sql.tokens_separated, Piece.tokens_word zone denied, Piece.tokens_word zone widened,
      Piece.tokens_word zone closed, Function.comp_def] using whole

def Sql.Fits (zone : Zone) (sql : Sql) : Prop := ∀ p ∈ sql, p.datesFit zone = true

theorem fits_separated (w : String) (parts : List Sql) (each : ∀ part ∈ parts, Sql.Fits zone part) :
    Sql.Fits zone (Sql.separated w parts) :=
  forall_mem_intercalate parts rfl each

theorem separated_append (w : String) (a b : List Sql) (left : a ≠ []) (right : b ≠ []) :
    Sql.separated w (a ++ b) = Sql.separated w a ++ .word w :: Sql.separated w b := by
  induction a with
  | nil => exact absurd rfl left
  | cons part r ih =>
    cases r with
    | nil =>
      obtain ⟨next, rest, rfl⟩ := List.exists_cons_of_ne_nil right
      rw [List.singleton_append, Sql.separated_cons_cons, Sql.separated_singleton]
    | cons next r =>
      have rest := ih (by simp)
      rw [List.cons_append] at rest
      rw [List.cons_append, List.cons_append, Sql.separated_cons_cons, rest, Sql.separated_cons_cons,
        List.append_assoc, List.cons_append]

theorem predicate_exists (table : String) {sql : Sql} {meaning : Rows → Truth → Bool}
    (condition : Condition zone sql meaning) :
    Predicate zone (.word "EXISTS (SELECT * FROM " :: .name [table] :: .word " WHERE " :: sql ++ [.word ")"])
      fun rows σ => (rows table σ).any fun ρ => meaning rows ρ := by
  obtain ⟨items, f, nests, read, means, free⟩ := condition.reads
  have opened : lex "EXISTS (SELECT * FROM " =
      some [.word "exists", .mark "(", .word "select", .operator "*", .word "from"] := rfl
  have filtered : lex " WHERE " = some [.word "where"] := rfl
  have closed : lex ")" = some [.mark ")"] := rfl
  have existence : Nests readInside [.word "exists"] [.token (.word "exists")] := nests_token rfl
  have head : Nests readInside [.word "select", .operator "*", .word "from", .name table, .word "where"]
      ([.word "select", .operator "*", .word "from", .name table, .word "where"].map .token) :=
    nests_tokens (by simp [Token.isParenthesis])
  have whole := existence.append (head.append nests).enclosed
  have filter : readSubquery ([.word "select", .operator "*", .word "from", .name table, .word "where"].map .token ++
      items) = some (.within table f) := by
    simp [readSubquery, read]
  generalize [Token.word "select", .operator "*", .word "from", .name table, .word "where"].map Item.token ++ items =
    inner at whole filter
  have quiet := quiet_behind (w := "exists") rfl inner
  refine ⟨.word rfl (.name (Sql.breaks_word (by decide) rfl) (.word rfl
    (condition.tight.append (.last rfl) (Sql.breaks_word (by decide) rfl)))),
    [.token (.word "exists"), enclose readInside inner], .within table f, ?_, unbroken_of_quiet quiet,
    readPredicate_exists filter, fun rows σ => ?_, opensClause_of_quiet quiet⟩
  · simpa [Piece.tokens_word zone opened, Piece.tokens_word zone filtered, Piece.tokens_word zone closed,
      pathTokens] using whole
  · simp only [Formula.eval, means]

theorem fits_exists (table : String) {sql : Sql} (fits : Sql.Fits zone sql) :
    Sql.Fits zone (.word "EXISTS (SELECT * FROM " :: .name [table] :: .word " WHERE " :: sql ++ [.word ")"]) := by
  simp only [Sql.Fits, List.cons_append, List.forall_mem_cons, List.forall_mem_append] at fits ⊢
  exact ⟨rfl, rfl, rfl, fits, rfl, by simp⟩

structure WhereClause (zone : Zone) (sql : Sql) (meaning : Rows → Truth → Bool) : Prop where
  tight : Sql.Tight zone sql
  reads : ∃ items f, Nests readInside (sql.tokens zone) (.token (.word "where") :: items) ∧
    readCondition items = some f ∧ (∀ rows σ, f.eval rows σ = meaning rows σ) ∧ ∀ i ∈ items, i.opensClause = false

theorem whereClause_one {sql : Sql} {meaning : Rows → Truth → Bool} (condition : Condition zone sql meaning) :
    WhereClause zone (.word "WHERE " :: sql) meaning := by
  obtain ⟨items, f, nests, read, means, free⟩ := condition.reads
  have lexed : lex "WHERE " = some [.word "where"] := rfl
  have keyword : Nests readInside [.word "where"] [.token (.word "where")] := nests_token rfl
  refine ⟨.word rfl condition.tight, items, f, ?_, read, means, free⟩
  rw [Sql.tokens_cons, Piece.tokens_word zone lexed]
  exact keyword.append nests

theorem whereClause_many (parts : List (Sql × (Rows → Truth → Bool))) (filled : parts ≠ [])
    (each : ∀ part ∈ parts, Condition zone part.1 part.2) :
    WhereClause zone (.word "WHERE (" :: Sql.separated ") AND (" (parts.map (·.1)) ++ [.word ")"])
      fun rows σ => (parts.map (·.2 rows σ)).all id := by
  have enclosed : ∀ part ∈ parts.map (fun part => (enclosedSql part.1, part.2)), Predicate zone part.1 part.2 := by
    intro part member
    obtain ⟨inner, inside, rfl⟩ := List.mem_map.mp member
    exact (each inner inside).enclosed
  obtain ⟨items, f, nests, read, means, free⟩ := (condition_and _ (by simpa using filled) enclosed).reads
  have opened : lex "WHERE (" = some [.word "where", .mark "("] := rfl
  have both : lex " AND " = some [.word "and"] := rfl
  have between : lex ") AND (" = some [.mark ")", .word "and", .mark "("] := rfl
  have closed : lex ")" = some [.mark ")"] := rfl
  have keyword : Nests readInside [.word "where"] [.token (.word "where")] := nests_token rfl
  have parenthesized := intercalate_enclosed (.word "and") (parts.map (Sql.tokens zone ·.1)) (by simpa using filled)
  rw [Sql.tokens_separated, Piece.tokens_word zone both] at nests
  simp only [List.map_map, Function.comp_def, tokens_enclosedSql] at nests parenthesized means
  rw [← parenthesized] at nests
  refine ⟨.word rfl ((Sql.Tight.joined ⟨rfl, rfl, by decide⟩ ?_).append (.last rfl) (Sql.breaks_word (by decide) rfl)),
    items, f, ?_, read, means, free⟩
  · simpa using fun sql meaning member => (each (sql, meaning) member).tight
  · have whole := keyword.append nests
    simpa [Sql.tokens_separated, Piece.tokens_word zone opened, Piece.tokens_word zone between,
      Piece.tokens_word zone closed, Function.comp_def] using whole

end

end QueryKit
