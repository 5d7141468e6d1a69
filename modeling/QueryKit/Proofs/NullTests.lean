import QueryKit.Proofs.JoinTrees
import QueryKit.Proofs.SplicedText

-- How a filter asks for NULL. A null value is asked for with IS NULL; a comparison by `eq` with null is
-- written as any other, with an equality that no row fulfils.

namespace QueryKit
open Decimal

namespace Lexer

-- The columns, with their qualifiers, behind which a token and then NULL stand. `path` is the name that the
-- text so far ends with.
def nullTests (m : Token) (path : List String) : List Token → List (List String)
  | [] => []
  | .name s :: r => nullTests m (path ++ [s]) r
  | t :: r =>
    if t = .mark "." then nullTests m path r
    else if t = m ∧ r.head? = some (.word "null") ∧ path ≠ [] then path :: nullTests m [] r
    else nullTests m [] r

def Token.isName : Token → Bool
  | .name _ => true
  | _ => false

def Token.isGlue : Token → Bool
  | .word w => ["and", "or", "not", "where", "exists", "select", "from"].contains w
  | .mark s => s == "(" || s == ")"
  | .operator s => s == "*"
  | _ => false

def Token.asks (m : Token) : Bool := m == .word "is" || m == .operator "="

section
variable {m : Token}

theorem nullTests_other {t : Token} (unnamed : t.isName = false) (path : List String) (r : List Token) :
    nullTests m path (t :: r) =
      if t = .mark "." then nullTests m path r
      else if t = m ∧ r.head? = some (.word "null") ∧ path ≠ [] then path :: nullTests m [] r
      else nullTests m [] r := by
  rw [nullTests]
  rintro s rfl
  cases unnamed

theorem nullTests_path (path : List String) (s : String) (r : List String) (us : List Token) :
    nullTests m path (pathTokens (s :: r) ++ us) = nullTests m (path ++ s :: r) us := by
  induction r generalizing path s with
  | nil => rfl
  | cons t r ih =>
    rw [pathTokens, List.cons_append, List.cons_append, nullTests, nullTests_other rfl, if_pos rfl, ih,
      List.append_assoc]
    rfl

theorem nullTests_skip (ts us : List Token) (unnamed : ∀ t ∈ ts, t.isName = false) :
    nullTests m [] (ts ++ us) = nullTests m [] us := by
  induction ts with
  | nil => rfl
  | cons t r ih =>
    rw [List.forall_mem_cons] at unnamed
    rw [List.cons_append, nullTests_other unnamed.1, ih unnamed.2]
    simp

theorem nullTests_nameless (ts : List Token) (unnamed : ∀ t ∈ ts, t.isName = false) : nullTests m [] ts = [] := by
  have whole := nullTests_skip (m := m) ts [] unnamed
  rwa [List.append_nil] at whole

-- Whatever stands in front of it and behind it, a piece of glue belongs to no test.
theorem nullTests_append (asks : m.asks = true) {g : Token} (glue : g.isGlue = true) (path : List String)
    (ts us : List Token) : nullTests m path (ts ++ g :: us) = nullTests m path ts ++ nullTests m [] us := by
  have own : g ≠ m ∧ g ≠ .mark "." ∧ g ≠ .word "null" ∧ g.isName = false := by
    simp only [Token.asks, Bool.or_eq_true, beq_iff_eq] at asks
    refine ⟨?_, ?_, ?_, ?_⟩
    · rintro rfl
      rcases asks with rfl | rfl <;> cases glue
    · rintro rfl
      cases glue
    · rintro rfl
      cases glue
    · cases g <;> first | rfl | cases glue
  induction ts generalizing path with
  | nil => simp [nullTests_other own.2.2.2, own.1, own.2.1, nullTests]
  | cons t r ih =>
    cases named : t.isName with
    | true =>
      obtain ⟨s, rfl⟩ : ∃ s, t = .name s := by
        cases t <;> first | exact ⟨_, rfl⟩ | cases named
      exact ih (path ++ [s])
    | false =>
      have next : (r ++ g :: us).head? = some (.word "null") ↔ r.head? = some (.word "null") := by
        cases r with
        | nil => simp [own.2.2.1]
        | cons u r => rfl
      rw [List.cons_append, nullTests_other named, nullTests_other named, ih, ih]
      simp only [next]
      split
      · rfl
      · split <;> rfl

theorem nullTests_glued (asks : m.asks = true) {ws : List Token} (filled : ws ≠ []) (glue : ws.all Token.isGlue = true)
    (ts us : List Token) : nullTests m [] (ts ++ (ws ++ us)) = nullTests m [] ts ++ nullTests m [] us := by
  obtain ⟨g, r, rfl⟩ := List.exists_cons_of_ne_nil filled
  rw [List.all_cons, Bool.and_eq_true, List.all_eq_true] at glue
  have unnamed : ∀ t ∈ r, t.isName = false := by
    intro t member
    have here := glue.2 t member
    cases t <;> first | rfl | cases here
  rw [List.cons_append, nullTests_append asks glue.1, nullTests_skip r us unnamed]

theorem nullTests_asked (front : List Token) (s : String) (r : List String) (t : Token) (us : List Token)
    (before : ∀ t ∈ front, t.isName = false) (here : t.isName = false) (undotted : t ≠ .mark ".")
    (behind : ∀ t ∈ us, t.isName = false) :
    nullTests m [] (front ++ (pathTokens (s :: r) ++ t :: us)) =
      if t = m ∧ us.head? = some (.word "null") then [s :: r] else [] := by
  rw [nullTests_skip _ _ before, nullTests_path, nullTests_other here, if_neg undotted, nullTests_nameless us behind]
  simp

theorem nullTests_unasked (asks : m.asks = true) (front : List Token) (s : String) (r : List String) (t : Token)
    (us : List Token) (before : ∀ t ∈ front, t.isName = false) (here : t.isName = false) (undotted : t ≠ .mark ".")
    (other : t.asks = false) (behind : ∀ t ∈ us, t.isName = false) :
    nullTests m [] (front ++ (pathTokens (s :: r) ++ t :: us)) = [] := by
  have distinct : t ≠ m := by
    rintro rfl
    rw [asks] at other
    cases other
  rw [nullTests_asked front s r t us before here undotted behind, if_neg (fun both => distinct both.1)]

end

def Token.isValue (t : Token) : Bool := !t.isName && t != .word "null"

theorem value_signed (negative : Bool) (ds : List Char) : ∀ t ∈ signedTokens negative ds, t.isValue = true := by
  cases negative <;> simp [signedTokens, Token.isValue, Token.isName]

theorem value_double (x : Binary64) : ∀ t ∈ doubleTokens x, t.isValue = true := by
  unfold doubleTokens
  cases x.number with
  | finite negative m q => exact value_signed negative _
  | _ => exact List.forall_mem_singleton.mpr rfl

theorem value_single (x : Binary32) : ∀ t ∈ singleTokens x, t.isValue = true := by
  unfold singleTokens
  cases x.number with
  | finite negative m q => exact value_signed negative _
  | _ => exact value_double _

theorem value_coordinate (x : Binary64) : ∀ t ∈ coordinateTokens x, t.isValue = true := by
  unfold coordinateTokens
  cases x.number with
  | nan => exact List.forall_mem_singleton.mpr rfl
  | infinite negative => cases negative <;> decide
  | finite negative m q => exact value_signed negative _

theorem value_point (x y : Binary64) : ∀ t ∈ pointTokens x y, t.isValue = true := by
  simp only [pointTokens, List.cons_append, List.forall_mem_cons, List.forall_mem_append]
  exact ⟨rfl, rfl, ⟨value_coordinate x, rfl, value_coordinate y⟩, by simp [Token.isValue, Token.isName]⟩

theorem value_literal (zone : Zone) {v : Value} (given : v ≠ .null) : ∀ t ∈ literalTokens zone v, t.isValue = true := by
  cases v with
  | null => exact absurd rfl given
  | bool b => cases b <;> exact List.forall_mem_singleton.mpr rfl
  | int32 n | int64 n => exact value_signed _ _
  | float32 x => exact value_single x
  | float64 x => exact value_double x
  | point x y => exact value_point x y
  | _ => exact List.forall_mem_singleton.mpr rfl

theorem unnamed_literal (zone : Zone) (v : Value) : ∀ t ∈ literalTokens zone v, t.isName = false := by
  by_cases none : v = .null
  · subst none
    exact List.forall_mem_singleton.mpr rfl
  · intro t member
    have value := value_literal zone none t member
    simp only [Token.isValue, Bool.and_eq_true, Bool.not_eq_true'] at value
    exact value.1

theorem head_literal (zone : Zone) (v : Value) : (literalTokens zone v).head? = some (.word "null") ↔ v = .null := by
  constructor
  · intro leads
    by_contra none
    have value := value_literal zone none _ (List.mem_of_mem_head? leads)
    cases value
  · rintro rfl
    rfl

end Lexer
open Lexer

namespace Test

def nullMark? : Test → Option Token
  | .value .null => some (.word "is")
  | .compare ⟨.eq, .value .null, _⟩ | .compare ⟨.eq, .expression .null, _⟩ => some (.operator "=")
  | _ => none

-- The columns that a test asks to be NULL. What a caller's own text asks for is its own.
def nullColumns (zone : Zone) (m : Token) (path : List String) (test : Test) : List (List String) :=
  if test.isRaw then nullTests m [] (test.tokens zone path)
  else if test.nullMark? = some m then [path]
  else []

end Test

section
variable {zone : Zone} {m : Token}

theorem nullTests_plain (s : String) (r : List String) (v : Value) :
    nullTests m [] (Sql.tokens zone ((Test.value v).sql (s :: r))) =
      if (Test.value v).nullMark? = some m then [s :: r] else [] := by
  have asked := nullTests_asked (m := m) [] s r
  have absent : lex " IS NULL" = some [.word "is", .word "null"] := rfl
  have never : lex "FALSE" = some [.word "false"] := rfl
  have oneOf : lex " = ANY(" = some [.operator "=", .word "any", .mark "("] := rfl
  have equals : lex " = " = some [.operator "="] := rfl
  have closed : lex ")" = some [.mark ")"] := rfl
  have literal := unnamed_literal zone v
  by_cases null : v = .null
  · subst null
    have here := asked (.word "is") [.word "null"] (by simp) rfl (by simp) (by simp [Token.isName])
    simpa [Test.sql, Piece.tokens_word zone absent, Test.nullMark?] using here
  have unmarked : (Test.value v).nullMark? = Option.none := by
    cases v <;> first | rfl | exact absurd rfl null
  rw [unmarked, if_neg (by simp)]
  by_cases empty : v = .array []
  · subst empty
    simp [Test.sql, Piece.tokens_word zone never, nullTests]
  by_cases items : ∃ items, v = .array items
  · obtain ⟨items, rfl⟩ := items
    have written : (Test.value (.array items)).sql (s :: r) =
        [.name (s :: r), .word " = ANY(", .literal (.array items), .word ")"] := by
      cases items with
      | nil => exact absurd rfl empty
      | cons item items => rfl
    have here := asked (.operator "=") [.word "any", .mark "(", .text (Sql.arrayLiteral zone items), .mark ")"]
      (by simp) rfl (by simp) (by simp [Token.isName])
    simpa [written, Piece.tokens_word zone oneOf, Piece.tokens_word zone closed, literalTokens] using here
  · have written : (Test.value v).sql (s :: r) = [.name (s :: r), .word " = ", .literal v] := by
      cases v <;> first | rfl | exact absurd rfl null | exact absurd ⟨_, rfl⟩ items
    have here := asked (.operator "=") (literalTokens zone v) (by simp) rfl (by simp) literal
    simpa [written, Piece.tokens_word zone equals, head_literal, null] using here

theorem nullTests_eq (s : String) (r : List String) (v : Value) :
    nullTests m [] (Sql.tokens zone (Operator.eq.compare [.name (s :: r)] (.one [.literal v]))) =
      if .operator "=" = m ∧ (literalTokens zone v).head? = some (.word "null") then [s :: r] else [] := by
  have equals : lex " = " = some [.operator "="] := rfl
  have asked := nullTests_asked (m := m) [] s r (.operator "=") (literalTokens zone v) (by simp) rfl (by simp)
    (unnamed_literal zone v)
  simpa [Operator.compare, Operator.infixText, Piece.tokens_word zone equals] using asked

section
variable (asks : m.asks = true) (s : String) (r : List String)
include asks

theorem nullTests_binary {op : Operator} (single : op.isRange = false) (known : op ≠ .raw)
    (bare : op.isQuantified = false) (other : op ≠ .eq) (v : Value) :
    nullTests m [] (Sql.tokens zone (op.compare [.name (s :: r)] (.one [.literal v]))) = [] := by
  have lexed := op.lex_infixText
  rw [bare] at lexed
  obtain ⟨t, us, middle, here, undotted, quiet, behind⟩ : ∃ t us, op.middle = t :: us ∧ t.isName = false ∧
      t ≠ .mark "." ∧ t.asks = false ∧ ∀ u ∈ us, u.isName = false := by
    cases op with
    | eq => exact absurd rfl other
    | raw => exact absurd rfl known
    | notIn | any | notAny => cases bare
    | between | notBetween => cases single
    | _ => exact ⟨_, _, rfl, rfl, by simp, rfl, by simp [Token.isName]⟩
  have unasked := nullTests_unasked asks [] s r t (us ++ literalTokens zone v) (by simp) here undotted quiet
    (List.forall_mem_append.mpr ⟨behind, unnamed_literal zone v⟩)
  rw [Select.compare_one known bare]
  simpa [Piece.tokens_word zone lexed, middle] using unasked

theorem nullTests_notIn (v : Value) :
    nullTests m [] (Sql.tokens zone (Operator.notIn.compare [.name (s :: r)] (.one [.literal v]))) = [] := by
  have every : lex " <> ALL(" = some [.operator "<>", .word "all", .mark "("] := rfl
  have closed : lex ")" = some [.mark ")"] := rfl
  have inside : ∀ t ∈ [.word "all", .mark "("] ++ (literalTokens zone v ++ [.mark ")"]), t.isName = false :=
    List.forall_mem_append.mpr ⟨by simp [Token.isName],
      List.forall_mem_append.mpr ⟨unnamed_literal zone v, by simp [Token.isName]⟩⟩
  have unasked := nullTests_unasked asks [] s r (.operator "<>") _ (by simp) rfl (by simp) rfl inside
  simpa [Operator.compare, Operator.infixText, Piece.tokens_word zone every, Piece.tokens_word zone closed] using unasked

theorem nullTests_reversed {op : Operator} (reversed : op.isReversed = true) (v : Value) :
    nullTests m [] (Sql.tokens zone (op.compare [.literal v] (.one [.name (s :: r)]))) = [] := by
  have oneOf : lex " = ANY(" = some [.operator "=", .word "any", .mark "("] := rfl
  have opened : lex "NOT (" = some [.word "not", .mark "("] := rfl
  have closed : lex ")" = some [.mark ")"] := rfl
  have closing : lex "))" = some [.mark ")", .mark ")"] := rfl
  have literal : ∀ t ∈ literalTokens zone v ++ [.operator "=", .word "any", .mark "("], t.isName = false :=
    List.forall_mem_append.mpr ⟨unnamed_literal zone v, by simp [Token.isName]⟩
  cases op with
  | any =>
    have unasked := nullTests_unasked asks _ s r (.mark ")") [] literal rfl (by simp) rfl (by simp)
    simpa [Operator.compare, Operator.infixText, Piece.tokens_word zone oneOf, Piece.tokens_word zone closed] using unasked
  | notAny =>
    have denied : ∀ t ∈ [.word "not", .mark "("] ++ (literalTokens zone v ++ [.operator "=", .word "any", .mark "("]),
        t.isName = false := List.forall_mem_append.mpr ⟨by simp [Token.isName], literal⟩
    have unasked := nullTests_unasked asks _ s r (.mark ")") [.mark ")"] denied rfl (by simp) rfl (by simp [Token.isName])
    simpa [Operator.compare, Operator.infixText, Piece.tokens_word zone oneOf, Piece.tokens_word zone opened,
      Piece.tokens_word zone closing] using unasked
  | _ => cases reversed

theorem nullTests_range (op : Operator) (lower upper : Value) :
    nullTests m [] (Sql.tokens zone (op.compare [.name (s :: r)] (.range [.literal lower] [.literal upper]))) = [] := by
  have within : lex " BETWEEN " = some [.word "between"] := rfl
  have beyond : lex " NOT BETWEEN " = some [.word "not", .word "between"] := rfl
  have both : lex " AND " = some [.word "and"] := rfl
  have bounds : ∀ t ∈ literalTokens zone lower ++ .word "and" :: literalTokens zone upper, t.isName = false :=
    List.forall_mem_append.mpr ⟨unnamed_literal zone lower, List.forall_mem_cons.mpr ⟨rfl, unnamed_literal zone upper⟩⟩
  by_cases negated : op = .notBetween
  · have unasked := nullTests_unasked asks [] s r (.word "not") (.word "between" :: _) (by simp) rfl (by simp) rfl
      (List.forall_mem_cons.mpr ⟨rfl, bounds⟩)
    simpa [Operator.compare, negated, Piece.tokens_word zone beyond, Piece.tokens_word zone both] using unasked
  · have unasked := nullTests_unasked asks [] s r (.word "between") _ (by simp) rfl (by simp) rfl bounds
    simpa [Operator.compare, negated, Piece.tokens_word zone within, Piece.tokens_word zone both] using unasked

theorem nullTests_valued {op : Operator} (single : op.isRange = false) (known : op ≠ .raw) (v : Value)
    (operand : Operand) (fits : operand.fits op = true) (valued : operand = .value v ∨ operand = .expression v) :
    nullTests m [] (Sql.tokens zone (Comparator.sql (s :: r) ⟨op, operand, fits⟩)) =
      if (Test.compare ⟨op, operand, fits⟩).nullMark? = some m then [s :: r] else [] := by
  by_cases equality : op = .eq
  · subst equality
    have written : Comparator.sql (s :: r) ⟨.eq, operand, fits⟩ = Operator.eq.compare [.name (s :: r)] (.one [.literal v]) := by
      rcases valued with rfl | rfl <;> rfl
    rw [written, nullTests_eq]
    by_cases null : v = .null
    · subst null
      rcases valued with rfl | rfl <;> simp [Test.nullMark?, literalTokens]
    · have unmarked : (Test.compare ⟨.eq, operand, fits⟩).nullMark? = none := by
        rcases valued with rfl | rfl <;> cases v <;> first | rfl | exact absurd rfl null
      simp [unmarked, head_literal, null]
  · have unmarked : (Test.compare ⟨op, operand, fits⟩).nullMark? = none := by
      cases op <;> first | rfl | exact absurd rfl equality
    rw [unmarked, if_neg (by simp)]
    by_cases reversed : op.isReversed = true
    · have written : Comparator.sql (s :: r) ⟨op, operand, fits⟩ = op.compare [.literal v] (.one [.name (s :: r)]) := by
        rcases valued with rfl | rfl <;> simp [Comparator.sql, reversed]
      rw [written]
      exact nullTests_reversed asks s r reversed v
    · have written : Comparator.sql (s :: r) ⟨op, operand, fits⟩ = op.compare [.name (s :: r)] (.one [.literal v]) := by
        rcases valued with rfl | rfl <;> simp [Comparator.sql, reversed]
      rw [written]
      cases bare : op.isQuantified with
      | false => exact nullTests_binary asks s r single known bare equality v
      | true =>
        cases op with
        | notIn => exact nullTests_notIn asks s r v
        | any | notAny => exact absurd rfl reversed
        | _ => cases bare

theorem nullTests_test {test : Test} (plain : test.isRaw = false) :
    nullTests m [] (Sql.tokens zone (test.sql (s :: r))) = if test.nullMark? = some m then [s :: r] else [] := by
  cases test with
  | value v => exact nullTests_plain s r v
  | compare c =>
    obtain ⟨op, operand, fits⟩ := c
    cases operand with
    | raw template escapes => cases plain
    | range lower upper =>
      have unmarked : (Test.compare ⟨op, .range lower upper, fits⟩).nullMark? = none := by
        cases op <;> rfl
      rw [unmarked, if_neg (by simp)]
      exact nullTests_range asks s r op lower upper
    | value v | expression v =>
      have shape := fits
      simp only [Operand.fits, Bool.and_eq_true, Bool.not_eq_true', bne_iff_ne] at shape
      exact nullTests_valued asks s r shape.1 shape.2 v _ fits (by simp)

end

end

def AsksNull (zone : Zone) (m : Token) (sql : Sql) (columns : List (List String)) : Prop :=
  ∃ ts, Sql.Spells zone sql ts ∧ nullTests m [] ts = columns

structure Apart (w : String) (ws : List Token) : Prop where
  glue : Glue w ws
  some : ws ≠ []
  quiet : ws.all Token.isGlue = true

theorem AsksNull.link {zone : Zone} {m : Token} (outerAlias : String) (link : String × String) :
    AsksNull zone m (linkSql outerAlias link) [] := by
  have equals : lex " = " = some [.operator "="] := rfl
  refine ⟨_, spells_link zone outerAlias link, ?_⟩
  simp only [linkSql, Sql.tokens_cons, Sql.tokens_nil, Piece.tokens_name, Piece.tokens_word zone equals, pathTokens]
  simp [nullTests]

section
variable {zone : Zone} {m : Token} (asks : m.asks = true) {w : String} {ws : List Token}
include asks

theorem AsksNull.opened (apart : Apart w ws) {sql : Sql} {columns : List (List String)}
    (part : AsksNull zone m sql columns) : AsksNull zone m (.word w :: sql) columns := by
  obtain ⟨ts, spells, read⟩ := part
  refine ⟨ws ++ ts, spells.opened apart.glue, ?_⟩
  have glued := nullTests_glued asks apart.some apart.quiet [] ts
  rw [List.nil_append] at glued
  rw [glued, read]
  rfl

theorem AsksNull.closed (apart : Apart w ws) (ends : resumes w.toList = true) {sql : Sql} {columns : List (List String)}
    (part : AsksNull zone m sql columns) : AsksNull zone m (sql ++ [.word w]) columns := by
  obtain ⟨ts, spells, read⟩ := part
  refine ⟨ts ++ ws, spells.closed apart.glue ends, ?_⟩
  have glued := nullTests_glued asks apart.some apart.quiet ts []
  rw [List.append_nil] at glued
  rw [glued, read, nullTests, List.append_nil]

theorem AsksNull.glue (apart : Apart w ws) (ends : resumes w.toList = true) {a b : Sql} {xs ys : List (List String)}
    (left : AsksNull zone m a xs) (right : AsksNull zone m b ys) : AsksNull zone m (a ++ .word w :: b) (xs ++ ys) := by
  obtain ⟨ts, first, rfl⟩ := left
  obtain ⟨us, second, rfl⟩ := right
  exact ⟨_, first.glue apart.glue ends second, nullTests_glued asks apart.some apart.quiet ts us⟩

theorem AsksNull.separated (apart : Apart w ws) (ends : resumes w.toList = true) {parts : List Sql}
    {xs : List (List (List String))} (filled : parts ≠ []) (each : List.Forall₂ (AsksNull zone m) parts xs) :
    AsksNull zone m (Sql.separated w parts) xs.flatten := by
  induction each with
  | nil => exact absurd rfl filled
  | @cons part x r xs first rest ih =>
    cases rest with
    | nil => simpa [Sql.separated_singleton] using first
    | cons next more =>
      rw [Sql.separated_cons_cons, List.flatten_cons]
      exact first.glue asks apart ends (ih (by simp))

theorem AsksNull.combined (op : Combinator) {parts : List Sql} {xs : List (List (List String))} (filled : parts ≠ [])
    (each : List.Forall₂ (AsksNull zone m) parts xs) : AsksNull zone m (op.sql parts) xs.flatten := by
  have opened : Apart "((" [.mark "(", .mark "("] := ⟨⟨rfl, rfl⟩, by simp, rfl⟩
  have denied : Apart "NOT ((" [.word "not", .mark "(", .mark "("] := ⟨⟨rfl, rfl⟩, by simp, rfl⟩
  have both : Apart ") AND (" [.mark ")", .word "and", .mark "("] := ⟨⟨rfl, rfl⟩, by simp, rfl⟩
  have either : Apart ") OR (" [.mark ")", .word "or", .mark "("] := ⟨⟨rfl, rfl⟩, by simp, rfl⟩
  have closed : Apart "))" [.mark ")", .mark ")"] := ⟨⟨rfl, rfl⟩, by simp, rfl⟩
  have conjunction := ((AsksNull.separated asks both rfl filled each).closed asks closed rfl)
  have disjunction := ((AsksNull.separated asks either rfl filled each).closed asks closed rfl)
  cases op with
  | and => exact conjunction.opened asks opened
  | or => exact disjunction.opened asks opened
  | notAnd | not => exact conjunction.opened asks denied
  | notOr => exact disjunction.opened asks denied

theorem AsksNull.within (table : String) {sql : Sql} {columns : List (List String)}
    (part : AsksNull zone m sql columns) : AsksNull zone m (existsSql table sql) columns := by
  have opened : Apart "EXISTS (SELECT * FROM " [.word "exists", .mark "(", .word "select", .operator "*", .word "from"] :=
    ⟨⟨rfl, rfl⟩, by simp, rfl⟩
  have filtered : Apart " WHERE " [.word "where"] := ⟨⟨rfl, rfl⟩, by simp, rfl⟩
  have closed : Apart ")" [.mark ")"] := ⟨⟨rfl, rfl⟩, by simp, rfl⟩
  have named : AsksNull zone m [.name [table]] [] := by
    have tight : Sql.Tight zone [.name [table]] := .name rfl .nil
    refine ⟨_, tight.spells (by simp [Sql.Fits, Piece.datesFit]), ?_⟩
    simp [pathTokens, nullTests]
  have inner := ((named.glue asks filtered rfl part).closed asks closed rfl).opened asks opened
  simpa [existsSql] using inner

theorem asksNull_test (zone : Zone) (s : String) (r : List String) {test : Test}
    (spliceable : test.isSpliceable zone (s :: r) = true) :
    AsksNull zone m (test.sql (s :: r)) (test.nullColumns zone m (s :: r)) := by
  refine ⟨_, Test.spells zone s r spliceable, ?_⟩
  unfold Test.nullColumns
  cases plain : test.isRaw with
  | true => rfl
  | false =>
    rw [Test.tokens_plain zone s r plain]
    exact nullTests_test asks s r plain

theorem collecting_follows (zone : Zone) :
    (Interpretation.collecting (Test.nullColumns zone m)).Follows (AsksNull zone m) where
  all _ _ some each := AsksNull.separated asks ⟨glue_and, by simp, rfl⟩ rfl some each
  combine op _ _ some each := AsksNull.combined asks op some each
  link := AsksNull.link
  within table _ _ part := part.within asks table

theorem asksNull_groups (zone : Zone) (qualified : Bool) {groups : List Group}
    (tied : ∀ g ∈ groups, g.isTied = true)
    (spliceable : ∀ g ∈ groups, ∀ leaf ∈ g.leaves qualified, leaf.2.isSpliceable zone leaf.1 = true) :
    List.Forall₂ (AsksNull zone m) (groups.filterMap (Group.sql? qualified))
      (groups.filterMap ((Interpretation.collecting (Test.nullColumns zone m)).group? qualified)) := by
  refine Interpretation.groups_follow (collecting_follows asks zone) qualified tied ?_
  intro g member leaf inside
  obtain ⟨s, r, path⟩ := Group.leaf_named inside
  have here := spliceable g member leaf inside
  rw [path] at here ⊢
  exact asksNull_test asks zone s r here

theorem asksNull_clause {qualified : Bool} {groups : List Group} {clause : Sql}
    (found : Group.whereSql? qualified groups = some clause) {xs : List (List (List String))}
    (each : List.Forall₂ (AsksNull zone m) (groups.filterMap (Group.sql? qualified)) xs) :
    AsksNull zone m clause xs.flatten := by
  have single : Apart "WHERE " [.word "where"] := ⟨⟨rfl, rfl⟩, by simp, rfl⟩
  have opened : Apart "WHERE (" [.word "where", .mark "("] := ⟨⟨rfl, rfl⟩, by simp, rfl⟩
  have both : Apart ") AND (" [.mark ")", .word "and", .mark "("] := ⟨⟨rfl, rfl⟩, by simp, rfl⟩
  have closed : Apart ")" [.mark ")"] := ⟨⟨rfl, rfl⟩, by simp, rfl⟩
  unfold Group.whereSql? at found
  generalize groups.filterMap (Group.sql? qualified) = parts at found each
  match parts, each with
  | [], _ => cases found
  | [part], .cons first .nil =>
    cases found
    simpa using first.opened asks single
  | first :: second :: r, each =>
    cases found
    exact (((AsksNull.separated asks both rfl (by simp) each).closed asks closed rfl).opened asks opened)

end

def clauseText (zone : Zone) (clause : Option Sql) : Except Fault String :=
  clause.elim (.ok "") (Sql.render zone)

-- The clause of any groups asks for NULL with IS just where a plain value is null, and with an equality just
-- where a comparison by `eq` is with null; wherever in the groups these stand. Text of a caller's own asks for
-- what it asks for by itself.
theorem null_asked (zone : Zone) (qualified : Bool) (groups : List Group) (tied : ∀ g ∈ groups, g.isTied = true)
    (spliceable : ∀ g ∈ groups, ∀ leaf ∈ g.leaves qualified, leaf.2.isSpliceable zone leaf.1 = true) :
    ∃ text ts, clauseText zone (Group.whereSql? qualified groups) = .ok text ∧ lex text = some ts ∧
      ∀ m : Token, m.asks = true → nullTests m [] ts =
        groups.flatMap fun g => (g.leaves qualified).flatMap fun leaf => leaf.2.nullColumns zone m leaf.1 := by
  have asked {m : Token} (asks : m.asks = true) := asksNull_groups asks zone qualified tied spliceable
  cases found : Group.whereSql? qualified groups with
  | none =>
    refine ⟨"", [], rfl, rfl, ?_⟩
    intro m asks
    have nothing : groups.filterMap (Group.sql? qualified) = [] := by
      unfold Group.whereSql? at found
      split at found <;> first | assumption | cases found
    have each := asked asks
    rw [nothing, List.forall₂_nil_left_iff] at each
    rw [← Interpretation.groups_collecting, each]
    rfl
  | some clause =>
    obtain ⟨ts, spells, -⟩ := asksNull_clause (m := .word "is") rfl found (asked rfl)
    obtain ⟨text, written, split⟩ := spells.rendered
    refine ⟨text, ts, written, split, ?_⟩
    intro m asks
    obtain ⟨us, again, read⟩ := asksNull_clause asks found (asked asks)
    obtain ⟨other, rewritten, splits⟩ := again.rendered
    cases Except.ok.inj (written.symm.trans rewritten)
    cases Option.some.inj (split.symm.trans splits)
    rw [read, Interpretation.groups_collecting]

-- A denied disjunction, a text of the caller's own beside it, and a correlated group.
def deletedGroups : List Group := [
  ⟨some "t1", .node [(.notOr, [.node [] [("a", .value .null)], .node [] [("b", .compare (.eq .null))]])]
    [("c", .compare (.raw "?:column IS NULL OR age = ?:value" [.int32 0])), ("d", .value (.text "a = NULL"))], none⟩,
  ⟨none, .node [] [("deleted_at", .value .null), ("owner", .compare (.ne .null))],
    some ⟨"orders", "t1", .single "user" "id"⟩⟩]

theorem deleted_asked : ∃ text ts, clauseText .utc (Group.whereSql? true deletedGroups) = .ok text ∧
    lex text = some ts ∧ nullTests (.word "is") [] ts = [["t1", "a"], ["t1", "c"], ["deleted_at"]] ∧
    nullTests (.operator "=") [] ts = [["t1", "b"]] := by
  have tied : ∀ g ∈ deletedGroups, g.isTied = true := List.all_eq_true.mp rfl
  have spliceable : (deletedGroups.all fun g => (g.leaves true).all fun leaf => leaf.2.isSpliceable .utc leaf.1) =
      true := by decide +kernel
  simp only [List.all_eq_true] at spliceable
  obtain ⟨text, ts, written, split, asked⟩ := null_asked .utc true deletedGroups tied spliceable
  refine ⟨text, ts, written, split, ?_, ?_⟩
  · rw [asked _ rfl]
    decide +kernel
  · rw [asked _ rfl]
    decide +kernel

-- A comparison by `eq` with null is an equality, and there is no IS NULL.
theorem eq_null_equality :
    (Group.whereSql? false [.plain none (.node [] [("deleted_at", .compare (.eq .null))])]).map (Sql.text .utc) =
      some "WHERE \"deleted_at\" = NULL" ∧
    (lex "WHERE \"deleted_at\" = NULL").map (nullTests (.word "is") []) = some [] ∧
    (lex "WHERE \"deleted_at\" = NULL").map (nullTests (.operator "=") []) = some [["deleted_at"]] := by
  decide +kernel

end QueryKit
