import QueryKit.Proofs.SelectTokens

-- Columns and the aliases in front of them. What is put together of columns by their own names, of columns
-- behind given aliases, of literals and of words without a point reads as tokens in which a point stands
-- behind one of those aliases only.

namespace QueryKit
open Decimal

namespace Lexer

-- Tokens with a point between one of the aliases and a name, and nowhere else.
inductive Dotted (aliases : List String) : List Token → Prop where
  | nil : Dotted aliases []
  | plain {t : Token} {r : List Token} (other : t ≠ .mark ".") (rest : Dotted aliases r) : Dotted aliases (t :: r)
  | column {label : String} (known : label ∈ aliases) (name : String) {r : List Token} (rest : Dotted aliases r) :
      Dotted aliases (.name label :: .mark "." :: .name name :: r)

section
variable {aliases : List String}

theorem Dotted.append {a b : List Token} (left : Dotted aliases a) (right : Dotted aliases b) :
    Dotted aliases (a ++ b) := by
  induction left with
  | nil => exact right
  | plain other rest ih => exact .plain other ih
  | column known name rest ih => exact .column known name ih

theorem dotted_of_plain {ts : List Token} (each : ∀ t ∈ ts, t ≠ .mark ".") : Dotted aliases ts := by
  induction ts with
  | nil => exact .nil
  | cons t r ih =>
    obtain ⟨here, later⟩ := List.forall_mem_cons.mp each
    exact .plain here (ih later)

end

def pointless (ts : List Token) : Bool := ts.all (· != .mark ".")

theorem pointless_append {a b : List Token} (left : pointless a = true) (right : pointless b = true) :
    pointless (a ++ b) = true := by
  simp only [pointless, List.all_append] at left right ⊢
  rw [left, right]
  rfl

theorem pointless_operatorTokens (run : List Char) : pointless (operatorTokens run) = true := by
  unfold operatorTokens
  split
  · rfl
  · apply pointless_append
    · split <;> rfl
    · rw [pointless, List.all_map]
      exact List.all_eq_true.mpr fun c _ => rfl

theorem pointless_opening (o : Opening) (content : List Char) (r : List Token) :
    pointless (o.token content :: r) = pointless r := by
  cases o <;> rfl

theorem pointless_flush {m : Mode} (off : m ≠ .point) {ts : List Token} (ended : m.flush = some ts) :
    pointless ts = true := by
  cases m with
  | point => exact absurd rfl off
  | exponent read =>
    simp only [Mode.flush, Option.ite_none_right_eq_some] at ended
    cases ended.2
    rfl
  | operator read =>
    cases ended
    exact pointless_operatorTokens _
  | closed o | gap o | gapDash o | gapComment o =>
    cases ended
    exact pointless_opening o _ _
  | _ => cases ended <;> rfl

theorem pointless_extend {m : Mode} {c : Char} {ts : List Token} {next : Mode}
    (taken : m.extend? c = some (ts, next)) : pointless ts = true ∧ next ≠ .point := by
  unfold Mode.extend? at taken
  split at taken <;> repeat' split at taken
  all_goals simp only [reduceCtorEq, Option.some.injEq, Prod.mk.injEq, Option.map_eq_some_iff] at taken
  all_goals
    first
      | obtain ⟨rfl, rfl⟩ := taken
      | obtain ⟨o, -, rfl, rfl⟩ := taken
    constructor
    · first
        | rfl
        | exact pointless_operatorTokens _
        | exact pointless_opening _ _ []
    · intro same
      cases same

theorem pointless_begin {c : Char} (other : c ≠ '.') :
    pointless (Mode.begin c).1 = true ∧ (Mode.begin c).2 ≠ .point := by
  have single : String.singleton c ≠ "." := by
    intro same
    have chars := congrArg String.toList same
    simp only [String.toList_singleton] at chars
    exact other (List.cons.inj chars).1
  unfold Mode.begin
  simp only [if_neg other]
  repeat' split
  all_goals simp [pointless, single]

theorem pointless_scan {m : Mode} (off : m ≠ .point) {cs : List Char} (free : '.' ∉ cs) :
    pointless (m.scan cs).1 = true ∧ (m.scan cs).2 ≠ .point := by
  induction cs generalizing m with
  | nil => exact ⟨rfl, off⟩
  | cons c r ih =>
    rw [List.mem_cons, not_or] at free
    have step : pointless (m.step c).1 = true ∧ (m.step c).2 ≠ .point := by
      unfold Mode.step
      split
      · rename_i taken
        exact pointless_extend taken
      · split
        · rename_i ended
          obtain ⟨first, later⟩ := pointless_begin (Ne.symm free.1)
          exact ⟨pointless_append (pointless_flush off ended) first, later⟩
        · simp [pointless]
    obtain ⟨rest, last⟩ := ih step.2 free.2
    exact ⟨pointless_append step.1 rest, last⟩

theorem pointless_lex {text : String} (free : '.' ∉ text.toList) {ts : List Token} (lexed : lex text = some ts) :
    pointless ts = true := by
  obtain ⟨given, off⟩ := pointless_scan (m := .ground) (by simp) free
  obtain ⟨last, ended, rfl⟩ := Option.map_eq_some_iff.mp lexed
  exact pointless_append given (pointless_flush off ended)

end Lexer

open Lexer

inductive Reaches (aliases : List String) : List String → Prop where
  | plain (column : String) : Reaches aliases [column]
  | qualified {label : String} (known : label ∈ aliases) (column : String) : Reaches aliases [label, column]

-- Parts of a statement that name no other columns. A caller's own comparison may be among them when `own`
-- says so; the column that it is given is such a one too.
inductive Sql.Bound (aliases : List String) (own : Bool) : Sql → Prop where
  | nil : Bound aliases own []
  | word {w : String} {r : Sql} (free : '.' ∉ w.toList) (rest : Bound aliases own r) : Bound aliases own (.word w :: r)
  | literal (v : Value) {r : Sql} (rest : Bound aliases own r) : Bound aliases own (.literal v :: r)
  | name {path : List String} {r : Sql} (reaches : Reaches aliases path) (rest : Bound aliases own r) :
      Bound aliases own (.name path :: r)
  | filled (owned : own = true) (template : String) (escapes : List Value) {path : List String} {r : Sql}
      (reaches : Reaches aliases path) (rest : Bound aliases own r) :
      Bound aliases own (Template.comparison template escapes (Sql.path path) ++ r)

section
variable {aliases : List String} {own : Bool}

namespace Sql

theorem Bound.append {a b : Sql} (left : Bound aliases own a) (right : Bound aliases own b) :
    Bound aliases own (a ++ b) := by
  induction left with
  | nil => exact right
  | word free rest ih => exact .word free ih
  | literal v rest ih => exact .literal v ih
  | name reaches rest ih => exact .name reaches ih
  | filled owned template escapes reaches rest ih =>
    rw [List.append_assoc]
    exact .filled owned template escapes reaches ih

theorem bound_separated {w : String} (free : '.' ∉ w.toList) {parts : List Sql}
    (each : ∀ part ∈ parts, Bound aliases own part) : Bound aliases own (separated w parts) := by
  induction parts with
  | nil => exact .nil
  | cons part r ih =>
    obtain ⟨here, later⟩ := List.forall_mem_cons.mp each
    cases r with
    | nil =>
      rw [separated_singleton]
      exact here
    | cons next r =>
      rw [separated_cons_cons]
      exact here.append (.word free (ih later))

end Sql

theorem pointless_signed (negative : Bool) (ds : List Char) : pointless (signedTokens negative ds) = true := by
  cases negative <;> rfl

theorem pointless_double (x : Binary64) : pointless (doubleTokens x) = true := by
  unfold doubleTokens
  split
  · rfl
  · rfl
  · exact pointless_signed _ _

theorem pointless_single (x : Binary32) : pointless (singleTokens x) = true := by
  unfold singleTokens
  split
  · exact pointless_signed _ _
  · exact pointless_double _

theorem pointless_coordinate (x : Binary64) : pointless (coordinateTokens x) = true := by
  unfold coordinateTokens
  split
  · rfl
  · split <;> rfl
  · exact pointless_signed _ _

theorem pointless_literal (zone : Zone) (v : Value) : pointless (literalTokens zone v) = true := by
  cases v with
  | int32 | int64 => exact pointless_signed _ _
  | float32 x => exact pointless_single x
  | float64 x => exact pointless_double x
  | point x y =>
    have first : pointless (.word "point" :: .mark "(" :: coordinateTokens x) = true := pointless_coordinate x
    have second : pointless (.mark "," :: coordinateTokens y) = true := pointless_coordinate y
    have closed : pointless [.mark ")"] = true := rfl
    have whole := pointless_append first (pointless_append second closed)
    simpa [literalTokens, pointTokens] using whole
  | _ => rfl

theorem dotted_of_pointless {ts : List Token} (free : pointless ts = true) : Dotted aliases ts := by
  apply dotted_of_plain
  intro t member
  simpa using List.all_eq_true.mp free t member

theorem Sql.Bound.dotted (zone : Zone) {sql : Sql} (bound : Sql.Bound aliases false sql) :
    Dotted aliases (sql.tokens zone) := by
  induction bound with
  | nil => exact .nil
  | @word w r free rest ih =>
    rw [Sql.tokens_cons]
    refine Dotted.append ?_ ih
    unfold Piece.tokens
    cases lexed : lex ((Piece.word w).text zone) with
    | none => exact .nil
    | some ts => exact dotted_of_pointless (pointless_lex free lexed)
  | literal v rest ih =>
    rw [Sql.tokens_cons, Piece.tokens_literal]
    exact (dotted_of_pointless (pointless_literal zone v)).append ih
  | name reaches rest ih =>
    rw [Sql.tokens_cons, Piece.tokens_name]
    cases reaches with
    | plain column => exact .plain (by simp) ih
    | qualified known column => exact .column known column ih
  | filled owned => cases owned

theorem reaches_columnPath {table : Option String} (known : ∀ label, table = some label → label ∈ aliases)
    (column : String) : Reaches aliases (columnPath table column) := by
  cases table with
  | none => exact .plain column
  | some label => exact .qualified (known label rfl) column

theorem bound_column {path : List String} (reaches : Reaches aliases path) : Sql.Bound aliases own [.name path] :=
  .name reaches .nil

theorem bound_literal (v : Value) : Sql.Bound aliases own [.literal v] := .literal v .nil

theorem free_infixText (op : Operator) : '.' ∉ op.infixText.toList := by
  cases op <;> decide

theorem bound_one (op : Operator) {left right : Sql} (first : Sql.Bound aliases own left)
    (second : Sql.Bound aliases own right) : Sql.Bound aliases own (op.compare left (.one right)) := by
  have compared := first.append (.word (free_infixText op) second)
  have closed : Sql.Bound aliases own [.word ")"] := .word (by decide) .nil
  have enclosing := (Sql.Bound.word (w := "NOT (") (by decide) compared).append
    (Sql.Bound.word (w := "))") (by decide) .nil)
  cases op with
  | raw => exact second
  | notAny => simpa [Operator.compare] using enclosing
  | notIn | any => exact compared.append closed
  | _ => exact compared

theorem bound_range (op : Operator) {left lower upper : Sql} (first : Sql.Bound aliases own left)
    (second : Sql.Bound aliases own lower) (third : Sql.Bound aliases own upper) :
    Sql.Bound aliases own (op.compare left (.range lower upper)) := by
  have both := second.append (.word (w := " AND ") (by decide) third)
  show Sql.Bound aliases own (left ++ .word (if op = .notBetween then " NOT BETWEEN " else " BETWEEN ") :: lower ++
    .word " AND " :: upper)
  rw [List.append_assoc]
  refine first.append (.word ?_ both)
  split <;> decide

-- A caller's own comparison stands only where there may be one.
theorem bound_template {test : Test} (plain : own = false → test.isRaw = false) (raw : test.isRaw = true)
    (template : String) (escapes : List Value) {path : List String} (reaches : Reaches aliases path) :
    Sql.Bound aliases own (Template.comparison template escapes (Sql.path path)) := by
  have owned : own = true := by
    cases own with
    | true => rfl
    | false =>
      rw [plain rfl] at raw
      cases raw
  rw [← List.append_nil (Template.comparison _ _ _)]
  exact .filled owned template escapes reaches .nil

theorem bound_comparator {path : List String} (reaches : Reaches aliases path) (c : Comparator)
    (plain : own = false → (Test.compare c).isRaw = false) : Sql.Bound aliases own (c.sql path) := by
  have column : Sql.Bound aliases own [.name path] := bound_column reaches
  obtain ⟨op, operand, fits⟩ := c
  cases operand with
  | raw template escapes => exact bound_template plain rfl template escapes reaches
  | range lower upper => exact bound_range op column (bound_literal lower) (bound_literal upper)
  | value v | expression v =>
    unfold Comparator.sql
    simp only
    split
    · exact bound_one op (bound_literal v) column
    · exact bound_one op column (bound_literal v)

theorem bound_test {path : List String} (reaches : Reaches aliases path) (test : Test)
    (plain : own = false → test.isRaw = false) : Sql.Bound aliases own (test.sql path) := by
  unfold Test.sql
  split
  · exact .name reaches (.word (by decide) .nil)
  · exact .word (by decide) .nil
  · exact .name reaches (.word (by decide) (.literal _ (.word (by decide) .nil)))
  · exact .name reaches (.word (by decide) (bound_literal _))
  · exact bound_comparator reaches _ plain

theorem bound_combinator (op : Combinator) {parts : List Sql} (each : ∀ part ∈ parts, Sql.Bound aliases own part) :
    Sql.Bound aliases own (op.sql parts) := by
  have inside : Sql.Bound aliases own (Sql.separated (") " ++ op.keyword ++ " (") parts) := by
    apply Sql.bound_separated _ each
    cases op <;> decide
  have closed : Sql.Bound aliases own [.word "))"] := .word (by decide) .nil
  refine .word ?_ (inside.append closed)
  split <;> decide

theorem bound_conjunction {parts : List Sql} (each : ∀ part ∈ parts, Sql.Bound aliases own part) {sql : Sql}
    (written : conjunction? parts = some sql) : Sql.Bound aliases own sql := by
  unfold conjunction? at written
  split at written
  · cases written
  · cases written
    exact Sql.bound_separated (by decide) each

mutual
theorem bound_tree {table : Option String} (known : ∀ label, table = some label → label ∈ aliases) (c : Conditions)
    (plain : own = false → c.every (!·.isRaw) = true) {sql : Sql} (written : c.sql? table = some sql) :
    Sql.Bound aliases own sql := by
  cases c with
  | node combinators columns =>
    simp only [Conditions.every, Bool.and_eq_true] at plain
    rw [Conditions.sql?] at written
    refine bound_conjunction ?_ written
    intro part member
    rcases List.mem_append.mp member with nested | tested
    · exact bound_combinators known combinators (fun free => (plain free).1) part nested
    · obtain ⟨⟨column, test⟩, inside, rfl⟩ := List.mem_map.mp tested
      apply bound_test (reaches_columnPath known column)
      intro free
      simpa using List.all_eq_true.mp (plain free).2 _ inside
theorem bound_combinators {table : Option String} (known : ∀ label, table = some label → label ∈ aliases)
    (combinators : List (Combinator × List Conditions))
    (plain : own = false → Conditions.combinatorsEvery (!·.isRaw) combinators = true) :
    ∀ part ∈ Conditions.combinatorParts table combinators, Sql.Bound aliases own part := by
  cases combinators with
  | nil => simp [Conditions.combinatorParts]
  | cons nested r =>
    obtain ⟨op, groups⟩ := nested
    simp only [Conditions.combinatorsEvery, Bool.and_eq_true] at plain
    have inner := bound_groups known groups fun free => (plain free).1
    have later := bound_combinators known r fun free => (plain free).2
    rw [Conditions.combinatorParts]
    split
    · exact later
    · exact List.forall_mem_cons.mpr ⟨bound_combinator op inner, later⟩
theorem bound_groups {table : Option String} (known : ∀ label, table = some label → label ∈ aliases)
    (groups : List Conditions) (plain : own = false → Conditions.groupsEvery (!·.isRaw) groups = true) :
    ∀ part ∈ Conditions.nestedParts table groups, Sql.Bound aliases own part := by
  cases groups with
  | nil => simp [Conditions.nestedParts]
  | cons c r =>
    simp only [Conditions.groupsEvery, Bool.and_eq_true] at plain
    have later := bound_groups known r fun free => (plain free).2
    rw [Conditions.nestedParts]
    split
    · rename_i written
      exact List.forall_mem_cons.mpr ⟨bound_tree known c (fun free => (plain free).1) written, later⟩
    · exact later
end

theorem bound_subquery (q : Subquery) (known : q.outerAlias ∈ aliases) (c : Conditions)
    (plain : own = false → c.every (!·.isRaw) = true) : Sql.Bound aliases own (q.sql c) := by
  have closed : Sql.Bound aliases own [.word ")"] := .word (by decide) .nil
  refine .word (by decide) (.name (.plain q.table) (.word (by decide) ?_))
  refine Sql.Bound.append (Sql.Bound.append (Sql.bound_separated (by decide) ?_) ?_) closed
  · intro part member
    obtain ⟨⟨inner, outer⟩, _, rfl⟩ := List.mem_map.mp member
    exact .name (.plain inner) (.word (by decide) (bound_column (.qualified known outer)))
  · cases written : c.sql? none with
    | none => exact .nil
    | some nested => exact .word (by decide) (bound_tree (by simp) c plain written)

theorem bound_group {qualified : Bool} {g : Group}
    (tables : qualified = true → g.subquery = none → ∀ label, g.table = some label → label ∈ aliases)
    (outer : ∀ q, g.subquery = some q → q.outerAlias ∈ aliases)
    (plain : own = false → g.conditions.every (!·.isRaw) = true) {sql : Sql} (written : g.sql? qualified = some sql) :
    Sql.Bound aliases own sql := by
  obtain ⟨table, conditions, subquery⟩ := g
  cases subquery with
  | some q =>
    cases written
    exact bound_subquery q (outer q rfl) conditions plain
  | none =>
    have known : ∀ label, (if qualified then table else none) = some label → label ∈ aliases := by
      intro label given
      cases qualified with
      | true => exact tables rfl rfl label given
      | false => cases given
    exact bound_tree known conditions plain written

theorem bound_where {qualified : Bool} {groups : List Group}
    (tables : qualified = true → ∀ g ∈ groups, g.subquery = none → ∀ label, g.table = some label → label ∈ aliases)
    (outer : ∀ g ∈ groups, ∀ q, g.subquery = some q → q.outerAlias ∈ aliases)
    (plain : own = false → ∀ g ∈ groups, g.conditions.every (!·.isRaw) = true) {clause : Sql}
    (written : Group.whereSql? qualified groups = some clause) : Sql.Bound aliases own clause := by
  have each : ∀ part ∈ groups.filterMap (Group.sql? qualified), Sql.Bound aliases own part := by
    intro part member
    obtain ⟨g, known, spelled⟩ := List.mem_filterMap.mp member
    exact bound_group (fun named => tables named g known) (outer g known) (fun free => plain free g known) spelled
  unfold Group.whereSql? at written
  split at written
  · cases written
  · rename_i part alone
    cases written
    exact .word (by decide) (each part (by simp [alone]))
  · cases written
    exact .word (by decide) ((Sql.bound_separated (by decide) each).append (.word (by decide) .nil))

end

end QueryKit
