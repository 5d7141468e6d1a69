import QueryKit.Proofs.Assignments
import QueryKit.Proofs.FilterMeaning

-- UPDATE and DELETE with filters. A filter is left out when there is no test anywhere in it; with any
-- other one the statement has a WHERE clause, and only the rows that fulfil it are touched.

namespace QueryKit
open Lexer

namespace Conditions

theorem conjunction?_eq_none_iff (parts : List Sql) : conjunction? parts = none ↔ parts = [] := by
  cases parts <;> simp [conjunction?]

section
variable (table : Option String)

mutual
theorem sql?_eq_none_iff (c : Conditions) : c.sql? table = none ↔ c.isVacuous = true := by
  cases c with
  | node combinators columns =>
    rw [sql?, conjunction?_eq_none_iff, List.append_eq_nil_iff, combinatorParts_eq_nil_iff combinators, isVacuous,
      every, Bool.and_eq_true, List.map_eq_nil_iff]
    cases columns <;> simp
theorem combinatorParts_eq_nil_iff (combinators : List (Combinator × List Conditions)) :
    combinatorParts table combinators = [] ↔ combinatorsEvery (fun _ => false) combinators = true := by
  cases combinators with
  | nil => simp [combinatorParts, combinatorsEvery]
  | cons nested r =>
    obtain ⟨op, groups⟩ := nested
    have inner := nestedParts_eq_nil_iff groups
    rw [combinatorsEvery, Bool.and_eq_true, ← inner, ← combinatorParts_eq_nil_iff r, combinatorParts]
    cases nestedParts table groups <;> simp
theorem nestedParts_eq_nil_iff (groups : List Conditions) :
    nestedParts table groups = [] ↔ groupsEvery (fun _ => false) groups = true := by
  cases groups with
  | nil => simp [nestedParts, groupsEvery]
  | cons c r =>
    have inner := sql?_eq_none_iff c
    rw [isVacuous] at inner
    rw [groupsEvery, Bool.and_eq_true, ← inner, ← nestedParts_eq_nil_iff r, nestedParts]
    cases c.sql? table <;> simp
end

end

theorem isVacuous_of_isEmpty {c : Conditions} (empty : c.isEmpty = true) : c.isVacuous = true := by
  obtain ⟨combinators, columns⟩ := c
  simp only [isEmpty, Conditions.columns, Conditions.combinators, Bool.and_eq_true, List.isEmpty_iff] at empty
  obtain ⟨rfl, rfl⟩ := empty
  rfl

end Conditions

-- A tree without tests of a caller's own, whose timestamps can be written.
def Conditions.isWritable (zone : Zone) (c : Conditions) : Bool :=
  c.every (!·.isRaw) && c.every (Test.datesFit zone)

def filterGroups (filters : List Conditions) : List Group := filters.map (Group.plain none)

theorem whereSql?_filterGroups (filters : List Conditions) :
    Group.whereSql? false (filterGroups filters) = none ↔ ∀ c ∈ filters, c.isVacuous = true := by
  have parts : (filterGroups filters).filterMap (Group.sql? false) = filters.filterMap (Conditions.sql? none) := by
    rw [filterGroups, List.filterMap_map]
    rfl
  have nothing : Group.whereSql? false (filterGroups filters) = none ↔ filters.filterMap (Conditions.sql? none) = [] := by
    rw [Group.whereSql?, parts]
    rcases filters.filterMap (Conditions.sql? none) with _ | ⟨part, _ | ⟨next, r⟩⟩ <;> simp
  rw [nothing, List.filterMap_eq_nil_iff]
  constructor
  · intro silent c member
    exact (Conditions.sql?_eq_none_iff none c).mp (silent c member)
  · intro vacuous c member
    exact (Conditions.sql?_eq_none_iff none c).mpr (vacuous c member)

-- A statement under filters. Without a test in any of them it ends with its head. With one, a clause stands behind it,
-- and if none of the tests is a caller's own, just those rows pass that fulfil all of the filters.
structure Filtered (zone : Zone) (filters : List Conditions) (head : List Token) (text : String) : Prop where
  whole : (∀ c ∈ filters, c.isVacuous = true) → lex text = some head
  clause : (∃ c ∈ filters, c.isVacuous = false) → ∃ rest, Leads text (head ++ [.word "where"]) rest ∧
    ((∀ c ∈ filters, c.every (!·.isRaw) = true) → ∃ f, readWhere ("WHERE " ++ rest) = some f ∧
      ∀ rows σ, f.eval rows σ = filters.all fun c => c.holds zone none σ)

section
variable {zone : Zone} {filters : List Conditions}

theorem known_filterGroups (plain : ∀ c ∈ filters, c.every (!·.isRaw) = true) : ∀ g ∈ filterGroups filters, g.Known := by
  intro g member
  obtain ⟨c, inside, rfl⟩ := List.mem_map.mp member
  constructor
  · intro q found
    cases found
  · exact plain c inside

theorem filtered_text {head : Sql} (tight : Sql.Tight zone head) (filters : List Conditions) :
    Filtered zone filters (Sql.tokens zone head) ((head ++ filterSql (filterGroups filters)).text zone) := by
  have silent := whereSql?_filterGroups filters
  constructor
  · intro vacuous
    exact lex_unfiltered tight (silent.mpr vacuous)
  · rintro ⟨c, member, telling⟩
    cases found : Group.whereSql? false (filterGroups filters) with
    | none =>
      rw [silent.mp found c member] at telling
      cases telling
    | some clause =>
      obtain ⟨rest, worded, leads⟩ := leads_filter tight found
      refine ⟨rest, leads, ?_⟩
      intro plain
      obtain ⟨-, reads⟩ := whereSql?_reads zone false (filterGroups filters) (known_filterGroups plain)
      obtain ⟨⟨spaced, items, f, nests, read, means, -⟩, -⟩ := reads clause found
      refine ⟨f, ?_, ?_⟩
      · rw [← worded, readWhere, Sql.lex_text spaced]
        simp [nest_of_nests nests, read]
      · intro rows σ
        rw [means, filterGroups, List.all_map]
        rfl

theorem fits_filterSql (writable : ∀ c ∈ filters, c.isWritable zone = true) :
    Sql.Fits zone (filterSql (filterGroups filters)) := by
  have plain : ∀ c ∈ filters, c.every (!·.isRaw) = true := by
    intro c member
    exact (Bool.and_eq_true_iff.mp (writable c member)).1
  obtain ⟨-, reads⟩ := whereSql?_reads zone false (filterGroups filters) (known_filterGroups plain)
  unfold filterSql
  cases found : Group.whereSql? false (filterGroups filters) with
  | none => simp [Sql.Fits]
  | some clause =>
    have each : ∀ g ∈ filterGroups filters, g.conditions.every (Test.datesFit zone) = true := by
      intro g member
      obtain ⟨c, inside, rfl⟩ := List.mem_map.mp member
      exact (Bool.and_eq_true_iff.mp (writable c inside)).2
    exact List.forall_mem_cons.mpr ⟨rfl, (reads clause found).2 each⟩

theorem render_of_fits {sql : Sql} (fits : Sql.Fits zone sql) : Sql.render zone sql = .ok (sql.text zone) := by
  rw [Sql.render, if_pos (List.all_eq_true.mpr fits)]

end

namespace Remove

inductive Call where
  | ofTable (table : String)
  | filter (conditions : Conditions)

namespace Call

def table? : Call → Option String
  | .ofTable table => some table
  | .filter _ => none

def conditions? : Call → Option Conditions
  | .ofTable _ => none
  | .filter conditions => some conditions

end Call

def apply (q : Remove) : Call → Remove
  | .ofTable table => q.ofTable table
  | .filter conditions => q.filter conditions

def applyAll (q : Remove) (calls : List Call) : Remove := calls.foldl apply q

theorem applyAll_table (q : Remove) (calls : List Call) :
    (q.applyAll calls).table = (calls.filterMap Call.table?).getLast?.or q.table :=
  foldl_latest (fun _ c => by cases c <;> rfl) q calls

theorem applyAll_zone (q : Remove) (calls : List Call) : (q.applyAll calls).zone = q.zone :=
  foldl_kept (fun _ c => by cases c <;> rfl) q calls

theorem applyAll_groups (q : Remove) (calls : List Call) :
    (q.applyAll calls).groups = q.groups ++ filterGroups (calls.filterMap Call.conditions?) := by
  induction calls generalizing q with
  | nil => simp [applyAll, filterGroups]
  | cons c r ih =>
    show ((q.apply c).applyAll r).groups = _
    rw [ih]
    cases c with
    | ofTable table => rfl
    | filter conditions => simp [apply, filter, Call.conditions?, filterGroups]

def tokens (table : String) : List Token := [.word "delete", .word "from", .name table]

def headSql (table : String) : Sql := [.word "DELETE FROM ", .name [table]]

theorem tight_headSql (zone : Zone) (table : String) : Sql.Tight zone (headSql table) :=
  .word rfl (.name rfl .nil)

theorem tokens_headSql (zone : Zone) (table : String) : Sql.tokens zone (headSql table) = tokens table := by
  have lexed : lex "DELETE FROM " = some [.word "delete", .word "from"] := rfl
  simp [headSql, tokens, Piece.tokens_word zone lexed, pathTokens]

theorem sql_applyAll (zone : Zone) (calls : List Call) : ((new zone).applyAll calls).sql =
    match (calls.filterMap Call.table?).getLast? with
    | none => .error (.query (.noTable .delete))
    | some table => .ok (headSql table ++ filterSql (filterGroups (calls.filterMap Call.conditions?))) := by
  have named : ((new zone).applyAll calls).table = (calls.filterMap Call.table?).getLast? := by
    rw [applyAll_table]
    exact Option.or_none
  rw [sql, named, applyAll_groups]
  cases (calls.filterMap Call.table?).getLast? <;> rfl

theorem build_filtered (zone : Zone) (calls : List Call) {text : String}
    (built : ((new zone).applyAll calls).build = .ok text) :
    ∃ table, (calls.filterMap Call.table?).getLast? = some table ∧
      Filtered zone (calls.filterMap Call.conditions?) (tokens table) text := by
  rw [build, sql_applyAll, applyAll_zone] at built
  cases named : (calls.filterMap Call.table?).getLast? with
  | none =>
    rw [named] at built
    cases built
  | some table =>
    rw [named] at built
    refine ⟨table, rfl, ?_⟩
    rw [Sql.text_of_render built, ← tokens_headSql]
    exact filtered_text (tight_headSql zone table) _

theorem build_written (zone : Zone) (calls : List Call) {table : String}
    (named : (calls.filterMap Call.table?).getLast? = some table)
    (writable : ∀ c ∈ calls.filterMap Call.conditions?, c.isWritable zone = true) :
    ∃ text, ((new zone).applyAll calls).build = .ok text := by
  rw [build, sql_applyAll, applyAll_zone, named]
  have head : Sql.Fits zone (headSql table) := by simp [Sql.Fits, headSql, Piece.datesFit]
  exact ⟨_, render_of_fits (List.forall_mem_append.mpr ⟨head, fits_filterSql writable⟩)⟩

end Remove

namespace Columns
variable {α : Type}

theorem mem_of_mem_settled {pairs : List (String × α)} {pair : String × α} (member : pair ∈ settled pairs) :
    pair ∈ pairs := by
  obtain ⟨name, -, found⟩ := List.mem_filterMap.mp member
  obtain ⟨v, value, rfl⟩ := Option.map_eq_some_iff.mp found
  obtain ⟨before, after, spelled, -⟩ := List.lookup_eq_some_iff.mp value
  rw [← List.mem_reverse, spelled]
  simp

theorem settled_ne_nil {pairs : List (String × α)} (filled : pairs ≠ []) : settled pairs ≠ [] := by
  obtain ⟨⟨name, v⟩, r, rfl⟩ := List.exists_cons_of_ne_nil filled
  intro empty
  have first : name ∈ (((name, v) :: r).map (·.1)).eraseDups := List.mem_eraseDups.mpr List.mem_cons_self
  rw [← names_settled, empty] at first
  cases first

end Columns

namespace Update

theorem build_filtered (zone : Zone) (calls : List Call) {text : String}
    (built : ((new zone).applyAll calls).build = .ok text) :
    ∃ table, (calls.filterMap Call.table?).getLast? = some table ∧
      Filtered zone (calls.filterMap Call.conditions?)
        (tokens zone table (Columns.settled (calls.flatMap Call.pairs))) text := by
  obtain ⟨table, named, rfl⟩ := build_text zone calls built
  refine ⟨table, named, ?_⟩
  rw [← tokens_assignmentSql]
  exact filtered_text (tight_assignmentSql zone table _) _

theorem fits_assignmentSql {zone : Zone} (table : String) {changes : Columns Value}
    (dates : ∀ change ∈ changes, Sql.datesFit zone change.2 = true) : Sql.Fits zone (assignmentSql table changes) := by
  have each : ∀ part ∈ assignments changes, Sql.Fits zone part := by
    intro part member
    obtain ⟨change, inside, rfl⟩ := List.mem_map.mp member
    have fits := dates change inside
    simp [Sql.Fits, Piece.datesFit, fits]
  have whole := fits_separated ", " _ each
  simp only [Sql.Fits, assignmentSql, List.forall_mem_cons] at whole ⊢
  exact ⟨rfl, rfl, rfl, whole⟩

theorem build_written (zone : Zone) (calls : List Call) {table : String}
    (named : (calls.filterMap Call.table?).getLast? = some table) (changed : calls.flatMap Call.pairs ≠ [])
    (values : ∀ change ∈ calls.flatMap Call.pairs, Sql.datesFit zone change.2 = true)
    (writable : ∀ c ∈ calls.filterMap Call.conditions?, c.isWritable zone = true) :
    ∃ text, ((new zone).applyAll calls).build = .ok text := by
  have written : (Columns.settled (calls.flatMap Call.pairs)).isEmpty = false := by
    simpa using Columns.settled_ne_nil changed
  have head : Sql.Fits zone (assignmentSql table (Columns.settled (calls.flatMap Call.pairs))) :=
    fits_assignmentSql table fun change member => values change (Columns.mem_of_mem_settled member)
  rw [build, sql_applyAll, applyAll_zone, named]
  simp only [written, Bool.false_eq_true, if_false]
  exact ⟨_, render_of_fits (List.forall_mem_append.mpr ⟨head, fits_filterSql writable⟩)⟩

end Update

-- A filter is lost only when it holds no test, as an empty one does. Every other filter ends up in the
-- clause of each UPDATE and DELETE it is given to, and those touch no row that does not fulfil it. They are
-- built when their timestamps can be written.
theorem changes_filtered (zone : Zone) :
    (∀ (c : Conditions) (table : Option String),
      (c.sql? table = none ↔ c.isVacuous = true) ∧ (c.isEmpty = true → c.isVacuous = true)) ∧
    (∀ (calls : List Remove.Call),
      (∀ text, ((Remove.new zone).applyAll calls).build = .ok text →
        ∃ table, (calls.filterMap Remove.Call.table?).getLast? = some table ∧
          Filtered zone (calls.filterMap Remove.Call.conditions?) (Remove.tokens table) text) ∧
      ∀ table, (calls.filterMap Remove.Call.table?).getLast? = some table →
        (∀ c ∈ calls.filterMap Remove.Call.conditions?, c.isWritable zone = true) →
        ∃ text, ((Remove.new zone).applyAll calls).build = .ok text) ∧
    ∀ (calls : List Update.Call),
      (∀ text, ((Update.new zone).applyAll calls).build = .ok text →
        ∃ table, (calls.filterMap Update.Call.table?).getLast? = some table ∧
          Filtered zone (calls.filterMap Update.Call.conditions?)
            (Update.tokens zone table (Columns.settled (calls.flatMap Update.Call.pairs))) text) ∧
      ∀ table, (calls.filterMap Update.Call.table?).getLast? = some table → calls.flatMap Update.Call.pairs ≠ [] →
        (∀ change ∈ calls.flatMap Update.Call.pairs, Sql.datesFit zone change.2 = true) →
        (∀ c ∈ calls.filterMap Update.Call.conditions?, c.isWritable zone = true) →
        ∃ text, ((Update.new zone).applyAll calls).build = .ok text := by
  refine ⟨fun c table => ⟨Conditions.sql?_eq_none_iff table c, Conditions.isVacuous_of_isEmpty⟩, ?_, ?_⟩
  · intro calls
    constructor
    · intro text built
      exact Remove.build_filtered zone calls built
    · intro table named writable
      exact Remove.build_written zone calls named writable
  · intro calls
    constructor
    · intro text built
      exact Update.build_filtered zone calls built
    · intro table named changed values writable
      exact Update.build_written zone calls named changed values writable

-- A disjunction with an empty tree beside a test: the empty one is left out, and the test stays.
def partlyEmpty : Conditions := .node [(.or, [.empty, .node [] [("name", .value (.text "x"))]])] []

theorem partlyEmpty_kept : ∃ rest,
    Leads "DELETE FROM \"person\" WHERE ((\"name\" = 'x'))" [.word "delete", .word "from", .name "person", .word "where"] rest ∧
      ∃ f, readWhere ("WHERE " ++ rest) = some f ∧
        ∀ rows σ, f.eval rows σ = σ [.name "name", .operator "=", .text "x"] := by
  have built : ((Remove.new .utc).applyAll [.ofTable "person", .filter partlyEmpty]).build =
      .ok "DELETE FROM \"person\" WHERE ((\"name\" = 'x'))" := rfl
  obtain ⟨table, named, filtered⟩ :=
    ((changes_filtered .utc).2.1 [.ofTable "person", .filter partlyEmpty]).1 _ built
  cases named
  obtain ⟨rest, leads, reads⟩ := filtered.clause ⟨partlyEmpty, List.mem_cons_self, rfl⟩
  obtain ⟨f, read, means⟩ := reads (by rintro c ⟨⟩ <;> [rfl; contradiction])
  refine ⟨rest, leads, f, read, ?_⟩
  intro rows σ
  have filters : [Remove.Call.ofTable "person", .filter partlyEmpty].filterMap Remove.Call.conditions? = [partlyEmpty] := rfl
  have equals : lex " = " = some [.operator "="] := rfl
  rw [means, filters]
  simp [partlyEmpty, Conditions.empty, Conditions.holds, Conditions.combinatorsHold, Conditions.groupsHold,
    Conditions.groupsEvery, Conditions.combinatorsEvery, Conditions.every, Combinator.joins, Test.holds, Test.sql,
    columnPath, pathTokens, literalTokens, Piece.tokens_word _ equals]

def emptyOr : Conditions := Conditions.empty.combine .or []

theorem emptyOr_lost : emptyOr.isEmpty = false ∧ emptyOr.sql? none = none ∧
    (((Remove.new .utc).ofTable "person").filter emptyOr).build = .ok "DELETE FROM \"person\"" ∧
    ((((Update.new .utc).ofTable "person").set "name" (.text "x")).filter emptyOr).build =
      .ok "UPDATE \"person\" SET \"name\" = 'x'" :=
  ⟨rfl, rfl, rfl, rfl⟩

end QueryKit
