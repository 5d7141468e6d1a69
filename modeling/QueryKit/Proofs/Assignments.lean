import Mathlib.Data.List.Basic
import Mathlib.Data.List.Induction
import Mathlib.Data.List.Perm.Subperm
import QueryKit.Insert
import QueryKit.Proofs.LiteralTokens
import QueryKit.Update

-- What INSERT and UPDATE make of the columns that are set. However often and in whatever order that
-- happens, a statement is its fixed words with one name and one literal for each distinct column.

namespace QueryKit
open Lexer

namespace Columns
variable {α : Type}

-- Distinct columns in the order in which they first come, each with the value that comes last.
def settled (pairs : List (String × α)) : Columns α :=
  (pairs.map (·.1)).eraseDups.filterMap fun name => (pairs.reverse.lookup name).map fun v => (name, v)

theorem setAll_append (a b : List (String × α)) (columns : Columns α) :
    setAll (a ++ b) columns = setAll b (setAll a columns) :=
  List.foldl_append

theorem ofPairs_append (a b : List (String × α)) : ofPairs (a ++ b) = setAll b (ofPairs a) := setAll_append a b []

theorem ofPairs_concat (pairs : List (String × α)) (name : String) (v : α) :
    ofPairs (pairs ++ [(name, v)]) = set name v (ofPairs pairs) :=
  ofPairs_append pairs [(name, v)]

theorem names_ofPairs (pairs : List (String × α)) : names (ofPairs pairs) = (pairs.map (·.1)).eraseDups := by
  induction pairs using List.reverseRecOn with
  | nil => rfl
  | append_singleton earlier p ih =>
    obtain ⟨name, v⟩ := p
    rw [ofPairs_concat, names_set, ih, List.map_append, List.eraseDups_append]
    have alone : [name].eraseDups = [name] := rfl
    by_cases member : name ∈ earlier.map (·.1) <;>
      simp [List.mem_eraseDups, List.removeAll, member, alone]

theorem get?_ofPairs (pairs : List (String × α)) (name : String) :
    get? name (ofPairs pairs) = pairs.reverse.lookup name := by
  induction pairs using List.reverseRecOn with
  | nil => rfl
  | append_singleton earlier p ih =>
    obtain ⟨last, v⟩ := p
    rw [ofPairs_concat, get?_set, ih, List.reverse_append]
    show _ = List.lookup name ((last, v) :: earlier.reverse)
    by_cases same : last = name
    · subst same; simp
    · have apart : (name == last) = false := by simp [Ne.symm same]
      rw [if_neg same, List.lookup_cons, apart]

theorem distinct_ofPairs (pairs : List (String × α)) : (names (ofPairs pairs)).Nodup := by
  induction pairs using List.reverseRecOn with
  | nil => exact List.nodup_nil
  | append_singleton earlier p ih =>
    obtain ⟨name, v⟩ := p
    rw [ofPairs_concat, names_set]
    by_cases member : name ∈ names (ofPairs earlier)
    · rwa [if_pos member]
    · rw [if_neg member]
      refine List.nodup_append.mpr ⟨ih, by simp, ?_⟩
      rintro a present b last rfl
      exact member (List.mem_singleton.mp last ▸ present)

theorem recovered (columns : Columns α) (distinct : (names columns).Nodup) :
    (names columns).filterMap (fun name => (get? name columns).map fun v => (name, v)) = columns := by
  induction columns with
  | nil => rfl
  | cons p r ih =>
    obtain ⟨n, v⟩ := p
    obtain ⟨fresh, distinct⟩ := List.nodup_cons.mp distinct
    have others : ∀ m ∈ names r,
        (get? m ((n, v) :: r)).map (fun w => (m, w)) = (get? m r).map fun w => (m, w) := by
      intro m member
      have apart : n ≠ m := by rintro rfl; exact fresh member
      simp only [get?, if_neg apart]
    have first : (get? n ((n, v) :: r)).map (fun w => (n, w)) = some (n, v) := by simp [get?]
    show (n :: names r).filterMap _ = _
    rw [List.filterMap_cons, first, List.filterMap_congr others, ih distinct]

theorem ofPairs_eq_settled (pairs : List (String × α)) : ofPairs pairs = settled pairs := by
  have whole := recovered (ofPairs pairs) (distinct_ofPairs pairs)
  rw [names_ofPairs] at whole
  rw [← whole]
  simp only [get?_ofPairs, settled]

theorem names_settled (pairs : List (String × α)) : names (settled pairs) = (pairs.map (·.1)).eraseDups := by
  rw [← ofPairs_eq_settled, names_ofPairs]

theorem set_of_fresh {name : String} {columns : Columns α} (fresh : name ∉ names columns) (v : α) :
    set name v columns = columns ++ [(name, v)] := by
  induction columns with
  | nil => rfl
  | cons p r ih =>
    obtain ⟨n, w⟩ := p
    obtain ⟨apart, later⟩ := not_or.mp (mt List.mem_cons.mpr fresh)
    rw [set, if_neg (Ne.symm apart), ih later, List.cons_append]

theorem ofPairs_eq_self_iff (pairs : List (String × α)) : ofPairs pairs = pairs ↔ (pairs.map (·.1)).Nodup := by
  constructor
  · intro same
    have distinct := distinct_ofPairs pairs
    rwa [same] at distinct
  · intro distinct
    induction pairs using List.reverseRecOn with
    | nil => rfl
    | append_singleton earlier p ih =>
      obtain ⟨name, v⟩ := p
      rw [List.map_append, List.nodup_append] at distinct
      have fresh : name ∉ names earlier := fun before => distinct.2.2 name before name (by simp) rfl
      rw [ofPairs_concat, ih distinct.1, set_of_fresh fresh]

theorem length_ofPairs_eq_iff (pairs : List (String × α)) :
    (ofPairs pairs).length = pairs.length ↔ (pairs.map (·.1)).Nodup := by
  constructor
  · intro same
    have inside : names (ofPairs pairs) ⊆ pairs.map (·.1) := by
      rw [names_ofPairs]
      exact fun name member => List.mem_eraseDups.mp member
    have all := (List.subperm_of_subset (distinct_ofPairs pairs) inside).perm_of_length_le (by simp [names, same])
    exact all.nodup_iff.mp (distinct_ofPairs pairs)
  · intro distinct
    rw [(ofPairs_eq_self_iff pairs).mpr distinct]

end Columns

namespace Group

theorem text_whereSql? (zone : Zone) {qualified : Bool} {groups : List Group} {clause : Sql}
    (found : whereSql? qualified groups = some clause) : ∃ rest, clause.text zone = "WHERE " ++ rest := by
  unfold whereSql? at found
  split at found
  · cases found
  · cases found
    exact ⟨_, Sql.text_cons ..⟩
  · cases found
    refine ⟨"(" ++ Sql.text zone (Sql.separated ") AND (" (groups.filterMap (sql? qualified)) ++ [.word ")"]), ?_⟩
    rw [List.cons_append, Sql.text_cons, ← String.append_assoc]
    rfl

end Group

-- A statement with a filter behind it, and one whose filter says nothing.
section
variable {zone : Zone} {head : Sql} {groups : List Group}

theorem lex_unfiltered (tight : Sql.Tight zone head) (nothing : Group.whereSql? false groups = none) :
    lex ((head ++ filterSql groups).text zone) = some (Sql.tokens zone head) := by
  rw [filterSql, nothing, List.append_nil]
  exact Sql.lex_text tight

theorem leads_filter {clause : Sql} (tight : Sql.Tight zone head) (found : Group.whereSql? false groups = some clause) :
    ∃ rest, clause.text zone = "WHERE " ++ rest ∧
      Leads ((head ++ filterSql groups).text zone) (Sql.tokens zone head ++ [.word "where"]) rest := by
  obtain ⟨rest, worded⟩ := Group.text_whereSql? zone found
  refine ⟨rest, worded, ?_⟩
  have splits := tight.splits
  rw [← Sql.toList_text] at splits
  have behind : Sql.text zone (filterSql groups) = " WHERE " ++ rest := by
    rw [filterSql, found]
    show Sql.text zone (.word " " :: clause) = _
    rw [Sql.text_cons, worded, ← String.append_assoc]; rfl
  have keyword : Splits " WHERE ".toList [.word "where"] := ⟨rfl, rfl⟩
  have whole := splits.append keyword (.inr rfl)
  have complete : (Mode.ground.scan (head.text zone ++ " WHERE ").toList).2 = .ground := by
    rw [String.toList_append, splits.scan_append (by decide) (.inr rfl)]; rfl
  rw [← String.toList_append] at whole
  rw [Sql.text_append, behind, ← String.append_assoc]
  exact leads_of_splits whole complete rest

end

-- A part of a state after any number of steps: one that no step changes, one that the latest step with a
-- new value sets, and one that collects what the steps give.
section
variable {σ κ β γ : Type} {step : σ → κ → σ}

theorem foldl_kept {part : σ → β} (each : ∀ q c, part (step q c) = part q) (q : σ) (calls : List κ) :
    part (calls.foldl step q) = part q := by
  induction calls generalizing q with
  | nil => rfl
  | cons c r ih => rw [List.foldl_cons, ih, each]

theorem foldl_latest {part : σ → Option β} {given? : κ → Option β}
    (each : ∀ q c, part (step q c) = (given? c).or (part q)) (q : σ) (calls : List κ) :
    part (calls.foldl step q) = (calls.filterMap given?).getLast?.or (part q) := by
  induction calls using List.reverseRecOn with
  | nil => rfl
  | append_singleton earlier c ih =>
    rw [List.foldl_append, List.foldl_cons, List.foldl_nil, each, ih, List.filterMap_append]
    cases given : given? c <;> simp [given]

theorem foldl_collected {part : σ → β} {given : κ → List γ} {add : List γ → β → β} (addNil : ∀ b, add [] b = b)
    (both : ∀ xs ys b, add (xs ++ ys) b = add ys (add xs b)) (each : ∀ q c, part (step q c) = add (given c) (part q))
    (q : σ) (calls : List κ) : part (calls.foldl step q) = add (calls.flatMap given) (part q) := by
  induction calls generalizing q with
  | nil => exact (addNil _).symm
  | cons c r ih => rw [List.foldl_cons, ih, each, List.flatMap_cons, both]

end

namespace Insert

inductive Call where
  | into (table : String)
  | set (column : String) (v : Value)
  | setAll (values : List (String × Value))

namespace Call

def pairs : Call → List (String × Value)
  | .into _ => []
  | .set column v => [(column, v)]
  | .setAll values => values

def table? : Call → Option String
  | .into table => some table
  | _ => none

end Call

def apply (q : Insert) : Call → Insert
  | .into table => q.into table
  | .set column v => q.set column v
  | .setAll values => q.setAll values

def applyAll (q : Insert) (calls : List Call) : Insert := calls.foldl apply q

theorem applyAll_values (q : Insert) (calls : List Call) :
    (q.applyAll calls).values = Columns.setAll (calls.flatMap Call.pairs) q.values :=
  foldl_collected (fun _ => rfl) Columns.setAll_append (fun _ c => by cases c <;> rfl) q calls

theorem applyAll_table (q : Insert) (calls : List Call) :
    (q.applyAll calls).table = (calls.filterMap Call.table?).getLast?.or q.table :=
  foldl_latest (fun _ c => by cases c <;> rfl) q calls

theorem applyAll_zone (q : Insert) (calls : List Call) : (q.applyAll calls).zone = q.zone :=
  foldl_kept (fun _ c => by cases c <;> rfl) q calls

theorem applyAll_new (zone : Zone) (calls : List Call) : (new zone).applyAll calls =
    ⟨zone, (calls.filterMap Call.table?).getLast?, Columns.settled (calls.flatMap Call.pairs)⟩ := by
  have same := applyAll_zone (new zone) calls
  have table := (applyAll_table (new zone) calls).trans Option.or_none
  have values := (applyAll_values (new zone) calls).trans (Columns.ofPairs_eq_settled _)
  generalize (new zone).applyAll calls = q at same table values
  cases q
  cases same
  cases table
  cases values
  rfl

def tokens (zone : Zone) (table : String) (values : Columns Value) : List Token :=
  [.word "insert", .word "into", .name table] ++
    if values.isEmpty then [.word "default", .word "values"]
    else
      .mark "(" :: listTokens (values.map fun (column, _) => [.name column]) ++
        [.mark ")", .word "values", .mark "("] ++
        listTokens (values.map fun (_, v) => literalTokens zone v) ++ [.mark ")"]

theorem tight_valuesSql (zone : Zone) (values : Columns Value) : Sql.Tight zone (valuesSql values) := by
  unfold valuesSql
  split
  · exact .last rfl
  · have names := Sql.Tight.names zone (values.map (·.1))
    have literals := Sql.Tight.literals zone (values.map (·.2))
    simp only [List.map_map, Function.comp_def] at names literals
    have listed := Sql.Tight.word (w := ") VALUES (") rfl literals
    have whole := (Sql.Tight.word (w := " (") rfl names).append listed (Sql.breaks_word (by decide) rfl)
    exact whole.append (.last rfl) (Sql.breaks_word (by decide) rfl)

theorem tokens_valuesSql (zone : Zone) (table : String) (values : Columns Value) :
    Sql.tokens zone (.word "INSERT INTO " :: .name [table] :: valuesSql values) = tokens zone table values := by
  have head : lex "INSERT INTO " = some [.word "insert", .word "into"] := rfl
  have defaults : lex " DEFAULT VALUES" = some [.word "default", .word "values"] := rfl
  have opened : lex " (" = some [.mark "("] := rfl
  have between : lex ") VALUES (" = some [.mark ")", .word "values", .mark "("] := rfl
  have closed : lex ")" = some [.mark ")"] := rfl
  unfold valuesSql tokens
  split
  · simp [Piece.tokens_word zone head, Piece.tokens_word zone defaults, pathTokens]
  · simp [Piece.tokens_word zone head, Piece.tokens_word zone opened, Piece.tokens_word zone between,
      Piece.tokens_word zone closed, Sql.tokens_comma, pathTokens, Function.comp_def]

theorem breaks_valuesSql (zone : Zone) (values : Columns Value) :
    breaks (Sql.chars zone (valuesSql values)) = true := by
  unfold valuesSql
  split <;> exact Sql.breaks_word (by decide) rfl

theorem tight_sql (zone : Zone) (table : String) (values : Columns Value) :
    Sql.Tight zone (.word "INSERT INTO " :: .name [table] :: valuesSql values) :=
  .word rfl (.name (breaks_valuesSql zone values) (tight_valuesSql zone values))

theorem build_splits (zone : Zone) (calls : List Call) {text : String}
    (built : ((new zone).applyAll calls).build = .ok text) :
    ∃ table, (calls.filterMap Call.table?).getLast? = some table ∧
      lex text = some (tokens zone table (Columns.settled (calls.flatMap Call.pairs))) := by
  rw [applyAll_new] at built
  cases named : (calls.filterMap Call.table?).getLast? with
  | none =>
    rw [named] at built
    cases built
  | some table =>
    rw [named] at built
    have rendered : Sql.render zone (.word "INSERT INTO " :: .name [table] ::
        valuesSql (Columns.settled (calls.flatMap Call.pairs))) = .ok text := built
    refine ⟨table, rfl, ?_⟩
    rw [Sql.text_of_render rendered, Sql.lex_text (tight_sql zone table _), tokens_valuesSql]

end Insert

namespace Update

inductive Call where
  | ofTable (table : String)
  | set (column : String) (v : Value)
  | setAll (changes : List (String × Value))
  | filter (conditions : Conditions)

namespace Call

def pairs : Call → List (String × Value)
  | .set column v => [(column, v)]
  | .setAll changes => changes
  | _ => []

def table? : Call → Option String
  | .ofTable table => some table
  | _ => none

def conditions? : Call → Option Conditions
  | .filter conditions => some conditions
  | _ => none

end Call

def apply (q : Update) : Call → Update
  | .ofTable table => q.ofTable table
  | .set column v => q.set column v
  | .setAll changes => q.setAll changes
  | .filter conditions => q.filter conditions

def applyAll (q : Update) (calls : List Call) : Update := calls.foldl apply q

theorem applyAll_changes (q : Update) (calls : List Call) :
    (q.applyAll calls).changes = Columns.setAll (calls.flatMap Call.pairs) q.changes :=
  foldl_collected (fun _ => rfl) Columns.setAll_append (fun _ c => by cases c <;> rfl) q calls

theorem applyAll_table (q : Update) (calls : List Call) :
    (q.applyAll calls).table = (calls.filterMap Call.table?).getLast?.or q.table :=
  foldl_latest (fun _ c => by cases c <;> rfl) q calls

theorem applyAll_zone (q : Update) (calls : List Call) : (q.applyAll calls).zone = q.zone :=
  foldl_kept (fun _ c => by cases c <;> rfl) q calls

def tokens (zone : Zone) (table : String) (changes : Columns Value) : List Token :=
  [.word "update", .name table, .word "set"] ++
    listTokens (changes.map fun (column, v) => .name column :: .operator "=" :: literalTokens zone v)

def assignmentSql (table : String) (changes : Columns Value) : Sql :=
  .word "UPDATE " :: .name [table] :: .word " SET " :: Sql.separated ", " (assignments changes)

theorem tight_assignmentSql (zone : Zone) (table : String) (changes : Columns Value) :
    Sql.Tight zone (assignmentSql table changes) := by
  refine .word rfl (.name (Sql.breaks_word (by decide) rfl) (.word rfl ?_))
  refine Sql.Tight.joined Sql.separates_comma fun part member => ?_
  obtain ⟨⟨column, v⟩, _, rfl⟩ := List.mem_map.mp member
  exact .name (Sql.breaks_word (by decide) rfl) (.word rfl (.literal rfl .nil))

theorem tokens_assignmentSql (zone : Zone) (table : String) (changes : Columns Value) :
    Sql.tokens zone (assignmentSql table changes) = tokens zone table changes := by
  have head : lex "UPDATE " = some [.word "update"] := rfl
  have set : lex " SET " = some [.word "set"] := rfl
  have equals : lex " = " = some [.operator "="] := rfl
  simp [assignmentSql, tokens, assignments, Piece.tokens_word zone head, Piece.tokens_word zone set,
    Piece.tokens_word zone equals, Sql.tokens_comma, pathTokens, Function.comp_def]

theorem applyAll_groups (q : Update) (calls : List Call) :
    (q.applyAll calls).groups = q.groups ++ (calls.filterMap Call.conditions?).map (Group.plain none) := by
  induction calls generalizing q with
  | nil => simp [applyAll]
  | cons c r ih =>
    show ((q.apply c).applyAll r).groups = _
    rw [ih]
    cases c with
    | filter conditions => simp [apply, filter, Call.conditions?]
    | _ => rfl

-- The tokens of an UPDATE: those of its assignments, and behind them the keyword of its filter, when
-- it has one, whatever the filter holds.
def Split (zone : Zone) (table : String) (changes : Columns Value) (groups : List Group) (text : String) : Prop :=
  match Group.whereSql? false groups with
  | none => lex text = some (tokens zone table changes)
  | some clause =>
    ∃ rest, clause.text zone = "WHERE " ++ rest ∧ Leads text (tokens zone table changes ++ [.word "where"]) rest

theorem text_splits (zone : Zone) (table : String) (changes : Columns Value) (groups : List Group) :
    Split zone table changes groups ((assignmentSql table changes ++ filterSql groups).text zone) := by
  have tight := tight_assignmentSql zone table changes
  have tokens := tokens_assignmentSql zone table changes
  unfold Split
  cases found : Group.whereSql? false groups with
  | none => rw [lex_unfiltered tight found, tokens]
  | some clause =>
    obtain ⟨rest, worded, leads⟩ := leads_filter tight found
    rw [tokens] at leads
    exact ⟨rest, worded, leads⟩

theorem changes_settled (zone : Zone) (calls : List Call) :
    ((new zone).applyAll calls).changes = Columns.settled (calls.flatMap Call.pairs) :=
  (applyAll_changes (new zone) calls).trans (Columns.ofPairs_eq_settled _)

theorem sql_applyAll (zone : Zone) (calls : List Call) : ((new zone).applyAll calls).sql =
    match (calls.filterMap Call.table?).getLast? with
    | none => .error (.query (.noTable .update))
    | some table =>
      if (Columns.settled (calls.flatMap Call.pairs)).isEmpty then .error (.query (.noChanges table))
      else .ok (assignmentSql table (Columns.settled (calls.flatMap Call.pairs)) ++
        filterSql ((calls.filterMap Call.conditions?).map (Group.plain none))) := by
  have named : ((new zone).applyAll calls).table = (calls.filterMap Call.table?).getLast? := by
    rw [applyAll_table]
    exact Option.or_none
  rw [sql, named, changes_settled, applyAll_groups]
  cases (calls.filterMap Call.table?).getLast? <;> rfl

theorem build_text (zone : Zone) (calls : List Call) {text : String}
    (built : ((new zone).applyAll calls).build = .ok text) :
    ∃ table, (calls.filterMap Call.table?).getLast? = some table ∧
      text = (assignmentSql table (Columns.settled (calls.flatMap Call.pairs)) ++
        filterSql ((calls.filterMap Call.conditions?).map (Group.plain none))).text zone := by
  rw [build, sql_applyAll, applyAll_zone] at built
  cases named : (calls.filterMap Call.table?).getLast? with
  | none =>
    rw [named] at built
    cases built
  | some table =>
    simp only [named] at built
    split at built
    · cases built
    · exact ⟨table, rfl, Sql.text_of_render built⟩

theorem build_splits (zone : Zone) (calls : List Call) {text : String}
    (built : ((new zone).applyAll calls).build = .ok text) :
    ∃ table, (calls.filterMap Call.table?).getLast? = some table ∧
      Split zone table (Columns.settled (calls.flatMap Call.pairs))
        ((calls.filterMap Call.conditions?).map (Group.plain none)) text := by
  obtain ⟨table, named, rfl⟩ := build_text zone calls built
  exact ⟨table, named, text_splits zone table _ _⟩

end Update

-- Neither a name nor a value can add, remove or split a token of an INSERT or an UPDATE.
theorem assignments_split (zone : Zone) :
    (∀ (calls : List Insert.Call) (text : String), ((Insert.new zone).applyAll calls).build = .ok text →
      ∃ table, (calls.filterMap Insert.Call.table?).getLast? = some table ∧
        lex text = some (Insert.tokens zone table (Columns.settled (calls.flatMap Insert.Call.pairs)))) ∧
    (∀ (calls : List Update.Call) (text : String), ((Update.new zone).applyAll calls).build = .ok text →
      ∃ table, (calls.filterMap Update.Call.table?).getLast? = some table ∧
        Update.Split zone table (Columns.settled (calls.flatMap Update.Call.pairs))
          ((calls.filterMap Update.Call.conditions?).map (Group.plain none)) text) :=
  ⟨fun calls _ built => Insert.build_splits zone calls built,
    fun calls _ built => Update.build_splits zone calls built⟩

-- A column set twice, with quotes and comment marks in the name and in the values.
def quotedCalls : List (String × Value) :=
  [("a\"--", .text "x"), ("b", .null), ("a\"--", .text "it's'); DROP TABLE t --")]

theorem quoted_assignments_split :
    (lex "INSERT INTO \"t\" (\"a\"\"--\", \"b\") VALUES ('it''s''); DROP TABLE t --', NULL)" =
      some [.word "insert", .word "into", .name "t", .mark "(", .name "a\"--", .mark ",", .name "b", .mark ")",
        .word "values", .mark "(", .text "it's'); DROP TABLE t --", .mark ",", .word "null", .mark ")"]) ∧
    (lex "UPDATE \"t\" SET \"a\"\"--\" = 'it''s''); DROP TABLE t --', \"b\" = NULL" =
      some [.word "update", .name "t", .word "set", .name "a\"--", .operator "=", .text "it's'); DROP TABLE t --",
        .mark ",", .name "b", .operator "=", .word "null"]) := by
  obtain ⟨table, named, inserted⟩ := (assignments_split .utc).1 [.into "t", .setAll quotedCalls] _ rfl
  obtain ⟨changed, known, updated⟩ := (assignments_split .utc).2 [.ofTable "t", .setAll quotedCalls] _ rfl
  cases named
  cases known
  exact ⟨inserted, updated⟩

end QueryKit
