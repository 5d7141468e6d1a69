import QueryKit.Proofs.FilteredChanges

-- What a caller's timestamps do to statements. Everything but a timestamp can be written, under every timezone
-- setting; a filter can be written when its timestamps can, those in SQL of the caller's own included.

namespace QueryKit

def Operand.isSpellable (zone : Zone) : Operand → Bool
  | .value v | .expression v => Sql.datesFit zone v
  | .range lower upper => Sql.datesFit zone lower && Sql.datesFit zone upper
  | .raw _ escapes => escapes.all (Sql.datesFit zone)

def Test.isSpellable (zone : Zone) : Test → Bool
  | .value v => Sql.datesFit zone v
  | .compare c => c.operand.isSpellable zone

def Conditions.isSpellable (zone : Zone) (c : Conditions) : Bool := c.every (Test.isSpellable zone)

namespace Sql
variable {zone : Zone}

@[simp] theorem fits_nil : Fits zone [] := List.forall_mem_nil _

@[simp] theorem fits_cons (p : Piece) (sql : Sql) : Fits zone (p :: sql) ↔ p.datesFit zone = true ∧ Fits zone sql :=
  List.forall_mem_cons

@[simp] theorem fits_append (a b : Sql) : Fits zone (a ++ b) ↔ Fits zone a ∧ Fits zone b := List.forall_mem_append

@[simp] theorem fits_word (text : String) : (Piece.word text).datesFit zone = true := rfl

@[simp] theorem fits_name (segments : List String) : (Piece.name segments).datesFit zone = true := rfl

@[simp] theorem fits_raw (text : String) : (Piece.raw text).datesFit zone = true := rfl

@[simp] theorem fits_literal (v : Value) : (Piece.literal v).datesFit zone = Sql.datesFit zone v := rfl

end Sql

section
variable {zone : Zone}

theorem fits_fill {lastName lastValue : Sql} (name : Sql.Fits zone lastName) (value : Sql.Fits zone lastValue)
    (slots : List Template.Slot) {arguments : List Value} (each : ∀ v ∈ arguments, Sql.datesFit zone v = true) :
    Sql.Fits zone (Template.fill lastName lastValue arguments slots) := by
  induction slots generalizing arguments with
  | nil =>
    rw [Template.fill]
    exact Sql.fits_nil
  | cons slot r ih =>
    have rest := ih each
    cases slot with
    | char c => simp [Template.fill, rest]
    | name | value =>
      cases arguments with
      | nil => simp [Template.fill, name, value, rest]
      | cons v more =>
        obtain ⟨first, later⟩ := List.forall_mem_cons.mp each
        simp [Template.fill, first, ih later]

theorem fits_template {template : String} {escapes : List Value} (each : escapes.all (Sql.datesFit zone) = true)
    (column : String) : Sql.Fits zone (Template.comparison template escapes column) :=
  fits_fill Sql.fits_nil Sql.fits_nil _ (List.all_eq_true.mp each)

theorem fits_one (op : Operator) {left right : Sql} (first : Sql.Fits zone left) (second : Sql.Fits zone right) :
    Sql.Fits zone (op.compare left (.one right)) := by
  cases op <;> simp [Operator.compare, first, second]

theorem fits_range (op : Operator) {left lower upper : Sql} (column : Sql.Fits zone left) (least : Sql.Fits zone lower)
    (most : Sql.Fits zone upper) : Sql.Fits zone (op.compare left (.range lower upper)) := by
  simp [Operator.compare, column, least, most]

theorem fits_comparator (column : List String) {c : Comparator} (spellable : c.operand.isSpellable zone = true) :
    Sql.Fits zone (c.sql column) := by
  obtain ⟨op, operand, _⟩ := c
  cases operand with
  | raw template escapes => exact fits_template spellable _
  | range lower upper =>
    obtain ⟨least, most⟩ := Bool.and_eq_true_iff.mp spellable
    apply fits_range <;> simp [least, most]
  | value v | expression v =>
    have literal : Sql.datesFit zone v = true := spellable
    unfold Comparator.sql
    dsimp only
    split <;> apply fits_one <;> simp [literal]

theorem fits_test (column : List String) {test : Test} (spellable : test.isSpellable zone = true) :
    Sql.Fits zone (test.sql column) := by
  cases test with
  | compare c => exact fits_comparator column spellable
  | value v =>
    have literal : Sql.datesFit zone v = true := spellable
    unfold Test.sql
    split <;> simp_all

theorem fits_conjunction {parts : List Sql} (each : ∀ part ∈ parts, Sql.Fits zone part) {sql : Sql}
    (written : conjunction? parts = some sql) : Sql.Fits zone sql := by
  unfold conjunction? at written
  split at written
  · cases written
  · cases written
    exact fits_separated " AND " parts each

mutual
theorem fits_tree (table : Option String) (c : Conditions) (spellable : c.every (Test.isSpellable zone) = true) :
    ∀ sql, c.sql? table = some sql → Sql.Fits zone sql := by
  cases c with
  | node combinators columns =>
    rw [Conditions.every, Bool.and_eq_true] at spellable
    intro sql written
    rw [Conditions.sql?] at written
    apply fits_conjunction _ written
    refine List.forall_mem_append.mpr ⟨fits_combinators table combinators spellable.1, ?_⟩
    intro part member
    obtain ⟨column, inside, rfl⟩ := List.mem_map.mp member
    exact fits_test _ (List.all_eq_true.mp spellable.2 column inside)
theorem fits_combinators (table : Option String) (combinators : List (Combinator × List Conditions))
    (spellable : Conditions.combinatorsEvery (Test.isSpellable zone) combinators = true) :
    ∀ part ∈ Conditions.combinatorParts table combinators, Sql.Fits zone part := by
  cases combinators with
  | nil => simp [Conditions.combinatorParts]
  | cons first r =>
    obtain ⟨op, groups⟩ := first
    rw [Conditions.combinatorsEvery, Bool.and_eq_true] at spellable
    have nested := fits_nested table groups spellable.1
    have later := fits_combinators table r spellable.2
    rw [Conditions.combinatorParts]
    split
    · exact later
    · exact List.forall_mem_cons.mpr ⟨op.fits _ nested, later⟩
theorem fits_nested (table : Option String) (groups : List Conditions)
    (spellable : Conditions.groupsEvery (Test.isSpellable zone) groups = true) :
    ∀ part ∈ Conditions.nestedParts table groups, Sql.Fits zone part := by
  cases groups with
  | nil => simp [Conditions.nestedParts]
  | cons c r =>
    rw [Conditions.groupsEvery, Bool.and_eq_true] at spellable
    have later := fits_nested table r spellable.2
    have first := fits_tree table c spellable.1
    rw [Conditions.nestedParts]
    split
    · rename_i part written
      exact List.forall_mem_cons.mpr ⟨first part written, later⟩
    · exact later
end

theorem fits_group (qualified : Bool) {g : Group} (spellable : g.conditions.isSpellable zone = true) {sql : Sql}
    (written : g.sql? qualified = some sql) : Sql.Fits zone sql := by
  obtain ⟨table, conditions, subquery⟩ := g
  cases subquery with
  | none => exact fits_tree _ conditions spellable sql written
  | some s =>
    cases written
    have links : Sql.Fits zone (Sql.separated " AND " (s.link.pairs.map fun p =>
        [Piece.name [p.1], .word " = ", .name [s.outerAlias, p.2]])) := by
      apply fits_separated
      intro part member
      obtain ⟨p, _, rfl⟩ := List.mem_map.mp member
      simp
    unfold Subquery.sql
    cases nested : conditions.sql? none with
    | none => simpa using links
    | some rest => simpa [fits_tree none conditions spellable rest nested] using links

theorem fits_where (qualified : Bool) {groups : List Group} (spellable : ∀ g ∈ groups, g.conditions.isSpellable zone = true)
    {sql : Sql} (written : Group.whereSql? qualified groups = some sql) : Sql.Fits zone sql := by
  have each : ∀ part ∈ groups.filterMap (Group.sql? qualified), Sql.Fits zone part := by
    intro part member
    obtain ⟨g, known, spelled⟩ := List.mem_filterMap.mp member
    exact fits_group qualified (spellable g known) spelled
  unfold Group.whereSql? at written
  split at written
  · cases written
  · rename_i part alone
    cases written
    simpa [alone] using each
  · cases written
    simpa using fits_separated ") AND (" _ each

theorem fits_clause {groups : List Group} (spellable : ∀ g ∈ groups, g.conditions.isSpellable zone = true) :
    Sql.Fits zone (filterSql groups) := by
  unfold filterSql
  split
  · rename_i clause written
    simpa using fits_where false spellable written
  · exact Sql.fits_nil

theorem Columns.mem_of_mem_ofPairs {α : Type} {pairs : List (String × α)} {pair : String × α}
    (member : pair ∈ Columns.ofPairs pairs) : pair ∈ pairs := by
  rw [Columns.ofPairs_eq_settled] at member
  exact Columns.mem_of_mem_settled member

theorem fits_values {values : Columns Value} (spellable : ∀ p ∈ values, Sql.datesFit zone p.2 = true) :
    Sql.Fits zone (Insert.valuesSql values) := by
  unfold Insert.valuesSql
  split
  · simp
  · simp only [List.cons_append, Sql.fits_cons, Sql.fits_append, Sql.fits_word, Sql.fits_nil, true_and, and_true]
    constructor
    · apply fits_separated
      intro part member
      obtain ⟨p, _, rfl⟩ := List.mem_map.mp member
      simp
    · apply fits_separated
      intro part member
      obtain ⟨p, inside, rfl⟩ := List.mem_map.mp member
      simp [spellable p inside]

end

end QueryKit
