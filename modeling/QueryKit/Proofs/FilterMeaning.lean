import QueryKit.Proofs.Predicates

-- What a filter means, and that its text, read by the server, means the same. Predicates are told
-- apart by their tokens; what each of them says of a row is left open.

namespace QueryKit
open Lexer

namespace Test

def isRaw : Test → Bool
  | .compare c =>
    match c.operand with
    | .raw .. => true
    | _ => false
  | .value _ => false

def datesFit (zone : Zone) : Test → Bool
  | .value v => Sql.datesFit zone v
  | .compare c =>
    match c.operand with
    | .value v | .expression v => Sql.datesFit zone v
    | .range lower upper => Sql.datesFit zone lower && Sql.datesFit zone upper
    | .raw .. => true

-- What a test says of a row. Not to be among the elements of a column is the denial of being there.
def holds (zone : Zone) (column : List String) (σ : Truth) : Test → Bool
  | .value v => σ (Sql.tokens zone (Test.sql column (.value v)))
  | .compare c =>
    match c.op, c.operand with
    | .notAny, .value v | .notAny, .expression v =>
      !σ (Sql.tokens zone (Operator.any.compare [.literal v] (.one [.name column])))
    | _, _ => σ (Sql.tokens zone (c.sql column))

end Test

def Combinator.joins : Combinator → List Bool → Bool
  | .and, holds => holds.all id
  | .or, holds => holds.any id
  | .notAnd, holds => !holds.all id
  | .notOr, holds => !holds.any id
  | .not, holds => !holds.all id

namespace Conditions

mutual
-- Whether all tests of a tree, however deep, have a property.
def every (p : Test → Bool) : Conditions → Bool
  | .node combinators columns => combinatorsEvery p combinators && columns.all fun (_, test) => p test
def combinatorsEvery (p : Test → Bool) : List (Combinator × List Conditions) → Bool
  | [] => true
  | (_, groups) :: r => groupsEvery p groups && combinatorsEvery p r
def groupsEvery (p : Test → Bool) : List Conditions → Bool
  | [] => true
  | c :: r => every p c && groupsEvery p r
end

-- A tree without any test.
def isVacuous (c : Conditions) : Bool := c.every fun _ => false

mutual
-- All columns and all combinators of a tree hold. A combinator joins the nested trees that hold a
-- test; without one it says nothing.
def holds (zone : Zone) (table : Option String) (σ : Truth) : Conditions → Bool
  | .node combinators columns =>
    combinatorsHold zone table σ combinators &&
      columns.all fun (column, test) => test.holds zone (columnPath table column) σ
def combinatorsHold (zone : Zone) (table : Option String) (σ : Truth) :
    List (Combinator × List Conditions) → Bool
  | [] => true
  | (op, groups) :: r =>
    (groupsEvery (fun _ => false) groups || op.joins (groupsHold zone table σ groups)) &&
      combinatorsHold zone table σ r
def groupsHold (zone : Zone) (table : Option String) (σ : Truth) : List Conditions → List Bool
  | [] => []
  | c :: r =>
    if every (fun _ => false) c then groupsHold zone table σ r
    else holds zone table σ c :: groupsHold zone table σ r
end

end Conditions

def linkTokens (outerAlias : String) (link : String × String) : List Token :=
  [.name link.1, .operator "=", .name outerAlias, .mark ".", .name link.2]

namespace Group

-- A plain group is its tree. A correlated one holds when some row of its table fulfils all the links and the tree.
def holds (zone : Zone) (qualified : Bool) (rows : Rows) (σ : Truth) (g : Group) : Bool :=
  match g.subquery with
  | none => g.conditions.holds zone (if qualified then g.table else none) σ
  | some q =>
    (rows q.table σ).any fun ρ =>
      (q.link.pairs.all fun link => ρ (linkTokens q.outerAlias link)) && g.conditions.holds zone none ρ

def isVacuous (g : Group) : Bool := g.subquery.isNone && g.conditions.isVacuous

end Group

section
variable {zone : Zone}

theorem predicate_plain (s : String) (r : List String) (v : Value) :
    Predicate zone ((Test.value v).sql (s :: r)) fun _ σ => σ (Sql.tokens zone ((Test.value v).sql (s :: r))) := by
  have column : Side zone [.name (s :: r)] := side_name s r
  unfold Test.sql
  split
  · exact predicate_null s r
  · exact predicate_false
  · exact predicate_quantified column (side_literal _) separates_any lex_any rfl
  · exact predicate_binary column (side_literal _) separates_equals rfl rfl
  · rename_i other
    cases other

theorem Test.holds_asserted {column : List String} {σ : Truth} {c : Comparator} (asserts : c.op ≠ .notAny) :
    (Test.compare c).holds zone column σ = σ (Sql.tokens zone (c.sql column)) := by
  unfold Test.holds
  split
  · contradiction
  · rename_i same
    cases same
    split
    · contradiction
    · contradiction
    · rfl

theorem predicate_compared (s : String) (r : List String) {op : Operator} (v : Value) (single : op.isRange = false)
    (known : op ≠ .raw) (operand : Operand) (fits : operand.fits op = true)
    (valued : operand = .value v ∨ operand = .expression v) :
    Predicate zone ((Test.compare ⟨op, operand, fits⟩).sql (s :: r)) fun _ σ =>
      (Test.compare ⟨op, operand, fits⟩).holds zone (s :: r) σ := by
  have column : Side zone [.name (s :: r)] := side_name s r
  have literal : Side zone [.literal v] := side_literal v
  by_cases denied : op = .notAny
  · subst denied
    rcases valued with rfl | rfl <;> exact predicate_notAny literal column
  · have asserted : (fun (_ : Rows) σ => (Test.compare ⟨op, operand, fits⟩).holds zone (s :: r) σ) =
        fun _ σ => σ (Sql.tokens zone (Comparator.sql (s :: r) ⟨op, operand, fits⟩)) := by
      funext _ σ
      exact Test.holds_asserted denied
    rw [asserted]
    by_cases reversed : op.isReversed = true
    · have written : Comparator.sql (s :: r) ⟨op, operand, fits⟩ = op.compare [.literal v] (.one [.name (s :: r)]) := by
        rcases valued with rfl | rfl <;> simp [Comparator.sql, reversed]
      simp only [Test.sql, written]
      exact predicate_one single known denied literal column
    · have written : Comparator.sql (s :: r) ⟨op, operand, fits⟩ = op.compare [.name (s :: r)] (.one [.literal v]) := by
        rcases valued with rfl | rfl <;> simp [Comparator.sql, reversed]
      simp only [Test.sql, written]
      exact predicate_one single known denied column literal

theorem Test.predicate (s : String) (r : List String) (test : Test) (known : test.isRaw = false) :
    Predicate zone (test.sql (s :: r)) fun _ σ => test.holds zone (s :: r) σ := by
  cases test with
  | value v => exact predicate_plain s r v
  | compare c =>
    obtain ⟨op, operand, fits⟩ := c
    cases operand with
    | raw template escapes => cases known
    | range lower upper =>
      have column : Side zone [.name (s :: r)] := side_name s r
      have between (op : Operator) := predicate_between op column (side_literal lower) (side_literal upper)
      cases op with
      | between | notBetween => exact between _
      | _ => cases fits
    | value v | expression v =>
      simp only [Operand.fits, Bool.and_eq_true, Bool.not_eq_true', bne_iff_ne] at fits
      exact predicate_compared s r v fits.1 fits.2 _ _ (by simp)

theorem Combinator.predicate (op : Combinator) (parts : List (Sql × (Rows → Truth → Bool))) (filled : parts ≠ [])
    (each : ∀ part ∈ parts, Condition zone part.1 part.2) :
    Predicate zone (op.sql (parts.map (·.1))) fun rows σ => op.joins (parts.map (·.2 rows σ)) := by
  have tight : ∀ part ∈ parts, Sql.Tight zone part.1 := fun part member => (each part member).tight
  have enclosed : ∀ part ∈ parts.map (fun part => (enclosedSql part.1, part.2)), Predicate zone part.1 part.2 := by
    intro part member
    obtain ⟨inner, inside, rfl⟩ := List.mem_map.mp member
    exact (each inner inside).enclosed
  have all := condition_and _ (by simpa using filled) enclosed
  have any := condition_or _ (by simpa using filled) enclosed
  simp only [List.map_map, Function.comp_def] at all any
  have conjoined : Sql.Separates ") AND (" := ⟨rfl, rfl, by decide⟩
  have disjoined : Sql.Separates ") OR (" := ⟨rfl, rfl, by decide⟩
  have conjunction (negated : Bool) :=
    predicate_combined negated (fun holds => holds.all id) rfl conjoined rfl parts filled tight all
  have disjunction (negated : Bool) :=
    predicate_combined negated (fun holds => holds.any id) rfl disjoined rfl parts filled tight any
  cases op with
  | and => exact (conjunction false).means fun rows σ => Bool.bne_false _
  | or => exact (disjunction false).means fun rows σ => Bool.bne_false _
  | notAnd | not => exact (conjunction true).means fun rows σ => Bool.bne_true _
  | notOr => exact (disjunction true).means fun rows σ => Bool.bne_true _

theorem Test.fits (column : List String) (test : Test) (known : test.isRaw = false)
    (dates : test.datesFit zone = true) : Sql.Fits zone (test.sql column) := by
  cases test with
  | value v =>
    unfold Test.sql
    split <;> simp_all [Sql.Fits, Piece.datesFit, Test.datesFit]
  | compare c =>
    obtain ⟨op, operand, fits⟩ := c
    cases operand with
    | raw template escapes => cases known
    | range lower upper =>
      simp only [Test.datesFit, Bool.and_eq_true] at dates
      simp [Sql.Fits, Piece.datesFit, Test.sql, Comparator.sql, Operator.compare, dates]
    | value v | expression v =>
      have literal : Sql.datesFit zone v = true := dates
      cases op <;>
        simp [Sql.Fits, Piece.datesFit, Test.sql, Comparator.sql, Operator.isReversed, Operator.compare, literal]

theorem Combinator.fits (op : Combinator) (parts : List Sql) (each : ∀ part ∈ parts, Sql.Fits zone part) :
    Sql.Fits zone (op.sql parts) := by
  have inside := fits_separated (") " ++ op.keyword ++ " (") parts each
  simp only [Combinator.sql, Sql.Fits, List.cons_append, List.forall_mem_cons, List.forall_mem_append] at inside ⊢
  exact ⟨rfl, inside, rfl, by simp⟩

theorem columns_parts (table : Option String) (columns : Columns Test)
    (known : (columns.all fun (_, test) => !test.isRaw) = true) :
    ∃ parts : List (Sql × (Rows → Truth → Bool)),
      columns.map (fun (column, test) => test.sql (columnPath table column)) = parts.map (·.1) ∧
      (∀ part ∈ parts, Predicate zone part.1 part.2) ∧ (parts = [] ↔ columns = []) ∧
      (∀ rows σ, (parts.map (·.2 rows σ)).all id =
        columns.all fun (column, test) => test.holds zone (columnPath table column) σ) ∧
      ((columns.all fun (_, test) => test.datesFit zone) = true → ∀ part ∈ parts, Sql.Fits zone part.1) := by
  refine ⟨columns.map fun (column, test) =>
    (test.sql (columnPath table column), fun _ σ => test.holds zone (columnPath table column) σ), ?_, ?_, ?_, ?_, ?_⟩
  · simp [Function.comp_def]
  · intro part member
    obtain ⟨⟨column, test⟩, inside, rfl⟩ := List.mem_map.mp member
    have plain := List.all_eq_true.mp known _ inside
    simp only [Bool.not_eq_true'] at plain
    cases table with
    | none => exact Test.predicate column [] test plain
    | some table => exact Test.predicate table [column] test plain
  · simp
  · intro rows σ
    rw [List.map_map, List.all_map]
    rfl
  · intro dates part member
    obtain ⟨⟨column, test⟩, inside, rfl⟩ := List.mem_map.mp member
    have plain := List.all_eq_true.mp known _ inside
    simp only [Bool.not_eq_true'] at plain
    exact Test.fits _ test plain (List.all_eq_true.mp dates _ inside)

-- The parts that a tree puts into a conjunction, each with what it says: none when the tree is vacuous.
structure TreeParts (zone : Zone) (table : Option String) (c : Conditions)
    (parts : List (Sql × (Rows → Truth → Bool))) : Prop where
  written : c.sql? table = conjunction? (parts.map (·.1))
  each : ∀ part ∈ parts, Predicate zone part.1 part.2
  silent : parts = [] ↔ c.isVacuous = true
  means : ∀ rows σ, (parts.map (·.2 rows σ)).all id = c.holds zone table σ
  fits : c.every (Test.datesFit zone) = true → ∀ part ∈ parts, Sql.Fits zone part.1

theorem TreeParts.condition {table : Option String} {c : Conditions} {parts : List (Sql × (Rows → Truth → Bool))}
    (tree : TreeParts zone table c parts) (filled : parts ≠ []) :
    Condition zone (Sql.separated " AND " (parts.map (·.1))) fun _ σ => c.holds zone table σ := by
  obtain ⟨tight, items, f, nests, read, means, free⟩ := condition_and parts filled tree.each
  exact ⟨tight, items, f, nests, read, fun rows σ => (means rows σ).trans (tree.means rows σ), free⟩

theorem conjunction?_map {parts : List (Sql × (Rows → Truth → Bool))} (filled : parts ≠ []) :
    conjunction? (parts.map (·.1)) = some (Sql.separated " AND " (parts.map (·.1))) := by
  cases parts with
  | nil => exact absurd rfl filled
  | cons part r => rfl

mutual
theorem tree_parts (zone : Zone) (table : Option String) : ∀ c : Conditions, c.every (!·.isRaw) = true →
    ∃ parts, TreeParts zone table c parts
  | .node combinators columns, known => by
    rw [Conditions.every, Bool.and_eq_true] at known
    obtain ⟨as, written, each, silent, means, fits⟩ := combinator_parts zone table combinators known.1
    obtain ⟨bs, tests, predicates, empty, hold, dated⟩ := columns_parts table columns known.2
    refine ⟨as ++ bs, ?_, ?_, ?_, ?_, ?_⟩
    · rw [Conditions.sql?, written, tests, List.map_append]
    · exact List.forall_mem_append.mpr ⟨each, predicates⟩
    · rw [List.append_eq_nil_iff, silent, empty, Conditions.isVacuous, Conditions.every, Bool.and_eq_true]
      cases columns <;> simp
    · intro rows σ
      rw [List.map_append, List.all_append, means, hold, Conditions.holds]
    · intro dates
      rw [Conditions.every, Bool.and_eq_true] at dates
      exact List.forall_mem_append.mpr ⟨fits dates.1, dated dates.2⟩
theorem combinator_parts (zone : Zone) (table : Option String) : ∀ combinators : List (Combinator × List Conditions),
    Conditions.combinatorsEvery (!·.isRaw) combinators = true →
    ∃ parts : List (Sql × (Rows → Truth → Bool)),
      Conditions.combinatorParts table combinators = parts.map (·.1) ∧
      (∀ part ∈ parts, Predicate zone part.1 part.2) ∧
      (parts = [] ↔ Conditions.combinatorsEvery (fun _ => false) combinators = true) ∧
      (∀ rows σ, (parts.map (·.2 rows σ)).all id = Conditions.combinatorsHold zone table σ combinators) ∧
      (Conditions.combinatorsEvery (Test.datesFit zone) combinators = true → ∀ part ∈ parts, Sql.Fits zone part.1)
  | [], _ => ⟨[], rfl, by simp, by simp [Conditions.combinatorsEvery], fun _ _ => rfl, by simp⟩
  | (op, groups) :: r, known => by
    rw [Conditions.combinatorsEvery, Bool.and_eq_true] at known
    obtain ⟨cs, nested, conditions, empty, hold, dated⟩ := nested_parts zone table groups known.1
    obtain ⟨as, written, each, silent, means, fits⟩ := combinator_parts zone table r known.2
    cases cs with
    | nil =>
      have vacuous := empty.mp rfl
      refine ⟨as, ?_, each, ?_, ?_, ?_⟩
      · rw [Conditions.combinatorParts, nested]
        exact written
      · rw [silent, Conditions.combinatorsEvery, vacuous, Bool.true_and]
      · intro rows σ
        rw [means, Conditions.combinatorsHold, vacuous, Bool.true_or, Bool.true_and]
      · intro dates
        rw [Conditions.combinatorsEvery, Bool.and_eq_true] at dates
        exact fits dates.2
    | cons first rest =>
      have telling : Conditions.groupsEvery (fun _ => false) groups = false := by
        rw [← Bool.not_eq_true, ← empty]; simp
      refine ⟨(op.sql ((first :: rest).map (·.1)), fun rows σ => op.joins ((first :: rest).map (·.2 rows σ))) :: as,
        ?_, ?_, ?_, ?_, ?_⟩
      · rw [Conditions.combinatorParts, nested]
        exact congrArg (_ :: ·) written
      · exact List.forall_mem_cons.mpr ⟨op.predicate (first :: rest) (by simp) conditions, each⟩
      · rw [Conditions.combinatorsEvery, telling, Bool.false_and]
        simp
      · intro rows σ
        rw [List.map_cons, List.all_cons, means, Conditions.combinatorsHold, telling, Bool.false_or, ← hold rows σ]
        rfl
      · intro dates
        rw [Conditions.combinatorsEvery, Bool.and_eq_true] at dates
        refine List.forall_mem_cons.mpr ⟨op.fits _ fun sql member => ?_, fits dates.2⟩
        obtain ⟨part, inside, rfl⟩ := List.mem_map.mp member
        exact dated dates.1 part inside
theorem nested_parts (zone : Zone) (table : Option String) : ∀ groups : List Conditions,
    Conditions.groupsEvery (!·.isRaw) groups = true →
    ∃ parts : List (Sql × (Rows → Truth → Bool)),
      Conditions.nestedParts table groups = parts.map (·.1) ∧
      (∀ part ∈ parts, Condition zone part.1 part.2) ∧
      (parts = [] ↔ Conditions.groupsEvery (fun _ => false) groups = true) ∧
      (∀ rows σ, parts.map (·.2 rows σ) = Conditions.groupsHold zone table σ groups) ∧
      (Conditions.groupsEvery (Test.datesFit zone) groups = true → ∀ part ∈ parts, Sql.Fits zone part.1)
  | [], _ => ⟨[], rfl, by simp, by simp [Conditions.groupsEvery], fun _ _ => rfl, by simp⟩
  | c :: r, known => by
    rw [Conditions.groupsEvery, Bool.and_eq_true] at known
    obtain ⟨as, tree⟩ := tree_parts zone table c known.1
    obtain ⟨cs, nested, conditions, empty, hold, dated⟩ := nested_parts zone table r known.2
    by_cases filled : as = []
    · have vacuous : c.every (fun _ => false) = true := tree.silent.mp filled
      have nothing : c.sql? table = none := by rw [tree.written, filled]; rfl
      refine ⟨cs, ?_, conditions, ?_, ?_, ?_⟩
      · rw [Conditions.nestedParts, nothing]
        exact nested
      · rw [empty, Conditions.groupsEvery, vacuous, Bool.true_and]
      · intro rows σ
        rw [hold, Conditions.groupsHold, vacuous, if_pos rfl]
      · intro dates
        rw [Conditions.groupsEvery, Bool.and_eq_true] at dates
        exact dated dates.2
    · have telling : c.every (fun _ => false) = false := by
        rw [← Bool.not_eq_true]
        exact fun vacuous => filled (tree.silent.mpr vacuous)
      have written : c.sql? table = some (Sql.separated " AND " (as.map (·.1))) := by
        rw [tree.written, conjunction?_map filled]
      refine ⟨(Sql.separated " AND " (as.map (·.1)), fun _ σ => c.holds zone table σ) :: cs, ?_, ?_, ?_, ?_, ?_⟩
      · rw [Conditions.nestedParts, written]
        exact congrArg (_ :: ·) nested
      · exact List.forall_mem_cons.mpr ⟨tree.condition filled, conditions⟩
      · rw [Conditions.groupsEvery, telling, Bool.false_and]
        simp
      · intro rows σ
        rw [List.map_cons, hold, Conditions.groupsHold, telling]
        rfl
      · intro dates
        rw [Conditions.groupsEvery, Bool.and_eq_true] at dates
        refine List.forall_mem_cons.mpr ⟨fits_separated _ _ fun sql member => ?_, dated dates.2⟩
        obtain ⟨part, inside, rfl⟩ := List.mem_map.mp member
        exact tree.fits dates.1 part inside
end

theorem pairs_ne_nil {link : Link} (checked : link.check = .ok ()) : link.pairs ≠ [] := by
  cases link with
  | single inner outer => simp [Link.pairs]
  | parallel inner outer =>
    by_cases unequal : inner.length ≠ outer.length
    · simp [Link.check, unequal] at checked
    by_cases empty : inner = []
    · subst empty
      have same : ([] : List String).length = outer.length := not_not.mp unequal
      simp [Link.check, ← same] at checked
    · intro unpaired
      rcases List.zip_eq_nil_iff.mp unpaired with rfl | rfl
      · exact empty rfl
      · exact empty (List.length_eq_zero_iff.mp (not_not.mp unequal))

def linkSql (outerAlias : String) (link : String × String) : Sql :=
  [.name [link.1], .word " = ", .name [outerAlias, link.2]]

theorem predicate_link (outerAlias : String) (link : String × String) :
    Predicate zone (linkSql outerAlias link) fun _ σ => σ (linkTokens outerAlias link) := by
  have inner : Side zone [.name [link.1]] := side_name link.1 []
  have equality := predicate_binary inner (side_name outerAlias [link.2])
    separates_equals rfl rfl
  have lexed : lex " = " = some [.operator "="] := rfl
  refine equality.means fun rows σ => congrArg σ ?_
  simp [Piece.tokens_word zone lexed, pathTokens, linkTokens]

theorem subquery_sql (q : Subquery) (c : Conditions) {parts : List (Sql × (Rows → Truth → Bool))}
    (checked : q.link.check = .ok ()) (written : c.sql? none = conjunction? (parts.map (·.1))) :
    q.sql c = .word "EXISTS (SELECT * FROM " :: .name [q.table] :: .word " WHERE " ::
      Sql.separated " AND " (q.link.pairs.map (linkSql q.outerAlias) ++ parts.map (·.1)) ++ [.word ")"] := by
  have spelled : q.sql c = .word "EXISTS (SELECT * FROM " :: .name [q.table] :: .word " WHERE " ::
      Sql.separated " AND " (q.link.pairs.map (linkSql q.outerAlias)) ++
        ((c.sql? none).elim [] fun nested => .word " AND " :: nested) ++ [.word ")"] := by
    unfold Subquery.sql
    cases c.sql? none <;> rfl
  by_cases filled : parts = []
  · subst filled
    have nothing : c.sql? none = none := written
    simp [spelled, nothing]
  · rw [conjunction?_map filled] at written
    rw [separated_append _ _ _ (by simpa using pairs_ne_nil checked) (by simpa using filled)]
    simp [spelled, written]

theorem predicate_subquery (zone : Zone) (q : Subquery) (c : Conditions) (checked : q.link.check = .ok ())
    (known : c.every (!·.isRaw) = true) :
    Predicate zone (q.sql c) (fun rows σ => (rows q.table σ).any fun ρ =>
      (q.link.pairs.all fun link => ρ (linkTokens q.outerAlias link)) && c.holds zone none ρ) ∧
    (c.every (Test.datesFit zone) = true → Sql.Fits zone (q.sql c)) := by
  obtain ⟨parts, tree⟩ := tree_parts zone none c known
  let links : List (Sql × (Rows → Truth → Bool)) := q.link.pairs.map fun link =>
    (linkSql q.outerAlias link, fun _ σ => σ (linkTokens q.outerAlias link))
  have linked : links.map (·.1) = q.link.pairs.map (linkSql q.outerAlias) := by simp [links, Function.comp_def]
  have each : ∀ part ∈ links ++ parts, Predicate zone part.1 part.2 := by
    refine List.forall_mem_append.mpr ⟨fun part member => ?_, tree.each⟩
    obtain ⟨link, _, rfl⟩ := List.mem_map.mp member
    exact predicate_link q.outerAlias link
  have filled : links ++ parts ≠ [] := by
    simpa [links] using fun unpaired => absurd unpaired (pairs_ne_nil checked)
  have whole := predicate_exists q.table (condition_and _ filled each)
  rw [subquery_sql q c checked tree.written, ← linked, ← List.map_append]
  refine ⟨whole.means fun rows σ => ?_, fun dates => ?_⟩
  · refine congrArg _ (funext fun ρ => ?_)
    rw [List.map_append, List.all_append, tree.means, List.map_map, List.all_map]
    rfl
  · refine fits_exists q.table (fits_separated _ _ fun sql member => ?_)
    rw [List.map_append, linked] at member
    rcases List.mem_append.mp member with link | test
    · obtain ⟨pair, _, rfl⟩ := List.mem_map.mp link
      simp [linkSql, Sql.Fits, Piece.datesFit]
    · obtain ⟨part, inside, rfl⟩ := List.mem_map.mp test
      exact tree.fits dates part inside

-- What a group needs to be read: links that have been checked, and no test of a caller's own.
structure Group.Known (g : Group) : Prop where
  checked : ∀ q, g.subquery = some q → q.link.check = .ok ()
  tests : g.conditions.every (!·.isRaw) = true

theorem group_condition (zone : Zone) (qualified : Bool) (g : Group) (known : g.Known) :
    (g.sql? qualified = none ∧ g.isVacuous = true ∧ ∀ rows σ, g.holds zone qualified rows σ = true) ∨
    ∃ sql, g.sql? qualified = some sql ∧ g.isVacuous = false ∧
      Condition zone sql (fun rows σ => g.holds zone qualified rows σ) ∧
      (g.conditions.every (Test.datesFit zone) = true → Sql.Fits zone sql) := by
  obtain ⟨table, conditions, subquery⟩ := g
  cases subquery with
  | some q =>
    obtain ⟨predicate, fits⟩ := predicate_subquery zone q conditions (known.checked q rfl) known.tests
    exact .inr ⟨_, rfl, rfl, predicate.condition, fits⟩
  | none =>
    obtain ⟨parts, tree⟩ := tree_parts zone (if qualified then table else none) conditions known.tests
    by_cases filled : parts = []
    · refine .inl ⟨?_, tree.silent.mp filled, fun rows σ => ?_⟩
      · show conditions.sql? _ = none
        rw [tree.written, filled]; rfl
      · show conditions.holds zone _ σ = true
        rw [← tree.means rows σ, filled]; rfl
    · refine .inr ⟨_, ?_, ?_, tree.condition filled, fun dates => fits_separated _ _ fun sql member => ?_⟩
      · show conditions.sql? _ = _
        rw [tree.written, conjunction?_map filled]
      · show conditions.isVacuous = false
        rw [← Bool.not_eq_true]
        exact fun vacuous => filled (tree.silent.mpr vacuous)
      · obtain ⟨part, inside, rfl⟩ := List.mem_map.mp member
        exact tree.fits dates part inside

theorem clause_parts (zone : Zone) (qualified : Bool) (groups : List Group) (known : ∀ g ∈ groups, g.Known) :
    ∃ parts : List (Sql × (Rows → Truth → Bool)), groups.filterMap (Group.sql? qualified) = parts.map (·.1) ∧
      (∀ part ∈ parts, Condition zone part.1 part.2) ∧ (parts = [] ↔ ∀ g ∈ groups, g.isVacuous = true) ∧
      (∀ rows σ, (parts.map (·.2 rows σ)).all id = groups.all fun g => g.holds zone qualified rows σ) ∧
      ((∀ g ∈ groups, g.conditions.every (Test.datesFit zone) = true) → ∀ part ∈ parts, Sql.Fits zone part.1) := by
  induction groups with
  | nil => exact ⟨[], rfl, by simp, by simp, fun _ _ => rfl, by simp⟩
  | cons g r ih =>
    obtain ⟨parts, written, each, silent, means, fits⟩ := ih fun h member => known h (List.mem_cons_of_mem _ member)
    rcases group_condition zone qualified g (known g List.mem_cons_self) with
      ⟨nothing, vacuous, holds⟩ | ⟨sql, spelled, telling, condition, dated⟩
    · refine ⟨parts, ?_, each, ?_, fun rows σ => ?_, fun dates => ?_⟩
      · rw [List.filterMap_cons_none nothing, written]
      · rw [silent, List.forall_mem_cons, and_iff_right vacuous]
      · rw [means, List.all_cons, holds, Bool.true_and]
      · exact fits fun h member => dates h (List.mem_cons_of_mem _ member)
    · refine ⟨(sql, fun rows σ => g.holds zone qualified rows σ) :: parts, ?_, ?_, ?_, fun rows σ => ?_, fun dates => ?_⟩
      · rw [List.filterMap_cons_some spelled, written, List.map_cons]
      · exact List.forall_mem_cons.mpr ⟨condition, each⟩
      · simp [telling]
      · rw [List.map_cons, List.all_cons, means, List.all_cons]; rfl
      · exact List.forall_mem_cons.mpr ⟨dated (dates g List.mem_cons_self),
          fits fun h member => dates h (List.mem_cons_of_mem _ member)⟩

theorem whereSql?_reads (zone : Zone) (qualified : Bool) (groups : List Group) (known : ∀ g ∈ groups, g.Known) :
    (Group.whereSql? qualified groups = none ↔ ∀ g ∈ groups, g.isVacuous = true) ∧
    ∀ clause, Group.whereSql? qualified groups = some clause →
      WhereClause zone clause (fun rows σ => groups.all fun g => g.holds zone qualified rows σ) ∧
      ((∀ g ∈ groups, g.conditions.every (Test.datesFit zone) = true) → Sql.Fits zone clause) := by
  obtain ⟨parts, written, each, silent, means, fits⟩ := clause_parts zone qualified groups known
  have meaning : (fun rows σ => (parts.map (·.2 rows σ)).all id) =
      fun rows σ => groups.all fun g => g.holds zone qualified rows σ := by
    funext rows σ; exact means rows σ
  rw [← silent, ← meaning]
  unfold Group.whereSql?
  rw [written]
  match parts, each, fits with
  | [], _, _ => simp
  | [part], each, fits =>
    refine ⟨by simp, fun clause found => ?_⟩
    cases found
    have condition := whereClause_one (each part List.mem_cons_self)
    refine ⟨by simpa using condition, fun dates => List.forall_mem_cons.mpr ⟨rfl, ?_⟩⟩
    exact fits dates part List.mem_cons_self
  | first :: second :: r, each, fits =>
    refine ⟨by simp, fun clause found => ?_⟩
    cases found
    refine ⟨whereClause_many _ (by simp) each, fun dates => ?_⟩
    have inside : Sql.Fits zone (Sql.separated ") AND (" ((first :: second :: r).map (·.1))) := by
      refine fits_separated _ _ fun sql member => ?_
      obtain ⟨part, inside, rfl⟩ := List.mem_map.mp member
      exact fits dates part inside
    exact List.forall_mem_append.mpr ⟨List.forall_mem_cons.mpr ⟨rfl, inside⟩, by simp [Piece.datesFit]⟩

end

-- The clause of any groups, read by the server, says that all of them hold, and there is no clause
-- only if none of them says anything.
theorem filter_denotes (zone : Zone) (qualified : Bool) (groups : List Group) (known : ∀ g ∈ groups, g.Known)
    (dates : ∀ g ∈ groups, g.conditions.every (Test.datesFit zone) = true) :
    (Group.whereSql? qualified groups = none ↔ ∀ g ∈ groups, g.isVacuous = true) ∧
    ∀ clause, Group.whereSql? qualified groups = some clause →
      ∃ text f, clause.render zone = .ok text ∧ readWhere text = some f ∧
        ∀ rows σ, f.eval rows σ = groups.all fun g => g.holds zone qualified rows σ := by
  obtain ⟨silent, reads⟩ := whereSql?_reads zone qualified groups known
  refine ⟨silent, fun clause found => ?_⟩
  obtain ⟨⟨tight, items, f, nests, read, means, _⟩, fits⟩ := reads clause found
  have written : clause.render zone = .ok (clause.text zone) := by
    rw [Sql.render, if_pos (List.all_eq_true.mpr (fits dates))]
  refine ⟨clause.text zone, f, written, ?_, means⟩
  unfold readWhere
  rw [Sql.lex_text tight]
  simp [nest_of_nests nests, read]

-- A denied disjunction with an empty tree in it, beside a range; and a correlated group.
def quotedGroups : List Group := [
  ⟨some "t1", .node [(.notOr, [.node [] [("a", .value (.text "') OR ('"))], .node [] []])]
    [("b", .compare ⟨.between, .range (.text "1") (.text "2"), rfl⟩)], none⟩,
  ⟨none, .node [] [("c", .value .null)], some ⟨"orders", "t1", .single "user" "id"⟩⟩]

def quotedClause : String :=
  "WHERE (NOT ((\"t1\".\"a\" = ''') OR (''')) AND \"t1\".\"b\" BETWEEN '1' AND '2') AND " ++
    "(EXISTS (SELECT * FROM \"orders\" WHERE \"user\" = \"t1\".\"id\" AND \"c\" IS NULL))"

theorem quoted_filter_denotes :
    ∃ f, readWhere quotedClause = some f ∧ ∀ rows σ, f.eval rows σ =
      ((!σ [.name "t1", .mark ".", .name "a", .operator "=", .text "') OR ('"] &&
        σ [.name "t1", .mark ".", .name "b", .word "between", .text "1", .word "and", .text "2"]) &&
        (rows "orders" σ).any fun ρ => ρ [.name "user", .operator "=", .name "t1", .mark ".", .name "id"] &&
          ρ [.name "c", .word "is", .word "null"]) := by
  have known : ∀ g ∈ quotedGroups, g.Known := by
    intro g member
    simp only [quotedGroups, List.mem_cons, List.not_mem_nil, or_false] at member
    rcases member with rfl | rfl
    · refine ⟨fun q found => ?_, rfl⟩
      cases found
    · refine ⟨fun q found => ?_, rfl⟩
      cases found
      rfl
  have dates : ∀ g ∈ quotedGroups, g.conditions.every (Test.datesFit .utc) = true := by
    intro g member
    simp only [quotedGroups, List.mem_cons, List.not_mem_nil, or_false] at member
    rcases member with rfl | rfl <;> rfl
  have spelled : (Group.whereSql? true quotedGroups).map (Sql.text .utc) = some quotedClause := by
    decide +kernel
  obtain ⟨clause, found⟩ : ∃ clause, Group.whereSql? true quotedGroups = some clause := ⟨_, rfl⟩
  obtain ⟨text, f, written, read, means⟩ :=
    (filter_denotes .utc true quotedGroups known dates).2 clause found
  rw [found] at spelled
  rw [Sql.text_of_render written, Option.some.inj spelled] at read
  have equals : lex " = " = some [.operator "="] := rfl
  have between : lex " BETWEEN " = some [.word "between"] := rfl
  have both : lex " AND " = some [.word "and"] := rfl
  have null : lex " IS NULL" = some [.word "is", .word "null"] := rfl
  refine ⟨f, read, fun rows σ => (means rows σ).trans ?_⟩
  simp [quotedGroups, Group.holds, Conditions.holds, Conditions.combinatorsHold, Conditions.groupsHold,
    Conditions.groupsEvery, Conditions.combinatorsEvery, Conditions.every, Combinator.joins, Test.holds, Test.sql,
    Comparator.sql, Operator.compare, columnPath, Link.pairs, linkTokens, pathTokens, literalTokens,
    Piece.tokens_word _ equals, Piece.tokens_word _ between, Piece.tokens_word _ both, Piece.tokens_word _ null]

end QueryKit
