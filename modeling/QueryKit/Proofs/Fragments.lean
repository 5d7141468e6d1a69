import QueryKit.Proofs.Disjuncts
import QueryKit.Proofs.SplicedText

-- Text of a caller's own as one of the tests of a filter. It is put beside the others as it is written, so that an AND
-- there binds tighter than an OR of its own: it stays one test as long as it has no such OR, or nothing beside it.

namespace QueryKit
open Lexer

def glued : List (List Bool) → List Bool
  | [] => []
  | [part] => part
  | part :: next :: r => bound part (glued (next :: r))

theorem glued_whole (parts : List (List Bool)) (filled : parts ≠ []) (whole : ∀ part ∈ parts, ∃ b, part = [b]) :
    glued parts = [parts.all fun part => part.any id] := by
  induction parts with
  | nil => exact absurd rfl filled
  | cons part r ih =>
    rw [List.forall_mem_cons] at whole
    obtain ⟨b, rfl⟩ := whole.1
    cases r with
    | nil => simp [glued]
    | cons next r =>
      rw [glued, ih (by simp) whole.2, List.all_cons]
      simp [bound]

-- What a part of a filter says: as it is written, by its disjuncts; and as it is meant, every test being one.
-- It is kept if no test of it that is divided by an OR has another test beside it.
structure Splice where
  written : Rows → Truth → List Bool
  meant : Rows → Truth → Bool
  divided : Bool
  kept : Bool

namespace Test

def disjuncts (zone : Zone) (path : List String) (test : Test) : List Formula :=
  (readDisjuncts ((test.sql path).text zone)).getD []

theorem disjuncts_of_text {zone : Zone} {path : List String} {test : Test} (text : String) {fs : List Formula}
    (written : (test.sql path).text zone = text) (read : readDisjuncts text = some fs) :
    test.disjuncts zone path = fs := by
  rw [disjuncts, written, read]
  rfl

-- A test that can be read by itself, up to its end.
def isSound (zone : Zone) (path : List String) (test : Test) : Bool :=
  test.isSpliceable zone path && (!test.isRaw || (readDisjuncts ((test.sql path).text zone)).isSome)

def splice (zone : Zone) (path : List String) (test : Test) : Splice :=
  if test.isRaw then
    { written rows σ := (test.disjuncts zone path).map (·.eval rows σ)
      meant rows σ := (test.disjuncts zone path).any (·.eval rows σ)
      divided := (test.disjuncts zone path).length != 1
      kept := true }
  else
    { written _ σ := [test.holds zone path σ]
      meant _ σ := test.holds zone path σ
      divided := false
      kept := true }

end Test

def splicing (zone : Zone) : Interpretation Splice where
  test := Test.splice zone
  all parts :=
    { written rows σ := glued (parts.map (·.written rows σ))
      meant rows σ := parts.all (·.meant rows σ)
      divided := parts.any (·.divided)
      kept := parts.all (·.kept) && (parts.length == 1 || !parts.any (·.divided)) }
  combine op parts :=
    { written rows σ := [op.joins (parts.map fun part => (part.written rows σ).any id)]
      meant rows σ := op.joins (parts.map (·.meant rows σ))
      divided := false
      kept := parts.all (·.kept) }
  link outerAlias link :=
    { written _ σ := [σ (linkTokens outerAlias link)]
      meant _ σ := σ (linkTokens outerAlias link)
      divided := false
      kept := true }
  within table part :=
    { written rows σ := [(rows table σ).any fun ρ => (part.written rows ρ).any id]
      meant rows σ := (rows table σ).any fun ρ => part.meant rows ρ
      divided := false
      kept := part.kept }

structure Spliced (zone : Zone) (sql : Sql) (s : Splice) : Prop where
  reads : ∃ ts items fs, Sql.Spells zone sql ts ∧ Nests readInside ts items ∧ Disjoins items fs ∧
    ∀ rows σ, fs.map (·.eval rows σ) = s.written rows σ
  kept : s.kept = true → ∀ rows σ, (s.written rows σ).any id = s.meant rows σ
  whole : s.divided = false → ∀ rows σ, ∃ b, s.written rows σ = [b]

section
variable {zone : Zone}

-- A part that is one predicate, whatever is beside it.
theorem spliced_predicate {sql : Sql} {ts : List Token} {items : List (Item Inside)} {f : Formula} {s : Splice}
    (spells : Sql.Spells zone sql ts) (nests : Nests readInside ts items) (unbroken : Unbroken items)
    (read : readPredicate items = some f) (means : ∀ rows σ, s.written rows σ = [f.eval rows σ])
    (kept : s.kept = true → ∀ rows σ, f.eval rows σ = s.meant rows σ) : Spliced zone sql s := by
  refine ⟨⟨ts, items, [f], spells, nests, disjoins_predicate unbroken read, ?_⟩, ?_, ?_⟩
  · intro rows σ
    rw [means]
    rfl
  · intro keeps rows σ
    rw [means]
    simpa using kept keeps rows σ
  · intro _ rows σ
    exact ⟨_, means rows σ⟩

theorem spliced_test (s : String) (r : List String) {test : Test} (sound : test.isSound zone (s :: r) = true) :
    Spliced zone (test.sql (s :: r)) (test.splice zone (s :: r)) := by
  simp only [Test.isSound, Bool.and_eq_true, Bool.or_eq_true, Bool.not_eq_true'] at sound
  obtain ⟨spliceable, readable⟩ := sound
  have spells := Test.spells zone s r spliceable
  cases plain : test.isRaw with
  | false =>
    obtain ⟨items, f, nests, unbroken, read, means, -⟩ := (Test.predicate s r test plain).reads
    rw [Test.tokens_plain zone s r plain] at spells
    have said : test.splice zone (s :: r) = ⟨fun _ σ => [test.holds zone (s :: r) σ],
        fun _ σ => test.holds zone (s :: r) σ, false, true⟩ := by simp [Test.splice, plain]
    rw [said]
    refine spliced_predicate spells nests unbroken read ?_ ?_
    · intro rows σ
      rw [means]
    · intro _ rows σ
      exact means rows σ
  | true =>
    rw [plain] at readable
    obtain ⟨fs, read⟩ := Option.isSome_iff_exists.mp (readable.resolve_left (by simp))
    obtain ⟨ts, items, split, nests, disjoins⟩ := disjoins_read read
    have parts : test.disjuncts zone (s :: r) = fs := Test.disjuncts_of_text _ rfl read
    rw [Test.tokens, split] at spells
    have said : test.splice zone (s :: r) = ⟨fun rows σ => fs.map (·.eval rows σ),
        fun rows σ => fs.any (·.eval rows σ), fs.length != 1, true⟩ := by simp [Test.splice, plain, parts]
    rw [said]
    refine ⟨⟨ts, items, fs, spells, nests, disjoins, fun _ _ => rfl⟩, ?_, ?_⟩
    · intro _ rows σ
      simp [List.any_map]
    · intro single rows σ
      simp only [bne_eq_false_iff_eq] at single
      obtain ⟨f, rfl⟩ := List.length_eq_one_iff.mp single
      exact ⟨_, rfl⟩

theorem reads_all {parts : List Sql} {ss : List Splice} (filled : parts ≠ [])
    (each : List.Forall₂ (Spliced zone) parts ss) :
    ∃ ts items fs, Sql.Spells zone (Sql.separated " AND " parts) ts ∧ Nests readInside ts items ∧ Disjoins items fs ∧
      ∀ rows σ, fs.map (·.eval rows σ) = glued (ss.map (·.written rows σ)) := by
  induction each with
  | nil => exact absurd rfl filled
  | @cons part s r ss first rest ih =>
    obtain ⟨ts, items, fs, spells, nests, disjoins, means⟩ := first.reads
    cases rest with
    | nil =>
      rw [Sql.separated_singleton]
      exact ⟨ts, items, fs, spells, nests, disjoins, means⟩
    | cons next more =>
      obtain ⟨us, others, gs, spelled, nested, disjoined, said⟩ := ih (by simp)
      obtain ⟨hs, whole, bound⟩ := disjoins.and disjoined
      refine ⟨_, _, hs, ?_, nests.append ((nests_token rfl).append nested), whole, ?_⟩
      · rw [Sql.separated_cons_cons]
        exact spells.glue glue_and rfl spelled
      · intro rows σ
        rw [bound, means, said]
        rfl

theorem spliced_each {parts : List Sql} {ss : List Splice} (each : List.Forall₂ (Spliced zone) parts ss) :
    ∀ s ∈ ss, ∃ sql, Spliced zone sql s := by
  induction each with
  | nil => simp
  | cons first rest ih => exact List.forall_mem_cons.mpr ⟨⟨_, first⟩, ih⟩

theorem map_kept {parts : List Sql} {ss : List Splice} (each : List.Forall₂ (Spliced zone) parts ss)
    (keeps : (ss.all (·.kept)) = true) (rows : Rows) (σ : Truth) :
    (ss.map fun s => (s.written rows σ).any id) = ss.map (·.meant rows σ) := by
  refine List.map_congr_left fun s member => ?_
  obtain ⟨sql, spliced⟩ := spliced_each each s member
  exact spliced.kept (List.all_eq_true.mp keeps s member) rows σ

theorem spliced_all {parts : List Sql} {ss : List Splice} (parted : parts ≠ [])
    (each : List.Forall₂ (Spliced zone) parts ss) :
    Spliced zone (Sql.separated " AND " parts) ((splicing zone).all ss) := by
  have every := spliced_each each
  have filled : ss ≠ [] := by
    rintro rfl
    cases each
    exact parted rfl
  have undivided (uncut : (ss.any (·.divided)) = false) (rows : Rows) (σ : Truth) :
      glued (ss.map (·.written rows σ)) = [ss.all fun s => (s.written rows σ).any id] := by
    rw [glued_whole _ (by simpa using filled), List.all_map]
    · rfl
    · intro part member
      obtain ⟨s, inside, rfl⟩ := List.mem_map.mp member
      obtain ⟨sql, spliced⟩ := every s inside
      exact spliced.whole (by simpa using List.any_eq_false.mp uncut s inside) rows σ
  refine ⟨reads_all parted each, ?_, ?_⟩
  · intro keeps rows σ
    simp only [splicing, Bool.and_eq_true, Bool.or_eq_true, beq_iff_eq, Bool.not_eq_true'] at keeps
    have same := map_kept each keeps.1 rows σ
    rcases keeps.2 with alone | uncut
    · obtain ⟨s, rfl⟩ := List.length_eq_one_iff.mp alone
      simpa [splicing, glued] using same
    · have whole := undivided uncut rows σ
      have both := congrArg (fun holds => holds.all id) same
      simp only [List.all_map] at both
      simp only [splicing, whole, List.any_cons, List.any_nil, Bool.or_false]
      exact both
  · intro uncut rows σ
    exact ⟨_, undivided uncut rows σ⟩

theorem conditions_read {parts : List Sql} {ss : List Splice} (each : List.Forall₂ (Spliced zone) parts ss) :
    ∃ rs : List Reading, List.Forall₂ (Sql.Spells zone) parts (rs.map (·.tokens)) ∧
      (∀ r ∈ rs, Nests readInside r.tokens r.items ∧ readCondition r.items = some r.formula) ∧
      ∀ rows σ, rs.map (·.formula.eval rows σ) = ss.map fun s => (s.written rows σ).any id := by
  induction each with
  | nil => exact ⟨[], .nil, by simp, fun _ _ => rfl⟩
  | cons first rest ih =>
    obtain ⟨rs, spelled, readable, means⟩ := ih
    obtain ⟨ts, items, fs, spells, nests, disjoins, said⟩ := first.reads
    obtain ⟨f, read, evaluates⟩ := disjoins.condition
    refine ⟨⟨ts, items, f⟩ :: rs, .cons spells spelled, List.forall_mem_cons.mpr ⟨⟨nests, read⟩, readable⟩, ?_⟩
    intro rows σ
    rw [List.map_cons, List.map_cons, means, evaluates, ← said, List.any_map]
    rfl

theorem enclosed_read {rs : List Reading} (filled : rs ≠ [])
    (readable : ∀ r ∈ rs, Nests readInside r.tokens r.items ∧ readCondition r.items = some r.formula) {t : Token}
    (solid : t.isParenthesis = false) (join : List Bool → Bool)
    (joins : ∀ parts : List (List (Item Inside) × Formula), parts ≠ [] → (∀ part ∈ parts, Unbroken part.1) →
      (∀ part ∈ parts, readPredicate part.1 = some part.2) →
      ∃ f, readCondition (List.intercalate [.token t] (parts.map (·.1))) = some f ∧
        ∀ rows σ, f.eval rows σ = join (parts.map (·.2.eval rows σ))) :
    ∃ items f, Nests readInside (.mark "(" :: List.intercalate [.mark ")", t, .mark "("] (rs.map (·.tokens)) ++ [.mark ")"])
        items ∧ readCondition items = some f ∧ ∀ rows σ, f.eval rows σ = join (rs.map (·.formula.eval rows σ)) := by
  obtain ⟨f, read, means⟩ := joins (rs.map fun r => ([enclose readInside r.items], r.formula)) (by simpa using filled)
    (by simpa using fun (r : Reading) _ => unbroken_of_quiet (quiet_group r.items))
    (by simpa using fun r member => (readPredicate_enclosed (readable r member).2).1)
  have nests := nests_intercalate (nests_token solid)
    (rs.map fun r => (.mark "(" :: r.tokens ++ [.mark ")"], [enclose readInside r.items]))
    (by simpa using fun r member => (readable r member).1.enclosed)
  refine ⟨List.intercalate [.token t] (rs.map fun r => [enclose readInside r.items]), f, ?_, ?_, ?_⟩
  · rw [intercalate_enclosed t _ (by simpa using filled)]
    simpa [Function.comp_def] using nests
  · simpa [Function.comp_def] using read
  · intro rows σ
    rw [means, List.map_map]
    rfl

theorem spliced_joined (op : Combinator) (negated : Bool) {wide : String} {t : Token}
    (glue : Glue wide [.mark ")", t, .mark "("]) (ends : resumes wide.toList = true) (solid : t.isParenthesis = false)
    (join : List Bool → Bool)
    (joins : ∀ parts : List (List (Item Inside) × Formula), parts ≠ [] → (∀ part ∈ parts, Unbroken part.1) →
      (∀ part ∈ parts, readPredicate part.1 = some part.2) →
      ∃ f, readCondition (List.intercalate [.token t] (parts.map (·.1))) = some f ∧
        ∀ rows σ, f.eval rows σ = join (parts.map (·.2.eval rows σ)))
    (joined : ∀ holds, op.joins holds = (join holds != negated)) {parts : List Sql} {ss : List Splice}
    (written : op.sql parts = .word (if negated then "NOT ((" else "((") :: Sql.separated wide parts ++ [.word "))"])
    (filled : parts ≠ []) (each : List.Forall₂ (Spliced zone) parts ss) :
    Spliced zone (op.sql parts) ((splicing zone).combine op ss) := by
  obtain ⟨rs, spelled, readable, said⟩ := conditions_read each
  have filled : rs ≠ [] := by
    rintro rfl
    cases spelled
    exact filled rfl
  obtain ⟨items, f, nests, read, evaluates⟩ := enclosed_read filled readable solid join joins
  have closing : Glue "))" [.mark ")", .mark ")"] := ⟨rfl, rfl⟩
  have inside := (Sql.Spells.separated glue ends spelled).closed closing rfl
  have around := nests.enclosed
  have means (rows : Rows) (σ : Truth) : op.joins (ss.map fun s => (s.written rows σ).any id) = (f.eval rows σ != negated) := by
    rw [joined, evaluates, said]
  have kept : ((splicing zone).combine op ss).kept = true → ∀ rows σ,
      (f.eval rows σ != negated) = ((splicing zone).combine op ss).meant rows σ := by
    intro keeps rows σ
    rw [← means, map_kept each keeps]
    rfl
  rw [written]
  cases negated with
  | false =>
    have opened : Glue "((" [.mark "(", .mark "("] := ⟨rfl, rfl⟩
    simp only [Bool.bne_false] at means kept
    exact spliced_predicate (inside.opened opened) (by simpa using around) (unbroken_of_quiet (quiet_group items))
      (readPredicate_enclosed read).1 (fun rows σ => congrArg ([·]) (means rows σ)) kept
  | true =>
    have opened : Glue "NOT ((" [.word "not", .mark "(", .mark "("] := ⟨rfl, rfl⟩
    have denial : Nests readInside [.word "not"] [.token (.word "not")] := nests_token rfl
    simp only [Bool.bne_true] at means kept
    exact spliced_predicate (inside.opened opened) (by simpa using denial.append around)
      (unbroken_of_quiet (quiet_behind (w := "not") rfl items)) (readPredicate_enclosed read).2
      (fun rows σ => congrArg ([·]) (means rows σ)) kept

theorem spliced_combined (op : Combinator) {parts : List Sql} {ss : List Splice} (filled : parts ≠ [])
    (each : List.Forall₂ (Spliced zone) parts ss) : Spliced zone (op.sql parts) ((splicing zone).combine op ss) := by
  have both : Glue ") AND (" [.mark ")", .word "and", .mark "("] := ⟨rfl, rfl⟩
  have either : Glue ") OR (" [.mark ")", .word "or", .mark "("] := ⟨rfl, rfl⟩
  cases op with
  | and =>
    exact spliced_joined .and false both rfl rfl (·.all id) readCondition_and (fun _ => (Bool.bne_false _).symm) rfl filled each
  | or =>
    exact spliced_joined .or false either rfl rfl (·.any id) readCondition_or (fun _ => (Bool.bne_false _).symm) rfl filled each
  | notAnd =>
    exact spliced_joined .notAnd true both rfl rfl (·.all id) readCondition_and (fun _ => (Bool.bne_true _).symm) rfl
      filled each
  | not =>
    exact spliced_joined .not true both rfl rfl (·.all id) readCondition_and (fun _ => (Bool.bne_true _).symm) rfl
      filled each
  | notOr =>
    exact spliced_joined .notOr true either rfl rfl (·.any id) readCondition_or (fun _ => (Bool.bne_true _).symm) rfl
      filled each

theorem spliced_link (outerAlias : String) (link : String × String) :
    Spliced zone (linkSql outerAlias link) ((splicing zone).link outerAlias link) := by
  obtain ⟨items, f, nests, unbroken, read, means, -⟩ := (predicate_link outerAlias link).reads
  refine spliced_predicate (spells_link zone outerAlias link) nests unbroken read ?_ ?_
  · intro rows σ
    rw [means]
    rfl
  · intro _ rows σ
    exact means rows σ

theorem spliced_within (table : String) {sql : Sql} {s : Splice} (spliced : Spliced zone sql s) :
    Spliced zone (existsSql table sql) ((splicing zone).within table s) := by
  obtain ⟨ts, items, fs, spells, nests, disjoins, means⟩ := spliced.reads
  obtain ⟨f, read, evaluates⟩ := disjoins.condition
  have said (rows : Rows) (σ : Truth) : f.eval rows σ = (s.written rows σ).any id := by
    rw [evaluates, ← means, List.any_map]
    rfl
  have opened : Glue "EXISTS (SELECT * FROM " [.word "exists", .mark "(", .word "select", .operator "*", .word "from"] :=
    ⟨rfl, rfl⟩
  have filtered : Glue " WHERE " [.word "where"] := ⟨rfl, rfl⟩
  have named : Sql.Spells zone [.name [table]] [.name table] := by
    have tight : Sql.Tight zone [.name [table]] := .name rfl .nil
    simpa [pathTokens] using tight.spells (by simp [Sql.Fits, Piece.datesFit])
  have whole := ((named.glue filtered rfl spells).closed glue_close rfl).opened opened
  have head : Nests readInside [.word "select", .operator "*", .word "from", .name table, .word "where"]
      ([.word "select", .operator "*", .word "from", .name table, .word "where"].map .token) :=
    nests_tokens (by simp [Token.isParenthesis])
  have existence : Nests readInside [.word "exists"] [.token (.word "exists")] := nests_token rfl
  have nested := existence.append (head.append nests).enclosed
  have filter : readSubquery ([.word "select", .operator "*", .word "from", .name table, .word "where"].map .token ++
      items) = some (.within table f) := by
    simp [readSubquery, read]
  generalize [Token.word "select", .operator "*", .word "from", .name table, .word "where"].map Item.token ++ items =
    inner at nested filter
  refine spliced_predicate (by simpa [existsSql] using whole) (by simpa using nested)
    (unbroken_of_quiet (quiet_behind (w := "exists") rfl inner)) (readPredicate_exists filter) ?_ ?_
  · intro rows σ
    simp only [splicing, Formula.eval, said]
  · intro keeps rows σ
    simp only [splicing, Formula.eval, said]
    exact congrArg _ (funext fun ρ => spliced.kept keeps rows ρ)

theorem splicing_follows (zone : Zone) : (splicing zone).Follows (Spliced zone) where
  all _ _ filled each := spliced_all filled each
  combine op _ _ filled each := spliced_combined op filled each
  link := spliced_link
  within table _ _ spliced := spliced_within table spliced

theorem readWhere_clause {clause : Sql} {ts : List Token} {items : List (Item Inside)} {f : Formula}
    (spells : Sql.Spells zone clause (.word "where" :: ts)) (nests : Nests readInside ts items)
    (read : readCondition items = some f) : ∃ text, clause.render zone = .ok text ∧ readWhere text = some f := by
  obtain ⟨text, written, split⟩ := spells.rendered
  have whole : Nests readInside (.word "where" :: ts) (.token (.word "where") :: items) := .token rfl nests
  refine ⟨text, written, ?_⟩
  rw [readWhere, split]
  simp [nest_of_nests whole, read]

theorem clause_read {qualified : Bool} {groups : List Group} {clause : Sql}
    (found : Group.whereSql? qualified groups = some clause) {ss : List Splice}
    (each : List.Forall₂ (Spliced zone) (groups.filterMap (Group.sql? qualified)) ss) :
    ∃ text f, clause.render zone = .ok text ∧ readWhere text = some f ∧
      ∀ rows σ, f.eval rows σ = ss.all fun s => (s.written rows σ).any id := by
  unfold Group.whereSql? at found
  generalize groups.filterMap (Group.sql? qualified) = parts at found each
  match parts, each with
  | [], _ => cases found
  | [part], .cons first .nil =>
    cases found
    have keyword : Glue "WHERE " [.word "where"] := ⟨rfl, rfl⟩
    obtain ⟨ts, items, fs, spells, nests, disjoins, means⟩ := first.reads
    obtain ⟨f, read, evaluates⟩ := disjoins.condition
    obtain ⟨text, written, reads⟩ := readWhere_clause (spells.opened keyword) nests read
    refine ⟨text, f, written, reads, ?_⟩
    intro rows σ
    rw [evaluates, List.all_cons, List.all_nil, Bool.and_true, ← means, List.any_map]
    rfl
  | first :: second :: r, each =>
    cases found
    have opened : Glue "WHERE (" [.word "where", .mark "("] := ⟨rfl, rfl⟩
    have both : Glue ") AND (" [.mark ")", .word "and", .mark "("] := ⟨rfl, rfl⟩
    obtain ⟨rs, spelled, readable, said⟩ := conditions_read each
    have filled : rs ≠ [] := by
      rintro rfl
      cases spelled
    obtain ⟨items, f, nests, read, evaluates⟩ := enclosed_read filled readable rfl (·.all id) readCondition_and
    have inside := ((Sql.Spells.separated both rfl spelled).closed glue_close rfl).opened opened
    obtain ⟨text, written, reads⟩ := readWhere_clause (by simpa using inside) nests read
    refine ⟨text, f, written, reads, ?_⟩
    intro rows σ
    rw [evaluates, said, List.all_map]
    rfl

end

-- A clause with text of a caller's own in it, all of which can be read by itself, says what it says as it is
-- written: an OR of such a text parts the conjunction that it stands in. It says what is meant, every test
-- being one, if no text with such an OR has anything beside it.
theorem fragments_read (zone : Zone) (qualified : Bool) (groups : List Group) (tied : ∀ g ∈ groups, g.isTied = true)
    (sound : ∀ g ∈ groups, ∀ leaf ∈ g.leaves qualified, leaf.2.isSound zone leaf.1 = true) :
    (Group.whereSql? qualified groups = none ↔ groups.filterMap ((splicing zone).group? qualified) = []) ∧
    ∀ clause, Group.whereSql? qualified groups = some clause →
      ∃ text f, clause.render zone = .ok text ∧ readWhere text = some f ∧
        (∀ rows σ, f.eval rows σ =
          (groups.filterMap ((splicing zone).group? qualified)).all fun s => (s.written rows σ).any id) ∧
        ((∀ s ∈ groups.filterMap ((splicing zone).group? qualified), s.kept = true) → ∀ rows σ, f.eval rows σ =
          (groups.filterMap ((splicing zone).group? qualified)).all fun s => s.meant rows σ) := by
  have each : List.Forall₂ (Spliced zone) (groups.filterMap (Group.sql? qualified))
      (groups.filterMap ((splicing zone).group? qualified)) := by
    refine Interpretation.groups_follow (splicing_follows zone) qualified tied ?_
    intro g member leaf inside
    obtain ⟨s, r, path⟩ := Group.leaf_named inside
    have here := sound g member leaf inside
    rw [path] at here ⊢
    exact spliced_test s r here
  generalize groups.filterMap ((splicing zone).group? qualified) = ss at each
  constructor
  · have nothing : Group.whereSql? qualified groups = none ↔ groups.filterMap (Group.sql? qualified) = [] := by
      unfold Group.whereSql?
      split <;> simp_all
    rw [nothing]
    constructor
    · intro empty
      rw [empty] at each
      exact List.forall₂_nil_left_iff.mp each
    · rintro rfl
      exact List.forall₂_nil_right_iff.mp each
  · intro clause found
    obtain ⟨text, f, written, read, means⟩ := clause_read found each
    refine ⟨text, f, written, read, means, ?_⟩
    intro kept rows σ
    have same := congrArg (fun holds => holds.all id) (map_kept each (List.all_eq_true.mpr kept) rows σ)
    simp only [List.all_map] at same
    rw [means]
    exact same

-- A text with an OR alone in a disjunction, one without an OR beside a test, and one more in a subquery.
def overdueGroups : List Group := [
  ⟨some "t1", .node [(.or, [.node [] [("due", .compare (.raw "?:column < ?:value OR late" [.int32 7]))],
      .node [] [("state", .value (.text "open")), ("note", .compare (.raw "NOT ?:column ~ '(' " []))]])] [], none⟩,
  ⟨none, .node [] [("total", .compare (.raw "?:column BETWEEN 1 AND 9" []))], some ⟨"orders", "t1", .single "user" "id"⟩⟩]

def overdueClause : String :=
  "WHERE (((\"t1\".\"due\" < 7 OR late) OR (\"t1\".\"state\" = 'open' AND NOT \"t1\".\"note\" ~ '(' )))" ++
    " AND (EXISTS (SELECT * FROM \"orders\" WHERE \"user\" = \"t1\".\"id\" AND \"total\" BETWEEN 1 AND 9))"

theorem overdue_read : ∃ f, readWhere overdueClause = some f ∧ ∀ rows σ, f.eval rows σ =
    (((σ [.name "t1", .mark ".", .name "due", .operator "<", .number "7"] ||
          σ [.word "late"]) ||
        (σ [.name "t1", .mark ".", .name "state", .operator "=", .text "open"] &&
          !σ [.name "t1", .mark ".", .name "note", .operator "~", .text "("])) &&
      (rows "orders" σ).any fun ρ => ρ [.name "user", .operator "=", .name "t1", .mark ".", .name "id"] &&
        ρ [.name "total", .word "between", .number "1", .word "and", .number "9"]) := by
  have tied : ∀ g ∈ overdueGroups, g.isTied = true := List.all_eq_true.mp rfl
  have sound : (overdueGroups.all fun g => (g.leaves true).all fun leaf => leaf.2.isSound .utc leaf.1) = true := by
    decide +kernel
  simp only [List.all_eq_true] at sound
  have spelled : (Group.whereSql? true overdueGroups).map (Sql.text .utc) = some overdueClause := by
    decide +kernel
  obtain ⟨clause, found⟩ : ∃ clause, Group.whereSql? true overdueGroups = some clause := ⟨_, rfl⟩
  obtain ⟨text, f, written, read, -, means⟩ :=
    (fragments_read .utc true overdueGroups tied sound).2 clause found
  have kept : ((overdueGroups.filterMap ((splicing .utc).group? true)).all (·.kept)) = true := by
    decide +kernel
  rw [found] at spelled
  rw [Sql.text_of_render written, Option.some.inj spelled] at read
  have due : (Test.compare (.raw "?:column < ?:value OR late" [.int32 7])).disjuncts .utc ["t1", "due"] =
      [.atom [.name "t1", .mark ".", .name "due", .operator "<", .number "7"], .atom [.word "late"]] :=
    Test.disjuncts_of_text "\"t1\".\"due\" < 7 OR late" (by decide +kernel) rfl
  have note : (Test.compare (.raw "NOT ?:column ~ '(' " [])).disjuncts .utc ["t1", "note"] =
      [.not (.atom [.name "t1", .mark ".", .name "note", .operator "~", .text "("])] :=
    Test.disjuncts_of_text "NOT \"t1\".\"note\" ~ '(' " (by decide +kernel) rfl
  have total : (Test.compare (.raw "?:column BETWEEN 1 AND 9" [])).disjuncts .utc ["total"] =
      [.atom [.name "total", .word "between", .number "1", .word "and", .number "9"]] :=
    Test.disjuncts_of_text "\"total\" BETWEEN 1 AND 9" (by decide +kernel) rfl
  have equals : lex " = " = some [.operator "="] := rfl
  refine ⟨f, read, fun rows σ => (means (List.all_eq_true.mp kept) rows σ).trans ?_⟩
  have own (template : String) (escapes : List Value) : (Test.compare (.raw template escapes)).isRaw = true := rfl
  have plain : (Test.value (.text "open")).isRaw = false := rfl
  simp [overdueGroups, Interpretation.group?, Interpretation.subquery, Interpretation.tree?, Interpretation.combined,
    Interpretation.nested, Interpretation.joined?, splicing, Test.splice, own, plain, due, note, total, columnPath,
    Combinator.joins, Link.pairs, linkTokens, Formula.eval, Test.holds, Test.sql, pathTokens, literalTokens,
    Piece.tokens_word _ equals]

def openGroups : List Group :=
  [.plain none (.node [] [("a", .value (.int32 1)), ("b", .compare (.raw "x = 1 OR y = 2" []))])]

def onlyLast : Truth := fun ts => ts == [.word "y", .operator "=", .number "2"]

-- A row where the test fails passes the clause.
theorem or_breaks_out : (Group.whereSql? false openGroups).map (Sql.text .utc) =
      some "WHERE \"a\" = 1 AND x = 1 OR y = 2" ∧
    (openGroups.all fun g => (g.leaves false).all fun leaf => leaf.2.isSound .utc leaf.1) = true ∧
    ∃ f, readWhere "WHERE \"a\" = 1 AND x = 1 OR y = 2" = some f ∧ ∀ rows, f.eval rows onlyLast = true ∧
      ((openGroups.filterMap ((splicing .utc).group? false)).all fun s => s.meant rows onlyLast) = false := by
  refine ⟨by decide +kernel, by decide +kernel, _, rfl, ?_⟩
  intro rows
  have own : (Test.compare (.raw "x = 1 OR y = 2" [])).disjuncts .utc ["b"] =
      [.atom [.word "x", .operator "=", .number "1"], .atom [.word "y", .operator "=", .number "2"]] :=
    Test.disjuncts_of_text "x = 1 OR y = 2" (by decide +kernel) rfl
  have raw : (Test.compare (.raw "x = 1 OR y = 2" [])).isRaw = true := rfl
  have plain : (Test.value (.int32 1)).isRaw = false := rfl
  have fails : (Test.value (.int32 1)).holds .utc ["a"] onlyLast = false := by decide +kernel
  constructor
  · rfl
  · simp [openGroups, Group.plain, Interpretation.group?, Interpretation.tree?, Interpretation.combined,
      Interpretation.joined?, splicing, Test.splice, raw, plain, columnPath, fails]

end QueryKit
