import QueryKit.Proofs.Nesting

-- Conditions as the server reads them: NOT binds tighter than AND, AND tighter than OR, and the AND
-- of a BETWEEN belongs to its predicate.

namespace QueryKit.Lexer

inductive Formula where
  | atom (ts : List Token)
  | within (table : String) (filter : Formula)
  | not (f : Formula)
  | and (f g : Formula)
  | or (f g : Formula)

abbrev Truth := List Token → Bool

abbrev Rows := String → Truth → List Truth

def Formula.eval (rows : Rows) : Formula → Truth → Bool
  | .atom ts, σ => σ ts
  | .within table filter, σ => (rows table σ).any fun ρ => filter.eval rows ρ
  | .not f, σ => !f.eval rows σ
  | .and f g, σ => f.eval rows σ && g.eval rows σ
  | .or f g, σ => f.eval rows σ || g.eval rows σ

-- What stands in a pair of parentheses: a condition, or a subquery of an EXISTS.
structure Inside where
  condition : Option Formula
  subquery : Option Formula

section
variable {α : Type}

def disjuncts (part : List (Item α)) : List (Item α) → List (List (Item α))
  | [] => [part]
  | i :: r => if i.isWord "or" then part :: disjuncts [] r else disjuncts (part ++ [i]) r

def conjuncts (between : Bool) (part : List (Item α)) : List (Item α) → List (List (Item α))
  | [] => [part]
  | i :: r =>
    if i.isWord "and" && !between then part :: conjuncts false [] r
    else conjuncts (i.isWord "between" || between && !i.isWord "and") (part ++ [i]) r

structure Unbroken (items : List (Item α)) : Prop where
  disjunct : ∀ i ∈ items, i.isWord "or" = false
  conjunct : ∀ part r, conjuncts false part (items ++ r) = conjuncts false (part ++ items) r

theorem disjuncts_append (items : List (Item α)) (free : ∀ i ∈ items, i.isWord "or" = false)
    (part r : List (Item α)) : disjuncts part (items ++ r) = disjuncts (part ++ items) r := by
  induction items generalizing part with
  | nil => simp
  | cons i items ih =>
    have here := free i List.mem_cons_self
    rw [List.cons_append, disjuncts, here]
    simp only [Bool.false_eq_true, if_false]
    rw [ih fun j member => free j (List.mem_cons_of_mem _ member), List.append_assoc, List.singleton_append]

theorem disjuncts_alone (items : List (Item α)) (free : ∀ i ∈ items, i.isWord "or" = false) :
    disjuncts [] items = [items] := by
  have whole := disjuncts_append items free [] []
  simpa [disjuncts] using whole

theorem Unbroken.alone {items : List (Item α)} (unbroken : Unbroken items) : conjuncts false [] items = [items] := by
  have whole := unbroken.conjunct [] []
  simpa [conjuncts] using whole

theorem disjuncts_intercalate (parts : List (List (Item α))) (filled : parts ≠ [])
    (free : ∀ part ∈ parts, ∀ i ∈ part, i.isWord "or" = false) :
    disjuncts [] (List.intercalate [.token (.word "or")] parts) = parts := by
  induction parts with
  | nil => exact absurd rfl filled
  | cons part r ih =>
    have here := free part List.mem_cons_self
    cases r with
    | nil => rw [List.intercalate_singleton, disjuncts_alone part here]
    | cons next r =>
      have rest := ih (by simp) fun p member => free p (List.mem_cons_of_mem _ member)
      rw [List.intercalate_cons_cons, List.append_assoc, disjuncts_append part here, List.nil_append,
        List.singleton_append, disjuncts]
      simp only [Item.isWord, beq_self_eq_true, if_true, rest]

theorem conjuncts_intercalate (parts : List (List (Item α))) (filled : parts ≠ [])
    (whole : ∀ part ∈ parts, Unbroken part) :
    conjuncts false [] (List.intercalate [.token (.word "and")] parts) = parts := by
  induction parts with
  | nil => exact absurd rfl filled
  | cons part r ih =>
    have here := whole part List.mem_cons_self
    cases r with
    | nil => rw [List.intercalate_singleton, here.alone]
    | cons next r =>
      have rest := ih (by simp) fun p member => whole p (List.mem_cons_of_mem _ member)
      rw [List.intercalate_cons_cons, List.append_assoc, here.conjunct, List.nil_append,
        List.singleton_append, conjuncts]
      simp only [Item.isWord, beq_self_eq_true, Bool.not_false, Bool.and_self, if_true, rest]

theorem forall_mem_intercalate {β : Type} {p : β → Prop} {a : β} (parts : List (List β)) (here : p a)
    (each : ∀ part ∈ parts, ∀ b ∈ part, p b) : ∀ b ∈ List.intercalate [a] parts, p b := by
  induction parts with
  | nil => intro b member; cases member
  | cons part r ih =>
    have first := each part List.mem_cons_self
    cases r with
    | nil => rwa [List.intercalate_singleton]
    | cons next r =>
      have rest := ih fun q member => each q (List.mem_cons_of_mem _ member)
      rw [List.intercalate_cons_cons]
      simp only [List.forall_mem_append, List.forall_mem_singleton]
      exact ⟨⟨first, here⟩, rest⟩

def Item.isQuiet (i : Item α) : Bool :=
  !i.isWord "and" && !i.isWord "or" && !i.isWord "between" && !i.opensClause

theorem isQuiet_of_isPlain {i : Item α} (plain : i.isPlain = true) : i.isQuiet = true := by
  simp only [Item.isPlain, reserved, List.all_append, Bool.and_eq_true] at plain
  obtain ⟨words, clauses⟩ := plain
  have free : i.opensClause = false := by
    cases i with
    | group => rfl
    | token t =>
      cases t with
      | word w =>
        rw [← Bool.not_eq_true]
        intro opens
        have other := List.all_eq_true.mp clauses w (List.contains_iff_mem.mp opens)
        simp [Item.isWord] at other
      | _ => rfl
  simp_all [Item.isQuiet]

theorem conjuncts_quiet (items : List (Item α)) (quiet : ∀ i ∈ items, i.isQuiet = true) (between : Bool)
    (part r : List (Item α)) : conjuncts between part (items ++ r) = conjuncts between (part ++ items) r := by
  induction items generalizing part with
  | nil => simp
  | cons i items ih =>
    have here := quiet i List.mem_cons_self
    simp only [Item.isQuiet, Bool.and_eq_true, Bool.not_eq_true'] at here
    rw [List.cons_append, conjuncts, here.1.1.1, here.1.2]
    simp only [Bool.false_and, Bool.false_eq_true, if_false, Bool.not_false, Bool.and_true, Bool.false_or]
    rw [ih fun j member => quiet j (List.mem_cons_of_mem _ member), List.append_assoc, List.singleton_append]

theorem free_of_quiet {items : List (Item α)} (quiet : ∀ i ∈ items, i.isQuiet = true) :
    ∀ i ∈ items, i.isWord "or" = false := by
  intro i member
  have here := quiet i member
  simp only [Item.isQuiet, Bool.and_eq_true, Bool.not_eq_true'] at here
  exact here.1.1.2

theorem unbroken_of_quiet {items : List (Item α)} (quiet : ∀ i ∈ items, i.isQuiet = true) : Unbroken items :=
  ⟨free_of_quiet quiet, conjuncts_quiet items quiet false⟩

theorem unbroken_range {left lower upper : List (Item α)} (first : ∀ i ∈ left, i.isQuiet = true)
    (second : ∀ i ∈ lower, i.isQuiet = true) (third : ∀ i ∈ upper, i.isQuiet = true) :
    Unbroken (left ++ .token (.word "between") :: (lower ++ .token (.word "and") :: upper)) := by
  constructor
  · intro i member
    rcases List.mem_append.mp member with inLeft | member
    · exact free_of_quiet first i inLeft
    rcases List.mem_cons.mp member with rfl | member
    · rfl
    rcases List.mem_append.mp member with inLower | member
    · exact free_of_quiet second i inLower
    rcases List.mem_cons.mp member with rfl | member
    · rfl
    · exact free_of_quiet third i member
  · intro part r
    have opens (part r : List (Item α)) : conjuncts false part (.token (.word "between") :: r) =
        conjuncts true (part ++ [.token (.word "between")]) r := rfl
    have goesOn (part r : List (Item α)) : conjuncts true part (.token (.word "and") :: r) =
        conjuncts false (part ++ [.token (.word "and")]) r := rfl
    simp only [List.append_assoc, List.cons_append]
    rw [conjuncts_quiet left first, opens, conjuncts_quiet lower second, goesOn, conjuncts_quiet upper third]
    simp only [List.append_assoc, List.cons_append, List.nil_append]

end

def readExists : List (Item Inside) → Option Formula
  | [.group _ inside] => inside.subquery
  | _ => none

def readPredicate : List (Item Inside) → Option Formula
  | [] => none
  | .group ts inside :: r => if r.isEmpty then inside.condition else some (.atom (ts ++ flatten r))
  | .token t :: r =>
    if t = .word "not" then (readPredicate r).map .not
    else if t = .word "exists" then readExists r
    else some (.atom (t :: flatten r))

def chain (join : Formula → Formula → Formula) : List Formula → Option Formula
  | [] => none
  | f :: r => some (r.foldl join f)

def readConjunction (items : List (Item Inside)) : Option Formula :=
  ((conjuncts false [] items).mapM readPredicate).bind (chain .and)

def readCondition (items : List (Item Inside)) : Option Formula :=
  ((disjuncts [] items).mapM readConjunction).bind (chain .or)

def readSubquery : List (Item Inside) → Option Formula
  | .token select :: .token every :: .token from_ :: .token (.name table) :: .token where_ :: r =>
    if select = .word "select" ∧ every = .operator "*" ∧ from_ = .word "from" ∧ where_ = .word "where" then
      (readCondition r).map (.within table)
    else none
  | _ => none

def readInside (items : List (Item Inside)) : Inside := ⟨readCondition items, readSubquery items⟩

def readWhere (text : String) : Option Formula := do
  let items ← nest readInside [] [] (← lex text)
  match items with
  | .token t :: r => if t = .word "where" then readCondition r else none
  | _ => none

theorem eval_foldl_and (rows : Rows) (σ : Truth) (f : Formula) (fs : List Formula) :
    (fs.foldl .and f).eval rows σ = (f.eval rows σ && fs.all fun g => g.eval rows σ) := by
  induction fs generalizing f with
  | nil => simp
  | cons g r ih => rw [List.foldl_cons, ih, Formula.eval, List.all_cons, Bool.and_assoc]

theorem eval_foldl_or (rows : Rows) (σ : Truth) (f : Formula) (fs : List Formula) :
    (fs.foldl .or f).eval rows σ = (f.eval rows σ || fs.any fun g => g.eval rows σ) := by
  induction fs generalizing f with
  | nil => simp
  | cons g r ih => rw [List.foldl_cons, ih, Formula.eval, List.any_cons, Bool.or_assoc]

theorem mapM_of_each {β γ : Type} {read : β → Option γ} (parts : List (β × γ))
    (each : ∀ part ∈ parts, read part.1 = some part.2) : (parts.map (·.1)).mapM read = some (parts.map (·.2)) := by
  induction parts with
  | nil => rfl
  | cons part r ih =>
    rw [List.map_cons, List.mapM_cons, each part List.mem_cons_self,
      ih fun p member => each p (List.mem_cons_of_mem _ member)]
    rfl

theorem readCondition_and (parts : List (List (Item Inside) × Formula)) (filled : parts ≠ [])
    (whole : ∀ part ∈ parts, Unbroken part.1) (each : ∀ part ∈ parts, readPredicate part.1 = some part.2) :
    ∃ f, readCondition (List.intercalate [.token (.word "and")] (parts.map (·.1))) = some f ∧
      ∀ rows σ, f.eval rows σ = (parts.map (·.2.eval rows σ)).all id := by
  obtain ⟨first, r, rfl⟩ := List.exists_cons_of_ne_nil filled
  have unbroken : ∀ p ∈ (first :: r).map (·.1), Unbroken p := by
    intro p member
    obtain ⟨part, inside, rfl⟩ := List.mem_map.mp member
    exact whole part inside
  have conjunction := conjuncts_intercalate _ (by simp) unbroken
  have here : (Item.token (.word "and") : Item Inside).isWord "or" = false := rfl
  have disjunction := disjuncts_alone _ (forall_mem_intercalate _ here fun p member => (unbroken p member).disjunct)
  refine ⟨(r.map (·.2)).foldl .and first.2, ?_, fun rows σ => ?_⟩
  · have read : readConjunction (List.intercalate [.token (.word "and")] ((first :: r).map (·.1))) =
        some ((r.map (·.2)).foldl .and first.2) := by
      rw [readConjunction, conjunction, mapM_of_each _ each]; rfl
    rw [readCondition, disjunction, List.mapM_cons, read]
    rfl
  · rw [eval_foldl_and, List.all_map, List.all_map, List.all_cons]
    rfl

theorem readCondition_or (parts : List (List (Item Inside) × Formula)) (filled : parts ≠ [])
    (whole : ∀ part ∈ parts, Unbroken part.1) (each : ∀ part ∈ parts, readPredicate part.1 = some part.2) :
    ∃ f, readCondition (List.intercalate [.token (.word "or")] (parts.map (·.1))) = some f ∧
      ∀ rows σ, f.eval rows σ = (parts.map (·.2.eval rows σ)).any id := by
  obtain ⟨first, r, rfl⟩ := List.exists_cons_of_ne_nil filled
  have free : ∀ p ∈ (first :: r).map (·.1), ∀ i ∈ p, i.isWord "or" = false := by
    intro p member
    obtain ⟨part, inside, rfl⟩ := List.mem_map.mp member
    exact (whole part inside).disjunct
  have single : ∀ part ∈ first :: r, readConjunction part.1 = some part.2 := by
    intro part member
    simp only [readConjunction, (whole part member).alone, List.mapM_cons, List.mapM_nil, each part member]
    rfl
  refine ⟨(r.map (·.2)).foldl .or first.2, ?_, fun rows σ => ?_⟩
  · unfold readCondition
    rw [disjuncts_intercalate _ (by simp) free, mapM_of_each _ single]
    rfl
  · rw [eval_foldl_or, List.any_map, List.any_map, List.any_cons]
    rfl

end QueryKit.Lexer
