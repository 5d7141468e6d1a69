import QueryKit.Proofs.Nesting

-- A statement cut at the words that open its clauses. Only words outside of every parenthesis count;
-- what stands inside one is left alone, whatever it holds.

namespace QueryKit.Lexer

def deepen (depth : Nat) (t : Token) : Nat :=
  if t = .mark "(" then depth + 1 else if t = .mark ")" then depth - 1 else depth

-- The tokens in front of the first clause, and the clauses, each with the word that opens it.
def cut (depth : Nat) : List Token → List Token × List (Token × List Token)
  | [] => ([], [])
  | t :: r =>
    let (body, clauses) := cut (deepen depth t) r
    if depth = 0 ∧ t.opensClause then ([], (t, body) :: clauses) else (t :: body, clauses)

def Together (depth : Nat) (ts : List Token) : Prop :=
  ∀ r, cut depth (ts ++ r) = (ts ++ (cut depth r).1, (cut depth r).2)

theorem together_nil (depth : Nat) : Together depth [] := fun _ => rfl

theorem Together.append {depth : Nat} {ts us : List Token} (left : Together depth ts) (right : Together depth us) :
    Together depth (ts ++ us) := by
  intro r
  rw [List.append_assoc, left, right]
  simp only [List.append_assoc]

theorem together_token {depth : Nat} {t : Token} (plain : t.isParenthesis = false)
    (inside : depth ≠ 0 ∨ t.opensClause = false) : Together depth [t] := by
  simp only [Token.isParenthesis, Bool.or_eq_false_iff, beq_eq_false_iff_ne] at plain
  have level : deepen depth t = depth := by simp [deepen, plain]
  have uncut : ¬(depth = 0 ∧ t.opensClause = true) := by
    rintro ⟨outside, opens⟩
    rcases inside with deep | free
    · exact deep outside
    · rw [free] at opens
      cases opens
  intro r
  rw [List.singleton_append, cut, level]
  simp only [if_neg uncut, List.singleton_append]

theorem Together.enclosed {depth : Nat} {ts : List Token} (inner : Together (depth + 1) ts) :
    Together depth (.mark "(" :: ts ++ [.mark ")"]) := by
  intro r
  have opens : deepen depth (.mark "(") = depth + 1 := rfl
  have closes : deepen (depth + 1) (.mark ")") = depth := rfl
  have mark (symbol : String) (depth : Nat) : ¬(depth = 0 ∧ (Token.mark symbol).opensClause = true) := by
    rintro ⟨_, opens⟩
    cases opens
  simp only [List.cons_append, List.append_assoc]
  rw [cut, opens, inner, cut, closes]
  simp only [if_neg (mark _ _), List.nil_append]

section
variable {α : Type} {make : List (Item α) → α}

theorem Nests.together_inside {ts : List Token} {items : List (Item α)} (nests : Nests make ts items) (depth : Nat) :
    Together (depth + 1) ts := by
  induction nests generalizing depth with
  | nil => exact together_nil _
  | token plain rest ih => exact (together_token plain (.inl (Nat.succ_ne_zero _))).append (ih depth)
  | @group ts r inner items inside rest first second =>
    have whole := (first (depth + 1)).enclosed.append (second depth)
    simpa only [List.cons_append, List.append_assoc, List.singleton_append, List.nil_append] using whole

theorem Nests.together {ts : List Token} {items : List (Item α)} (nests : Nests make ts items)
    (free : ∀ i ∈ items, i.opensClause = false) : Together 0 ts := by
  induction nests with
  | nil => exact together_nil 0
  | @token t r items plain rest ih =>
    obtain ⟨here, later⟩ := List.forall_mem_cons.mp free
    exact (together_token plain (.inr here)).append (ih later)
  | @group ts r inner items inside rest first second =>
    obtain ⟨_, later⟩ := List.forall_mem_cons.mp free
    have whole := (inside.together_inside 0).enclosed.append (second later)
    simpa only [List.cons_append, List.append_assoc, List.singleton_append, List.nil_append] using whole

end

theorem cut_clauses (clauses : List (Token × List Token)) (each : ∀ c ∈ clauses, c.1.opensClause = true)
    (bodies : ∀ c ∈ clauses, Together 0 c.2) : cut 0 (clauses.flatMap fun c => c.1 :: c.2) = ([], clauses) := by
  induction clauses with
  | nil => rfl
  | cons c r ih =>
    obtain ⟨opens, others⟩ := List.forall_mem_cons.mp each
    obtain ⟨body, behind⟩ := List.forall_mem_cons.mp bodies
    obtain ⟨t, ts⟩ := c
    have level : deepen 0 t = 0 := by
      match t, opens with
      | .word w, _ => rfl
    rw [List.flatMap_cons, List.cons_append, cut, level, body, ih others behind]
    simp [opens]

end QueryKit.Lexer
