import Mathlib.Data.List.Forall2
import QueryKit.Proofs.Predicates

-- Conditions side by side. AND binds tighter than OR: between two conditions it takes the last part of the
-- one and the first part of the other, and leaves the rest of both as they are.

namespace QueryKit.Lexer

section
variable {α : Type}

def leavesOpen (between : Bool) : List (Item α) → Bool
  | [] => between
  | i :: r => leavesOpen (i.isWord "between" || between && !i.isWord "and") r

theorem leavesOpen_append (between : Bool) (x y : List (Item α)) :
    leavesOpen between (x ++ y) = leavesOpen (leavesOpen between x) y := by
  induction x generalizing between with
  | nil => rfl
  | cons i r ih => exact ih _

theorem between_of_and {i : Item α} (word : i.isWord "and" = true) : i.isWord "between" = false := by
  cases i with
  | token t =>
    simp only [Item.isWord, beq_iff_eq] at word
    rw [word]
    rfl
  | group ts inside => cases word

theorem conjuncts_and (x y : List (Item α)) (between : Bool) (part : List (Item α))
    (closed : leavesOpen between x = false) :
    conjuncts between part (x ++ .token (.word "and") :: y) = conjuncts between part x ++ conjuncts false [] y := by
  induction x generalizing between part with
  | nil =>
    cases (closed : between = false)
    rfl
  | cons i r ih =>
    rw [List.cons_append, conjuncts, conjuncts]
    rw [leavesOpen] at closed
    split
    · rename_i breaks
      simp only [Bool.and_eq_true, Bool.not_eq_true'] at breaks
      rw [between_of_and breaks.1, breaks.2] at closed
      rw [ih false [] closed, List.cons_append]
    · exact ih _ _ closed

theorem conjuncts_ne_nil (between : Bool) (part items : List (Item α)) : conjuncts between part items ≠ [] := by
  induction items generalizing between part with
  | nil => simp [conjuncts]
  | cons i r ih =>
    rw [conjuncts]
    split
    · simp
    · exact ih _ _

theorem conjuncts_open (x : List (Item α)) (between : Bool) (part : List (Item α))
    (opened : leavesOpen between x = true) :
    (conjuncts between part (x ++ [.token (.word "and")])).getLast? ≠ some [] := by
  induction x generalizing between part with
  | nil =>
    cases (opened : between = true)
    have last : conjuncts true part [.token (.word "and")] = [part ++ [.token (.word "and")]] := rfl
    simp [last]
  | cons i r ih =>
    rw [leavesOpen] at opened
    rw [List.cons_append, conjuncts]
    split
    · rename_i breaks
      simp only [Bool.and_eq_true, Bool.not_eq_true'] at breaks
      rw [between_of_and breaks.1, breaks.2] at opened
      have rest := ih false [] opened
      rwa [List.getLast?_cons_of_ne_nil (conjuncts_ne_nil _ _ _)]
    · exact ih _ _ opened

theorem Unbroken.closed {items : List (Item α)} (unbroken : Unbroken items) : leavesOpen false items = false := by
  by_contra opened
  rw [Bool.not_eq_false] at opened
  have whole := unbroken.conjunct [] [.token (.word "and")]
  have last : conjuncts false ([] ++ items) [.token (.word "and")] = [items, []] := rfl
  have other := conjuncts_open items false [] opened
  rw [whole, last] at other
  exact other rfl

theorem disjuncts_behind (part items : List (Item α)) :
    ∃ front last, ∀ r, disjuncts part (items ++ r) = front ++ disjuncts last r := by
  induction items generalizing part with
  | nil => exact ⟨[], part, fun _ => rfl⟩
  | cons i r ih =>
    cases breaks : i.isWord "or" with
    | true =>
      obtain ⟨front, last, behind⟩ := ih []
      refine ⟨part :: front, last, fun rest => ?_⟩
      rw [List.cons_append, disjuncts, breaks, if_pos rfl, behind, List.cons_append]
    | false =>
      obtain ⟨front, last, behind⟩ := ih (part ++ [i])
      refine ⟨front, last, fun rest => ?_⟩
      rw [List.cons_append, disjuncts, breaks, if_neg (by simp), behind]

theorem disjuncts_before (items : List (Item α)) :
    ∃ first rest, ∀ part, disjuncts part items = (part ++ first) :: rest := by
  induction items with
  | nil => exact ⟨[], [], fun part => by rw [disjuncts, List.append_nil]⟩
  | cons i r ih =>
    cases breaks : i.isWord "or" with
    | true => exact ⟨[], disjuncts [] r, fun part => by rw [disjuncts, breaks, if_pos rfl, List.append_nil]⟩
    | false =>
      obtain ⟨first, rest, before⟩ := ih
      refine ⟨i :: first, rest, fun part => ?_⟩
      rw [disjuncts, breaks, if_neg (by simp), before, List.append_assoc, List.singleton_append]

end

section
variable {α β : Type} {rel : α → β → Prop} {read : α → Option β}

theorem forall₂_append {as bs : List α} {cs : List β} (each : List.Forall₂ rel (as ++ bs) cs) :
    ∃ front back, cs = front ++ back ∧ List.Forall₂ rel as front ∧ List.Forall₂ rel bs back := by
  induction as generalizing cs with
  | nil => exact ⟨[], cs, rfl, .nil, each⟩
  | cons a r ih =>
    cases each with
    | cons first rest =>
      obtain ⟨front, back, rfl, left, right⟩ := ih rest
      exact ⟨_ :: front, back, rfl, .cons first left, right⟩

theorem mapM_of_forall₂ {as : List α} {bs : List β} (each : List.Forall₂ (fun a b => read a = some b) as bs) :
    as.mapM read = some bs := by
  induction each with
  | nil => rfl
  | cons first rest ih =>
    rw [List.mapM_cons, first, ih]
    rfl

theorem forall₂_of_mapM {as : List α} {bs : List β} (all : as.mapM read = some bs) :
    List.Forall₂ (fun a b => read a = some b) as bs := by
  induction as generalizing bs with
  | nil =>
    cases all
    exact .nil
  | cons a r ih =>
    rw [List.mapM_cons] at all
    cases here : read a with
    | none => rw [here] at all; cases all
    | some b =>
      cases rest : r.mapM read with
      | none => rw [here, rest] at all; cases all
      | some cs =>
        rw [here, rest] at all
        cases all
        exact .cons here (ih rest)

end

theorem eval_chain_and {fs : List Formula} {f : Formula} (chained : chain .and fs = some f) (rows : Rows) (σ : Truth) :
    f.eval rows σ = fs.all fun g => g.eval rows σ := by
  cases fs with
  | nil => cases chained
  | cons g r =>
    cases chained
    rw [eval_foldl_and, List.all_cons]

theorem eval_chain_or {fs : List Formula} {f : Formula} (chained : chain .or fs = some f) (rows : Rows) (σ : Truth) :
    f.eval rows σ = fs.any fun g => g.eval rows σ := by
  cases fs with
  | nil => cases chained
  | cons g r =>
    cases chained
    rw [eval_foldl_or, List.any_cons]

structure Conjoins (items : List (Item Inside)) (f : Formula) : Prop where
  read : readConjunction items = some f
  closed : leavesOpen false items = false

theorem Conjoins.and {x y : List (Item Inside)} {f g : Formula} (left : Conjoins x f) (right : Conjoins y g) :
    ∃ h, Conjoins (x ++ .token (.word "and") :: y) h ∧ ∀ rows σ, h.eval rows σ = (f.eval rows σ && g.eval rows σ) := by
  obtain ⟨fs, first, chained⟩ := Option.bind_eq_some_iff.mp left.read
  obtain ⟨gs, second, linked⟩ := Option.bind_eq_some_iff.mp right.read
  have parts : (conjuncts false [] (x ++ .token (.word "and") :: y)).mapM readPredicate = some (fs ++ gs) := by
    rw [conjuncts_and x y false [] left.closed, List.mapM_append, first, second]
    rfl
  obtain ⟨h, whole⟩ : ∃ h, chain .and (fs ++ gs) = some h := by
    cases fs with
    | nil => cases chained
    | cons a r => exact ⟨_, rfl⟩
  refine ⟨h, ⟨?_, ?_⟩, ?_⟩
  · rw [readConjunction, parts]
    exact whole
  · rw [leavesOpen_append, left.closed]
    exact right.closed
  · intro rows σ
    rw [eval_chain_and whole, List.all_append, ← eval_chain_and chained, ← eval_chain_and linked]

def Disjoins (items : List (Item Inside)) (fs : List Formula) : Prop := List.Forall₂ Conjoins (disjuncts [] items) fs

theorem disjoins_predicate {items : List (Item Inside)} {f : Formula} (unbroken : Unbroken items)
    (read : readPredicate items = some f) : Disjoins items [f] := by
  have single : readConjunction items = some f := by
    rw [readConjunction, unbroken.alone, List.mapM_cons, read]
    rfl
  rw [Disjoins, disjuncts_alone items unbroken.disjunct]
  exact .cons ⟨single, unbroken.closed⟩ .nil

theorem Disjoins.condition {items : List (Item Inside)} {fs : List Formula} (disjoins : Disjoins items fs) :
    ∃ f, readCondition items = some f ∧ ∀ rows σ, f.eval rows σ = fs.any fun g => g.eval rows σ := by
  have read := mapM_of_forall₂ (disjoins.imp fun _ _ conjoins => conjoins.read)
  obtain ⟨first, rest, before⟩ := disjuncts_before items
  obtain ⟨f, chained⟩ : ∃ f, chain .or fs = some f := by
    unfold Disjoins at disjoins
    rw [before []] at disjoins
    cases disjoins
    exact ⟨_, rfl⟩
  refine ⟨f, ?_, eval_chain_or chained⟩
  rw [readCondition, read]
  exact chained

def bound : List Bool → List Bool → List Bool
  | [], bs => bs
  | [a], b :: bs => (a && b) :: bs
  | a :: as, bs => a :: bound as bs

theorem bound_append (as : List Bool) (a b : Bool) (bs : List Bool) :
    bound (as ++ [a]) (b :: bs) = as ++ (a && b) :: bs := by
  induction as with
  | nil => rfl
  | cons c r ih =>
    cases r with
    | nil => rfl
    | cons d r => exact congrArg (c :: ·) ih

theorem Disjoins.and {a b : List (Item Inside)} {fs gs : List Formula} (left : Disjoins a fs) (right : Disjoins b gs) :
    ∃ hs, Disjoins (a ++ .token (.word "and") :: b) hs ∧
      ∀ rows σ, hs.map (·.eval rows σ) = bound (fs.map (·.eval rows σ)) (gs.map (·.eval rows σ)) := by
  obtain ⟨front, last, behind⟩ := disjuncts_behind [] a
  obtain ⟨first, rest, before⟩ := disjuncts_before b
  have parts : disjuncts [] a = front ++ [last] := by
    have whole := behind []
    rwa [List.append_nil] at whole
  have conjunction : disjuncts [] (a ++ .token (.word "and") :: b) =
      front ++ (last ++ .token (.word "and") :: first) :: rest := by
    have goesOn : disjuncts last (.token (.word "and") :: b) = disjuncts (last ++ [.token (.word "and")]) b := rfl
    rw [behind, goesOn, before, List.append_assoc, List.singleton_append]
  unfold Disjoins at left right ⊢
  rw [parts] at left
  rw [before [], List.nil_append] at right
  obtain ⟨fs, ends, rfl, fronts, lasts⟩ := forall₂_append left
  obtain ⟨f, rfl, here⟩ : ∃ f, ends = [f] ∧ Conjoins last f := by
    cases lasts with
    | cons here none =>
      cases none
      exact ⟨_, rfl, here⟩
  cases right with
  | @cons _ g _ gs there rests =>
    obtain ⟨h, conjoins, both⟩ := here.and there
    refine ⟨fs ++ h :: gs, ?_, ?_⟩
    · rw [conjunction]
      exact List.rel_append fronts (.cons conjoins rests)
    · intro rows σ
      simp only [List.map_append, List.map_cons, List.map_nil, bound_append, both]

section
variable {α : Type} {make : List (Item α) → α}

-- What is still to come when the items so far are read: with no group open, items of its own, and otherwise
-- the end of the innermost group first.
def Remains (make : List (Item α) → α) (items whole : List (Item α)) (ts : List Token) : List (List (Item α)) → Prop
  | [] => ∃ more, Nests make ts more ∧ whole = items ++ more
  | before :: outer => ∃ us vs more, ts = us ++ .mark ")" :: vs ∧ Nests make us more ∧
      nest make outer (before ++ [enclose make (items ++ more)]) vs = some whole

-- By induction on the length: a group that opens is read to its end first, and then what is behind it.
theorem remains_of_nest (outer : List (List (Item α))) (items whole : List (Item α)) (ts : List Token)
    (read : nest make outer items ts = some whole) : Remains make items whole ts outer := by
  match ts, read with
  | [], read =>
    cases outer with
    | nil =>
      cases read
      exact ⟨[], .nil, (List.append_nil items).symm⟩
    | cons before outer => cases read
  | t :: r, read =>
    rw [nest] at read
    by_cases opens : t = .mark "("
    · subst opens
      rw [if_pos rfl] at read
      obtain ⟨us, vs, inner, rfl, inside, behind⟩ := remains_of_nest (items :: outer) [] whole r read
      have rest := remains_of_nest outer _ whole vs behind
      cases outer with
      | nil =>
        obtain ⟨more, nests, rfl⟩ := rest
        exact ⟨enclose make inner :: more, by simpa using Nests.group inside nests, by simp⟩
      | cons before outer =>
        obtain ⟨ws, zs, more, rfl, nests, closes⟩ := rest
        refine ⟨.mark "(" :: us ++ .mark ")" :: ws, zs, enclose make inner :: more, by simp, .group inside nests, ?_⟩
        simpa using closes
    rw [if_neg opens] at read
    by_cases closes : t = .mark ")"
    · subst closes
      rw [if_pos rfl] at read
      cases outer with
      | nil => cases read
      | cons before outer => exact ⟨[], r, [], rfl, .nil, by simpa using read⟩
    · rw [if_neg closes] at read
      have plain : t.isParenthesis = false := by simp [Token.isParenthesis, opens, closes]
      have rest := remains_of_nest outer _ whole r read
      cases outer with
      | nil =>
        obtain ⟨more, nests, rfl⟩ := rest
        exact ⟨.token t :: more, .token plain nests, by simp⟩
      | cons before outer =>
        obtain ⟨us, vs, more, rfl, nests, closes⟩ := rest
        exact ⟨t :: us, vs, .token t :: more, rfl, .token plain nests, by simpa using closes⟩
termination_by ts.length
decreasing_by all_goals grind

theorem nests_of_nest {ts : List Token} {items : List (Item α)} (read : nest make [] [] ts = some items) :
    Nests make ts items := by
  obtain ⟨more, nests, rfl⟩ := remains_of_nest [] [] items ts read
  exact nests

end

-- A text of conditions with OR between them: they are read by themselves, and none leaves a BETWEEN open.
def readDisjuncts (text : String) : Option (List Formula) := do
  let items ← nest readInside [] [] (← lex text)
  if (disjuncts [] items).all fun part => !leavesOpen false part then (disjuncts [] items).mapM readConjunction else none

theorem disjoins_read {text : String} {fs : List Formula} (read : readDisjuncts text = some fs) :
    ∃ ts items, lex text = some ts ∧ Nests readInside ts items ∧ Disjoins items fs := by
  obtain ⟨ts, split, read⟩ := Option.bind_eq_some_iff.mp read
  obtain ⟨items, nested, read⟩ := Option.bind_eq_some_iff.mp read
  by_cases closed : ((disjuncts [] items).all fun part => !leavesOpen false part) = true
  · rw [if_pos closed] at read
    refine ⟨ts, items, split, nests_of_nest nested, ?_⟩
    have conjunctions := List.forall₂_iff_zip.mp (forall₂_of_mapM read)
    refine List.forall₂_iff_zip.mpr ⟨conjunctions.1, ?_⟩
    intro part f member
    have here := List.all_eq_true.mp closed part (List.of_mem_zip member).1
    exact ⟨conjunctions.2 member, by simpa using here⟩
  · rw [if_neg closed] at read
    cases read

end QueryKit.Lexer
