import Mathlib.Data.List.Forall2
import QueryKit.Proofs.FilterMeaning

-- Filters with text of a caller's own in them. Such a text is split by itself as long as it leaves nothing
-- open behind it, and then so is the clause it stands in, whatever the text holds.

namespace QueryKit

namespace Lexer

def Mode.isComment : Mode → Bool
  | .lineComment | .gapComment .. => true
  | _ => false

structure Whole (cs : List Char) (ts : List Token) : Prop where
  tokens : lexFrom .ground cs = some ts
  closed : (Mode.ground.scan cs).2.isComment = false

def isWhole (cs : List Char) : Bool :=
  (Mode.ground.scan cs).2.flush.isSome && !(Mode.ground.scan cs).2.isComment

theorem whole_of_isWhole {s : String} (whole : isWhole s.toList = true) : Whole s.toList ((lex s).getD []) := by
  simp only [isWhole, Bool.and_eq_true, Bool.not_eq_true'] at whole
  obtain ⟨last, ended⟩ := Option.isSome_iff_exists.mp whole.1
  refine ⟨?_, whole.2⟩
  simp [lex, lexFrom, ended]

theorem Splits.whole {cs : List Char} {ts : List Token} (splits : Splits cs ts) : Whole cs ts := by
  refine ⟨splits.tokens, ?_⟩
  have rests := splits.rests
  cases mode : (Mode.ground.scan cs).2 <;> simp_all [Mode.rests, Mode.isComment]

theorem Whole.scanned {cs : List Char} {ts : List Token} (whole : Whole cs ts) :
    ∃ last, (Mode.ground.scan cs).2.flush = some last ∧ ts = (Mode.ground.scan cs).1 ++ last := by
  have read := whole.tokens
  rw [lexFrom, Option.map_eq_some_iff] at read
  obtain ⟨last, ended, rfl⟩ := read
  exact ⟨last, ended, rfl⟩

-- What may stand behind any whole text: a parenthesis, or a blank and then a word.
def resumes : List Char → Bool
  | [] => false
  | [c] => isSeparator c
  | c :: d :: _ => isSeparator c || (c == ' ' && d.isAlpha)

theorem resumes_append (a b : List Char) (ends : resumes a = true) : resumes (a ++ b) = true := by
  match a with
  | [] => cases ends
  | [c] => cases b <;> simp_all [resumes]
  | c :: d :: r => exact ends

theorem ended_separator {m : Mode} {last : List Token} (ended : m.flush = some last) (closed : m.isComment = false)
    {c : Char} (separator : isSeparator c = true) : m.extend? c = none := by
  simp only [isSeparator, Bool.or_eq_true, beq_iff_eq, or_assoc] at separator
  rcases separator with rfl | rfl | rfl <;> cases m with
  | ground => rfl
  | unicode | colon => rfl
  | point => simp [Mode.extend?]
  | exponent read => simp [Mode.extend?, isSign]; decide
  | word read | number read | fraction read | operator read | gapDash o read | parameter read =>
    simp [Mode.extend?]; decide
  | closed o read => cases o <;> rfl
  | gap o read newline => cases o <;> rfl
  | lineComment | gapComment => cases closed
  | _ => cases ended

-- A blank is refused, or it is the one behind a string, where no word goes on.
theorem ended_blank {m : Mode} {last : List Token} (ended : m.flush = some last) (closed : m.isComment = false) :
    m.extend? ' ' = none ∨
      ∃ o read newline, m.extend? ' ' = some ([], .gap o read newline) ∧ (Mode.gap o read newline).flush = some last := by
  cases m with
  | ground => exact .inl rfl
  | unicode | colon => exact .inl rfl
  | point => left; simp [Mode.extend?]
  | exponent read => left; simp [Mode.extend?, isSign]; decide
  | word read | number read | fraction read | operator read | gapDash o read | parameter read =>
    left; simp [Mode.extend?]; decide
  | closed o read =>
    cases o <;> first | exact .inl rfl | exact .inr ⟨_, _, _, rfl, ended⟩
  | gap o read newline => exact .inr ⟨o, read, _, rfl, ended⟩
  | lineComment | gapComment => cases closed
  | _ => cases ended

theorem gap_letter (o : Opening) (read : List Char) (newline : Bool) {d : Char} (letter : d.isAlpha = true) :
    (Mode.gap o read newline).extend? d = none := by
  have solid : isSpace d = false := by
    by_contra blank
    simp only [isSpace, isNewline, Bool.not_eq_false, Bool.or_eq_true, beq_iff_eq, or_assoc] at blank
    rcases blank with rfl | rfl | rfl | rfl | rfl | rfl <;> cases letter
  have inside : d ≠ o.quote := by
    rintro rfl
    cases o <;> cases letter
  have dash : d ≠ '-' := by
    rintro rfl
    cases letter
  simp [Mode.extend?, solid, inside, dash]

theorem scan_resumed {m : Mode} {last : List Token} (ended : m.flush = some last) (closed : m.isComment = false)
    {cs : List Char} (ends : resumes cs = true) :
    m.scan cs = (last ++ (Mode.ground.scan cs).1, (Mode.ground.scan cs).2) := by
  match cs with
  | [] => cases ends
  | [c] => exact scan_refused (ended_separator ended closed ends) ended _
  | c :: d :: r =>
    simp only [resumes, Bool.or_eq_true, Bool.and_eq_true, beq_iff_eq] at ends
    rcases ends with separator | ⟨rfl, letter⟩
    · exact scan_refused (ended_separator ended closed separator) ended _
    rcases ended_blank ended closed with refused | ⟨o, read, newline, taken, waits⟩
    · exact scan_refused refused ended _
    · have behind : m.step ' ' = ([], .gap o read newline) := by simp only [Mode.step, taken]
      rw [Mode.scan, behind, scan_refused (gap_letter o read newline letter) waits]
      rfl

theorem Whole.append {a b : List Char} {ts us : List Token} (left : Whole a ts) (right : Whole b us)
    (apart : (Mode.ground.scan a).2 = .ground ∨ resumes b = true) : Whole (a ++ b) (ts ++ us) := by
  obtain ⟨last, ended, rfl⟩ := left.scanned
  obtain ⟨final, closes, rfl⟩ := right.scanned
  have behind : (Mode.ground.scan a).2.scan b = (last ++ (Mode.ground.scan b).1, (Mode.ground.scan b).2) := by
    rcases apart with complete | ends
    · rw [complete] at ended ⊢
      cases Option.some.inj ended
      simp
    · exact scan_resumed ended left.closed ends
  have whole : Mode.ground.scan (a ++ b) =
      ((Mode.ground.scan a).1 ++ last ++ (Mode.ground.scan b).1, (Mode.ground.scan b).2) := by
    rw [Mode.scan_append, behind, List.append_assoc]
  refine ⟨?_, ?_⟩
  · simp [lexFrom, whole, closes]
  · rw [whole]
    exact right.closed

-- A word of a clause, read by itself: it is complete with its last character.
structure Glue (w : String) (ws : List Token) : Prop where
  complete : (Mode.ground.scan w.toList).2 = .ground
  tokens : lex w = some ws

theorem Glue.whole {w : String} {ws : List Token} (glue : Glue w ws) : Whole w.toList ws :=
  ⟨glue.tokens, by rw [glue.complete]; rfl⟩

theorem glue_and : Glue " AND " [.word "and"] := ⟨rfl, rfl⟩

theorem glue_close : Glue ")" [.mark ")"] := ⟨rfl, rfl⟩

end Lexer

open Lexer

-- A statement that can be written, and the tokens it is split into.
structure Sql.Spells (zone : Zone) (sql : Sql) (ts : List Token) : Prop where
  whole : Whole (Sql.chars zone sql) ts
  fits : Sql.Fits zone sql

namespace Sql
variable {zone : Zone} {a b : Sql} {ts us ws : List Token} {w : String}

theorem Tight.spells (tight : Tight zone a) (fits : Fits zone a) : Spells zone a (tokens zone a) :=
  ⟨tight.splits.whole, fits⟩

theorem Spells.rendered (spells : Spells zone a ts) : ∃ text, a.render zone = .ok text ∧ lex text = some ts := by
  refine ⟨a.text zone, ?_, ?_⟩
  · rw [render, if_pos (List.all_eq_true.mpr spells.fits)]
  · rw [lex, toList_text]
    exact spells.whole.tokens

theorem chars_word (w : String) (a : Sql) : chars zone (.word w :: a) = w.toList ++ chars zone a := rfl

theorem Spells.opened (glue : Glue w ws) (spells : Spells zone a ts) : Spells zone (.word w :: a) (ws ++ ts) :=
  ⟨glue.whole.append spells.whole (.inl glue.complete), List.forall_mem_cons.mpr ⟨rfl, spells.fits⟩⟩

theorem Spells.closed (glue : Glue w ws) (ends : resumes w.toList = true) (spells : Spells zone a ts) :
    Spells zone (a ++ [.word w]) (ts ++ ws) := by
  refine ⟨?_, List.forall_mem_append.mpr ⟨spells.fits, List.forall_mem_singleton.mpr rfl⟩⟩
  rw [chars_append, chars_word, show chars zone [] = [] from rfl, List.append_nil]
  exact spells.whole.append glue.whole (.inr ends)

theorem Spells.glue (glue : Glue w ws) (ends : resumes w.toList = true) (left : Spells zone a ts)
    (right : Spells zone b us) : Spells zone (a ++ .word w :: b) (ts ++ (ws ++ us)) := by
  have behind := right.opened glue
  refine ⟨?_, List.forall_mem_append.mpr ⟨left.fits, behind.fits⟩⟩
  rw [chars_append]
  refine left.whole.append behind.whole (.inr ?_)
  rw [chars_word]
  exact resumes_append _ _ ends

theorem Spells.separated (glue : Glue w ws) (ends : resumes w.toList = true) {parts : List Sql}
    {tokens : List (List Token)} (each : List.Forall₂ (Spells zone) parts tokens) :
    Spells zone (Sql.separated w parts) (List.intercalate ws tokens) := by
  induction each with
  | nil => exact ⟨⟨rfl, rfl⟩, by simp [Fits, Sql.separated]⟩
  | cons first rest ih =>
    cases rest with
    | nil => rwa [separated_singleton, List.intercalate_singleton]
    | cons next more =>
      rw [separated_cons_cons, List.intercalate_cons_cons, List.append_assoc]
      exact first.glue glue ends ih

end Sql

-- What the tests of a filter and all that is made of them come to.
structure Interpretation (α : Type) where
  test : List String → Test → α
  all : List α → α
  combine : Combinator → List α → α
  link : String → String × String → α
  within : String → α → α

namespace Interpretation
variable {α : Type} (I : Interpretation α)

def joined? (parts : List α) : Option α := if parts.isEmpty then none else some (I.all parts)

section
variable (table : Option String)

mutual
def tree? : Conditions → Option α
  | .node combinators columns =>
    I.joined? (combined combinators ++ columns.map fun (column, test) => I.test (columnPath table column) test)
def combined : List (Combinator × List Conditions) → List α
  | [] => []
  | (op, groups) :: r =>
    match nested groups with
    | [] => combined r
    | parts => I.combine op parts :: combined r
def nested : List Conditions → List α
  | [] => []
  | c :: r =>
    match tree? c with
    | some part => part :: nested r
    | none => nested r
end

end

def subquery (q : Subquery) (c : Conditions) : α :=
  I.within q.table (I.all (q.link.pairs.map (I.link q.outerAlias) ++ (I.tree? none c).toList))

def group? (qualified : Bool) (g : Group) : Option α :=
  match g.subquery with
  | some q => some (I.subquery q g.conditions)
  | none => I.tree? (if qualified then g.table else none) g.conditions

end Interpretation

-- The tests of a tree in the order in which they are written, each behind its column.
mutual
def Conditions.leaves (table : Option String) : Conditions → List (List String × Test)
  | .node combinators columns =>
    Conditions.combinedLeaves table combinators ++ columns.map fun (column, test) => (columnPath table column, test)
def Conditions.combinedLeaves (table : Option String) : List (Combinator × List Conditions) → List (List String × Test)
  | [] => []
  | (_, groups) :: r => Conditions.nestedLeaves table groups ++ Conditions.combinedLeaves table r
def Conditions.nestedLeaves (table : Option String) : List Conditions → List (List String × Test)
  | [] => []
  | c :: r => Conditions.leaves table c ++ Conditions.nestedLeaves table r
end

def Group.leaves (qualified : Bool) (g : Group) : List (List String × Test) :=
  g.conditions.leaves (if g.subquery.isNone && qualified then g.table else none)

theorem columnPath_named (table : Option String) (column : String) : ∃ s r, columnPath table column = s :: r := by
  cases table <;> exact ⟨_, _, rfl⟩

mutual
theorem Conditions.leaf_named (table : Option String) : ∀ c : Conditions, ∀ leaf ∈ c.leaves table, ∃ s r, leaf.1 = s :: r
  | .node combinators columns => by
    rw [Conditions.leaves, List.forall_mem_append, List.forall_mem_map]
    exact ⟨combinedLeaf_named table combinators, fun entry _ => columnPath_named table entry.1⟩
theorem Conditions.combinedLeaf_named (table : Option String) : ∀ combinators : List (Combinator × List Conditions),
    ∀ leaf ∈ Conditions.combinedLeaves table combinators, ∃ s r, leaf.1 = s :: r
  | [] => by simp [Conditions.combinedLeaves]
  | (_, groups) :: r => by
    rw [Conditions.combinedLeaves, List.forall_mem_append]
    exact ⟨nestedLeaf_named table groups, combinedLeaf_named table r⟩
theorem Conditions.nestedLeaf_named (table : Option String) : ∀ groups : List Conditions,
    ∀ leaf ∈ Conditions.nestedLeaves table groups, ∃ s r, leaf.1 = s :: r
  | [] => by simp [Conditions.nestedLeaves]
  | c :: r => by
    rw [Conditions.nestedLeaves, List.forall_mem_append]
    exact ⟨leaf_named table c, nestedLeaf_named table r⟩
end

theorem Group.leaf_named {qualified : Bool} {g : Group} {leaf : List String × Test} (inside : leaf ∈ g.leaves qualified) :
    ∃ s r, leaf.1 = s :: r :=
  Conditions.leaf_named _ g.conditions leaf inside

def Group.isTied (g : Group) : Bool := g.subquery.all fun q => !q.link.pairs.isEmpty

def existsSql (table : String) (sql : Sql) : Sql :=
  .word "EXISTS (SELECT * FROM " :: .name [table] :: .word " WHERE " :: sql ++ [.word ")"]

-- An interpretation that follows the text: what holds between the parts and what they come to holds between
-- the text made of them and what that comes to.
structure Interpretation.Follows {α : Type} (I : Interpretation α) (rel : Sql → α → Prop) : Prop where
  all : ∀ parts xs, parts ≠ [] → List.Forall₂ rel parts xs → rel (Sql.separated " AND " parts) (I.all xs)
  combine : ∀ op parts xs, parts ≠ [] → List.Forall₂ rel parts xs → rel (op.sql parts) (I.combine op xs)
  link : ∀ outerAlias link, rel (linkSql outerAlias link) (I.link outerAlias link)
  within : ∀ table sql x, rel sql x → rel (existsSql table sql) (I.within table x)

namespace Interpretation
variable {α : Type} {I : Interpretation α} {rel : Sql → α → Prop}

theorem joined (follows : I.Follows rel) {parts : List Sql} {xs : List α} (each : List.Forall₂ rel parts xs) :
    Option.Rel rel (conjunction? parts) (I.joined? xs) := by
  cases each with
  | nil => exact .none
  | cons first rest => exact .some (follows.all _ _ (by simp) (.cons first rest))

-- By induction on the tree; a tree without tests is left out of the text and of what it comes to alike.
mutual
theorem tree_follows (follows : I.Follows rel) (table : Option String) : ∀ c : Conditions,
    (∀ leaf ∈ c.leaves table, rel (leaf.2.sql leaf.1) (I.test leaf.1 leaf.2)) →
    Option.Rel rel (c.sql? table) (I.tree? table c)
  | .node combinators columns, each => by
    rw [Conditions.leaves, List.forall_mem_append] at each
    have tests : List.Forall₂ rel (columns.map fun (column, test) => test.sql (columnPath table column))
        (columns.map fun (column, test) => I.test (columnPath table column) test) := by
      rw [List.forall₂_map_left_iff, List.forall₂_map_right_iff, List.forall₂_same]
      intro entry member
      exact each.2 _ (List.mem_map_of_mem member)
    rw [Conditions.sql?, tree?]
    exact joined follows (List.rel_append (combined_follows follows table combinators each.1) tests)
theorem combined_follows (follows : I.Follows rel) (table : Option String) :
    ∀ combinators : List (Combinator × List Conditions),
    (∀ leaf ∈ Conditions.combinedLeaves table combinators, rel (leaf.2.sql leaf.1) (I.test leaf.1 leaf.2)) →
    List.Forall₂ rel (Conditions.combinatorParts table combinators) (I.combined table combinators)
  | [], _ => .nil
  | (op, groups) :: r, each => by
    rw [Conditions.combinedLeaves, List.forall_mem_append] at each
    have inner := nested_follows follows table groups each.1
    have rest := combined_follows follows table r each.2
    rw [Conditions.combinatorParts, combined]
    generalize Conditions.nestedParts table groups = parts at inner
    generalize I.nested table groups = xs at inner
    cases inner with
    | nil => exact rest
    | cons first more => exact .cons (follows.combine op _ _ (by simp) (.cons first more)) rest
theorem nested_follows (follows : I.Follows rel) (table : Option String) : ∀ groups : List Conditions,
    (∀ leaf ∈ Conditions.nestedLeaves table groups, rel (leaf.2.sql leaf.1) (I.test leaf.1 leaf.2)) →
    List.Forall₂ rel (Conditions.nestedParts table groups) (I.nested table groups)
  | [], _ => .nil
  | c :: r, each => by
    rw [Conditions.nestedLeaves, List.forall_mem_append] at each
    have here := tree_follows follows table c each.1
    have rest := nested_follows follows table r each.2
    rw [Conditions.nestedParts, nested]
    generalize c.sql? table = sql at here
    generalize I.tree? table c = x at here
    cases here with
    | none => exact rest
    | some first => exact .cons first rest
end

section
variable (follows : I.Follows rel)
include follows

theorem subquery_follows {q : Subquery} (tied : q.link.pairs ≠ []) (c : Conditions)
    (each : ∀ leaf ∈ c.leaves none, rel (leaf.2.sql leaf.1) (I.test leaf.1 leaf.2)) :
    rel (q.sql c) (I.subquery q c) := by
  have links : List.Forall₂ rel (q.link.pairs.map (linkSql q.outerAlias)) (q.link.pairs.map (I.link q.outerAlias)) := by
    rw [List.forall₂_map_left_iff, List.forall₂_map_right_iff, List.forall₂_same]
    intro link _
    exact follows.link q.outerAlias link
  have tree := tree_follows follows none c each
  have parts : List.Forall₂ rel (q.link.pairs.map (linkSql q.outerAlias) ++ (c.sql? none).toList)
      (q.link.pairs.map (I.link q.outerAlias) ++ (I.tree? none c).toList) := by
    refine List.rel_append links ?_
    generalize c.sql? none = sql at tree
    generalize I.tree? none c = x at tree
    cases tree with
    | none => exact .nil
    | some here => exact .cons here .nil
  have written : q.sql c = existsSql q.table
      (Sql.separated " AND " (q.link.pairs.map (linkSql q.outerAlias) ++ (c.sql? none).toList)) := by
    unfold Subquery.sql existsSql
    cases c.sql? none with
    | none =>
      simp only [Option.toList_none, List.append_nil]
      rfl
    | some nested =>
      rw [Option.toList_some, separated_append _ _ _ (by simpa using tied) (by simp), Sql.separated_singleton]
      simp only [List.cons_append, List.append_assoc]
      rfl
  rw [written]
  exact follows.within _ _ _ (follows.all _ _ (by simpa using fun unpaired => absurd unpaired tied) parts)

theorem group_follows (qualified : Bool) {g : Group} (tied : g.isTied = true)
    (each : ∀ leaf ∈ g.leaves qualified, rel (leaf.2.sql leaf.1) (I.test leaf.1 leaf.2)) :
    Option.Rel rel (g.sql? qualified) (I.group? qualified g) := by
  obtain ⟨table, conditions, subquery⟩ := g
  cases subquery with
  | some q => exact .some (subquery_follows follows (by simpa [Group.isTied] using tied) conditions each)
  | none => exact tree_follows follows _ conditions (by simpa [Group.leaves] using each)

theorem groups_follow (qualified : Bool) {groups : List Group} (tied : ∀ g ∈ groups, g.isTied = true)
    (each : ∀ g ∈ groups, ∀ leaf ∈ g.leaves qualified, rel (leaf.2.sql leaf.1) (I.test leaf.1 leaf.2)) :
    List.Forall₂ rel (groups.filterMap (Group.sql? qualified)) (groups.filterMap (I.group? qualified)) := by
  induction groups with
  | nil => exact .nil
  | cons g r ih =>
    rw [List.forall_mem_cons] at tied each
    have here := group_follows follows qualified tied.1 each.1
    have rest := ih tied.2 each.2
    rw [List.filterMap_cons, List.filterMap_cons]
    generalize g.sql? qualified = sql at here
    generalize I.group? qualified g = x at here
    cases here with
    | none => exact rest
    | some first => exact .cons first rest

end

end Interpretation

def Interpretation.collecting {β : Type} (said : List String → Test → List β) : Interpretation (List β) where
  test := said
  all := List.flatten
  combine _ := List.flatten
  link _ _ := []
  within _ xs := xs

namespace Interpretation
variable {β : Type} (said : List String → Test → List β)

theorem getD_joined (parts : List (List β)) : ((collecting said).joined? parts).getD [] = parts.flatten := by
  cases parts <;> rfl

section
variable (table : Option String)

mutual
theorem tree_collecting (c : Conditions) :
    ((collecting said).tree? table c).getD [] = (c.leaves table).flatMap fun leaf => said leaf.1 leaf.2 := by
  cases c with
  | node combinators columns =>
    rw [tree?, getD_joined, List.flatten_append, combined_collecting combinators, Conditions.leaves,
      List.flatMap_append, List.flatMap_map]
    rfl
theorem combined_collecting (combinators : List (Combinator × List Conditions)) :
    ((collecting said).combined table combinators).flatten =
      (Conditions.combinedLeaves table combinators).flatMap fun leaf => said leaf.1 leaf.2 := by
  cases combinators with
  | nil => rfl
  | cons first r =>
    obtain ⟨op, groups⟩ := first
    have rest := combined_collecting r
    rw [Conditions.combinedLeaves, List.flatMap_append, ← nested_collecting groups, ← rest, combined]
    cases (collecting said).nested table groups <;> rfl
theorem nested_collecting (groups : List Conditions) : ((collecting said).nested table groups).flatten =
    (Conditions.nestedLeaves table groups).flatMap fun leaf => said leaf.1 leaf.2 := by
  cases groups with
  | nil => rfl
  | cons c r =>
    have rest := nested_collecting r
    rw [Conditions.nestedLeaves, List.flatMap_append, ← tree_collecting c, ← rest, nested]
    cases (collecting said).tree? table c <;> rfl
end

end

theorem group_collecting (qualified : Bool) (g : Group) :
    ((collecting said).group? qualified g).getD [] = (g.leaves qualified).flatMap fun leaf => said leaf.1 leaf.2 := by
  obtain ⟨table, conditions, subquery⟩ := g
  cases subquery with
  | some q =>
    have tree := tree_collecting said none conditions
    have links : (q.link.pairs.map fun _ => ([] : List β)).flatten = [] := by simp
    show (List.flatten (q.link.pairs.map (fun _ => []) ++ _)) = _
    rw [List.flatten_append, links, List.nil_append]
    show _ = (conditions.leaves none).flatMap _
    rw [← tree]
    cases (collecting said).tree? none conditions with
    | none => rfl
    | some xs => simp
  | none =>
    exact tree_collecting said (if qualified then table else none) conditions

theorem groups_collecting (qualified : Bool) (groups : List Group) :
    (groups.filterMap ((collecting said).group? qualified)).flatten =
      groups.flatMap fun g => (g.leaves qualified).flatMap fun leaf => said leaf.1 leaf.2 := by
  induction groups with
  | nil => rfl
  | cons g r ih =>
    rw [List.flatMap_cons, ← ih, ← group_collecting said qualified g, List.filterMap_cons]
    cases (collecting said).group? qualified g <;> rfl

end Interpretation

-- A test that can be written, and whose text, if it is a caller's own, leaves nothing open.
def Test.isSpliceable (zone : Zone) (path : List String) (test : Test) : Bool :=
  List.all (test.sql path) (Piece.datesFit zone) &&
    (!test.isRaw || isWhole ((test.sql path).text zone).toList)

def Test.tokens (zone : Zone) (path : List String) (test : Test) : List Token :=
  (lex ((test.sql path).text zone)).getD []

theorem Test.tokens_plain (zone : Zone) (s : String) (r : List String) {test : Test} (plain : test.isRaw = false) :
    test.tokens zone (s :: r) = Sql.tokens zone (test.sql (s :: r)) := by
  have tight : Sql.Tight zone (test.sql (s :: r)) := (Test.predicate s r test plain).tight
  rw [tokens, Sql.lex_text tight]
  rfl

theorem Test.spells (zone : Zone) (s : String) (r : List String) {test : Test}
    (spliceable : test.isSpliceable zone (s :: r) = true) :
    Sql.Spells zone (test.sql (s :: r)) (test.tokens zone (s :: r)) := by
  simp only [isSpliceable, Bool.and_eq_true, Bool.or_eq_true, Bool.not_eq_true'] at spliceable
  obtain ⟨fits, plain | whole⟩ := spliceable
  · have tight : Sql.Tight zone (test.sql (s :: r)) := (Test.predicate s r test plain).tight
    rw [tokens_plain zone s r plain]
    exact tight.spells (List.all_eq_true.mp fits)
  · have splits := whole_of_isWhole whole
    rw [Sql.toList_text] at splits
    exact ⟨splits, List.all_eq_true.mp fits⟩

theorem spells_link (zone : Zone) (outerAlias : String) (link : String × String) :
    Sql.Spells zone (linkSql outerAlias link) (Sql.tokens zone (linkSql outerAlias link)) := by
  have tight : Sql.Tight zone (linkSql outerAlias link) := (predicate_link outerAlias link).tight
  exact tight.spells (by simp [Sql.Fits, linkSql, Piece.datesFit])

end QueryKit
