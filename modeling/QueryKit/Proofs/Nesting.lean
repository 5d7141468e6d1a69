import QueryKit.Proofs.LiteralTokens

-- Tokens by the parentheses around them: a group is one item, made of what stands inside it when it
-- is closed. The items of a statement are those outside of any parenthesis.

namespace QueryKit.Lexer
open Decimal

inductive Item (α : Type) where
  | token (t : Token)
  | group (tokens : List Token) (inside : α)

def Token.isParenthesis (t : Token) : Bool := t == .mark "(" || t == .mark ")"

section
variable {α : Type} (make : List (Item α) → α)

namespace Item

def tokens : Item α → List Token
  | .token t => [t]
  | .group tokens _ => tokens

def isWord (w : String) : Item α → Bool
  | .token t => t == .word w
  | .group .. => false

end Item

def flatten (items : List (Item α)) : List Token := items.flatMap Item.tokens

def enclose (items : List (Item α)) : Item α := .group (.mark "(" :: flatten items ++ [.mark ")"]) (make items)

def nest (outer : List (List (Item α))) (items : List (Item α)) : List Token → Option (List (Item α))
  | [] => if outer.isEmpty then some items else none
  | t :: r =>
    if t = .mark "(" then nest (items :: outer) [] r
    else if t = .mark ")" then outer.head?.bind fun before => nest outer.tail (before ++ [enclose make items]) r
    else nest outer (items ++ [.token t]) r

inductive Nests : List Token → List (Item α) → Prop where
  | nil : Nests [] []
  | token {t : Token} {r : List Token} {items : List (Item α)} (plain : t.isParenthesis = false)
      (rest : Nests r items) : Nests (t :: r) (.token t :: items)
  | group {ts r : List Token} {inner items : List (Item α)} (inside : Nests ts inner) (rest : Nests r items) :
      Nests (.mark "(" :: ts ++ .mark ")" :: r) (enclose make inner :: items)

variable {make}

theorem Nests.spelled {ts : List Token} {items : List (Item α)} (nests : Nests make ts items) :
    flatten items = ts := by
  induction nests with
  | nil => rfl
  | token plain rest ih => exact congrArg (_ :: ·) ih
  | @group ts r inner items inside rest first second =>
    have whole : flatten (enclose make inner :: items) = (.mark "(" :: flatten inner ++ [.mark ")"]) ++ flatten items :=
      rfl
    rw [whole, first, second, List.append_assoc]
    rfl

theorem Nests.read {ts : List Token} {items : List (Item α)} (nests : Nests make ts items)
    (outer : List (List (Item α))) (before : List (Item α)) (r : List Token) :
    nest make outer before (ts ++ r) = nest make outer (before ++ items) r := by
  induction nests generalizing outer before r with
  | nil => simp
  | token plain rest ih =>
    simp only [Token.isParenthesis, Bool.or_eq_false_iff, beq_eq_false_iff_ne] at plain
    rw [List.cons_append, nest, if_neg plain.1, if_neg plain.2, ih, List.append_assoc, List.singleton_append]
  | group inside rest first second =>
    simp only [List.cons_append, List.append_assoc]
    rw [nest, if_pos rfl, first, nest]
    simp [second]

theorem nest_of_nests {ts : List Token} {items : List (Item α)} (nests : Nests make ts items) :
    nest make [] [] ts = some items := by
  have whole := nests.read [] [] []
  simpa [nest] using whole

theorem Nests.append {ts us : List Token} {items more : List (Item α)} (left : Nests make ts items)
    (right : Nests make us more) : Nests make (ts ++ us) (items ++ more) := by
  induction left with
  | nil => exact right
  | token plain rest ih => exact .token plain ih
  | group inside rest first second =>
    simpa only [List.cons_append, List.append_assoc] using Nests.group inside second

theorem nests_token {t : Token} (plain : t.isParenthesis = false) : Nests make [t] [.token t] := .token plain .nil

theorem nests_tokens {ts : List Token} (plain : ∀ t ∈ ts, t.isParenthesis = false) :
    Nests make ts (ts.map .token) := by
  induction ts with
  | nil => exact .nil
  | cons t r ih => exact .token (plain t List.mem_cons_self) (ih fun u member => plain u (List.mem_cons_of_mem _ member))

theorem Nests.enclosed {ts : List Token} {items : List (Item α)} (inner : Nests make ts items) :
    Nests make (.mark "(" :: ts ++ [.mark ")"]) [enclose make items] := .group inner .nil

theorem nests_intercalate {ts : List Token} {items : List (Item α)} (between : Nests make ts items)
    (parts : List (List Token × List (Item α))) (each : ∀ part ∈ parts, Nests make part.1 part.2) :
    Nests make (List.intercalate ts (parts.map (·.1))) (List.intercalate items (parts.map (·.2))) := by
  induction parts with
  | nil => exact .nil
  | cons part r ih =>
    have first := each part List.mem_cons_self
    have rest := ih fun p member => each p (List.mem_cons_of_mem _ member)
    cases r with
    | nil => simpa only [List.map_cons, List.map_nil, List.intercalate_singleton] using first
    | cons next r =>
      simp only [List.map_cons, List.intercalate_cons_cons] at rest ⊢
      exact (first.append between).append rest

end

-- Words by which a statement is read: those of conditions and those that open a clause.
def clauseWords : List String := ["select", "from", "where", "group", "having", "order", "limit", "offset"]

def Token.opensClause : Token → Bool
  | .word w => clauseWords.contains w
  | _ => false

def reserved : List String := ["and", "or", "between", "not", "exists"] ++ clauseWords

def Token.isPlain (t : Token) : Bool := !t.isParenthesis && reserved.all fun w => t != .word w

section
variable {α : Type}

def Item.isPlain (i : Item α) : Bool := reserved.all fun w => !i.isWord w

def Item.opensClause : Item α → Bool
  | .token t => t.opensClause
  | .group .. => false

-- A side of a comparison: it begins with a token of its own and holds no reserved word.
structure Factor (make : List (Item α) → α) (ts : List Token) (items : List (Item α)) : Prop where
  nests : Nests make ts items
  plain : ∀ i ∈ items, i.isPlain = true
  begins : ∃ t r, items = .token t :: r

variable {make : List (Item α) → α}

theorem isPlain_token {t : Token} (plain : t.isPlain = true) : (Item.token t : Item α).isPlain = true := by
  simp only [Token.isPlain, Bool.and_eq_true] at plain
  simpa [Item.isPlain, Item.isWord, bne] using plain.2

theorem factor_tokens {ts : List Token} (filled : ts ≠ []) (plain : ∀ t ∈ ts, t.isPlain = true) :
    Factor make ts (ts.map .token) := by
  refine ⟨nests_tokens fun t member => ?_, ?_, ?_⟩
  · have solid := plain t member
    simp only [Token.isPlain, Bool.and_eq_true, Bool.not_eq_true'] at solid
    exact solid.1
  · intro i member
    obtain ⟨t, inside, rfl⟩ := List.mem_map.mp member
    exact isPlain_token (plain t inside)
  · obtain ⟨t, r, rfl⟩ := List.exists_cons_of_ne_nil filled
    exact ⟨t, r.map .token, rfl⟩

theorem plain_pathTokens (segments : List String) : ∀ t ∈ pathTokens segments, t.isPlain = true := by
  induction segments using pathTokens.induct with
  | case1 => intro t member; cases member
  | case2 s => intro t member; cases List.mem_singleton.mp member; rfl
  | case3 s u r ih =>
    intro t member
    rcases List.mem_cons.mp member with rfl | member
    · rfl
    rcases List.mem_cons.mp member with rfl | member
    · rfl
    · exact ih t member

theorem factor_path (s : String) (r : List String) :
    Factor make (pathTokens (s :: r)) ((pathTokens (s :: r)).map .token) := by
  refine factor_tokens ?_ (plain_pathTokens _)
  cases r <;> simp [pathTokens]

theorem plain_signedTokens (negative : Bool) (ds : List Char) : ∀ t ∈ signedTokens negative ds, t.isPlain = true := by
  intro t member
  cases negative with
  | false => cases List.mem_singleton.mp member; rfl
  | true =>
    rcases List.mem_cons.mp member with rfl | member
    · rfl
    · cases List.mem_singleton.mp member; rfl

theorem plain_doubleTokens (x : Binary64) : ∀ t ∈ doubleTokens x, t.isPlain = true := by
  unfold doubleTokens
  cases x.number with
  | finite negative m q => exact plain_signedTokens negative _
  | _ => intro t member; cases List.mem_singleton.mp member; rfl

theorem plain_singleTokens (x : Binary32) : ∀ t ∈ singleTokens x, t.isPlain = true := by
  unfold singleTokens
  cases x.number with
  | finite negative m q => exact plain_signedTokens negative _
  | _ => exact plain_doubleTokens _

theorem plain_coordinateTokens (x : Binary64) : ∀ t ∈ coordinateTokens x, t.isPlain = true := by
  unfold coordinateTokens
  cases x.number with
  | nan => intro t member; cases List.mem_singleton.mp member; rfl
  | infinite negative => cases negative <;> decide
  | finite negative m q => exact plain_signedTokens negative _

theorem coordinateTokens_ne_nil (x : Binary64) : coordinateTokens x ≠ [] := by
  unfold coordinateTokens finiteTokens signedTokens
  split
  · simp
  · split <;> simp
  · split <;> simp

theorem doubleTokens_ne_nil (x : Binary64) : doubleTokens x ≠ [] := by
  unfold doubleTokens finiteTokens signedTokens
  split
  · simp
  · simp
  · split <;> simp

theorem singleTokens_ne_nil (x : Binary32) : singleTokens x ≠ [] := by
  unfold singleTokens finiteTokens signedTokens
  split
  · split <;> simp
  · exact doubleTokens_ne_nil _

theorem factor_point (x y : Binary64) : ∃ items, Factor make (pointTokens x y) items := by
  have coordinate (x : Binary64) : Factor make (coordinateTokens x) ((coordinateTokens x).map .token) :=
    factor_tokens (coordinateTokens_ne_nil x) (plain_coordinateTokens x)
  have first := (coordinate x).nests
  have second := (coordinate y).nests
  have comma : Nests make [.mark ","] [.token (.mark ",")] := nests_token rfl
  have word : Nests make [.word "point"] [.token (.word "point")] := nests_token rfl
  have whole := word.append (first.append (comma.append second)).enclosed
  refine ⟨_, ⟨by simpa [pointTokens] using whole, ?_, ⟨_, _, rfl⟩⟩⟩
  intro i member
  rcases List.mem_cons.mp member with rfl | member
  · rfl
  · cases List.mem_singleton.mp member; rfl

theorem factor_literal (zone : Zone) (v : Value) : ∃ items, Factor make (literalTokens zone v) items := by
  have flat {ts : List Token} (filled : ts ≠ []) (plain : ∀ t ∈ ts, t.isPlain = true) :
      ∃ items, Factor make ts items := ⟨_, factor_tokens filled plain⟩
  have alone (t : Token) (plain : t.isPlain = true) : ∃ items, Factor make [t] items :=
    flat (by simp) fun u member => List.mem_singleton.mp member ▸ plain
  have number (negative : Bool) (ds : List Char) : ∃ items, Factor make (signedTokens negative ds) items :=
    flat (by cases negative <;> simp [signedTokens]) (plain_signedTokens negative ds)
  cases v with
  | null => exact alone _ rfl
  | bool b => cases b <;> exact alone _ rfl
  | int32 n | int64 n => exact number _ _
  | float32 x => exact flat (singleTokens_ne_nil x) (plain_singleTokens x)
  | float64 x => exact flat (doubleTokens_ne_nil x) (plain_doubleTokens x)
  | point x y => exact factor_point x y
  | _ => exact alone _ rfl

end

end QueryKit.Lexer
