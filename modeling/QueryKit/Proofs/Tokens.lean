import QueryKit.Proofs.Lexer
import QueryKit.Sql.Basic

-- A statement is split piece by piece: where each piece ends with a whole token that the next one
-- cannot go on with, the tokens of the text are those of its pieces in order.

namespace QueryKit
open Lexer

namespace Piece

def tokens (zone : Zone) (p : Piece) : List Token := (lex (p.text zone)).getD []

def mode (zone : Zone) (p : Piece) : Mode := (Mode.ground.scan (p.text zone).toList).2

theorem tokens_of_splits {zone : Zone} {p : Piece} {ts : List Token} (splits : Splits (p.text zone).toList ts) :
    p.tokens zone = ts := by
  rw [tokens, lex_of_splits splits, Option.getD_some]

theorem splits {zone : Zone} {p : Piece} (whole : (p.mode zone).rests = true) :
    Splits (p.text zone).toList (p.tokens zone) := by
  obtain ⟨last, ended⟩ := rests_flush _ whole
  have split : Splits (p.text zone).toList _ := splits_of_scan rfl whole ended
  rwa [tokens_of_splits split]

end Piece

namespace Sql

def tokens (zone : Zone) (sql : Sql) : List Token := sql.flatMap (Piece.tokens zone)

def chars (zone : Zone) (sql : Sql) : List Char := sql.flatMap fun p => (p.text zone).toList

theorem chars_append (zone : Zone) (a b : Sql) : chars zone (a ++ b) = chars zone a ++ chars zone b :=
  List.flatMap_append

theorem chars_cons (zone : Zone) (p : Piece) (r : Sql) :
    chars zone (p :: r) = (p.text zone).toList ++ chars zone r := rfl

theorem text_nil (zone : Zone) : text zone [] = "" := rfl

theorem text_cons (zone : Zone) (p : Piece) (r : Sql) : text zone (p :: r) = p.text zone ++ text zone r :=
  String.join_cons

theorem text_append (zone : Zone) (a b : Sql) : text zone (a ++ b) = text zone a ++ text zone b := by
  rw [text, List.map_append, String.join_append]; rfl

theorem toList_text (zone : Zone) (sql : Sql) : (text zone sql).toList = chars zone sql := by
  rw [text, String.toList_join, List.flatMap_map, chars]

theorem text_of_render {sql : Sql} {text : String} (rendered : render zone sql = .ok text) :
    text = sql.text zone := by
  unfold render at rendered
  split at rendered
  · exact (Except.ok.inj rendered).symm
  · cases rendered

@[simp] theorem tokens_nil (zone : Zone) : tokens zone [] = [] := rfl

@[simp] theorem tokens_cons (zone : Zone) (p : Piece) (r : Sql) :
    tokens zone (p :: r) = p.tokens zone ++ tokens zone r := rfl

@[simp] theorem tokens_append (zone : Zone) (a b : Sql) :
    tokens zone (a ++ b) = tokens zone a ++ tokens zone b :=
  List.flatMap_append

-- Pieces that are split one by one. Either a piece is complete with its last character, as after a
-- blank or a parenthesis, or the text behind it ends its last token.
inductive Tight (zone : Zone) : Sql → Prop where
  | nil : Tight zone []
  | closed {p : Piece} {r : Sql} (complete : p.mode zone = .ground) (rest : Tight zone r) : Tight zone (p :: r)
  | broken {p : Piece} {r : Sql} (whole : (p.mode zone).rests = true)
      (ends : breaks (chars zone r) = true) (rest : Tight zone r) : Tight zone (p :: r)

variable {zone : Zone}

theorem Tight.splits {sql : Sql} (tight : Tight zone sql) : Splits (chars zone sql) (tokens zone sql) := by
  induction tight with
  | nil => exact ⟨rfl, rfl⟩
  | closed complete rest ih =>
    exact (Piece.splits (by rw [complete]; rfl)).append ih (.inl complete)
  | broken whole ends rest ih => exact (Piece.splits whole).append ih (.inr ends)

theorem lex_text {sql : Sql} (tight : Tight zone sql) : lex (text zone sql) = some (tokens zone sql) := by
  refine lex_of_splits ?_
  rw [toList_text]
  exact tight.splits

theorem Tight.append {a b : Sql} (left : Tight zone a) (right : Tight zone b)
    (ends : breaks (chars zone b) = true) : Tight zone (a ++ b) := by
  induction left with
  | nil => exact right
  | closed complete rest ih => exact .closed complete ih
  | @broken p r whole next rest ih =>
    refine .broken whole ?_ ih
    rw [List.append_eq, chars_append]
    by_cases empty : chars zone r = []
    · rw [empty]; exact ends
    · exact breaks_append _ _ empty next

-- A word that ends the token in front of it and is complete itself, such as ` AND `.
structure Separates (w : String) : Prop where
  complete : (Mode.ground.scan w.toList).2 = .ground
  ends : breaks w.toList = true
  some : w.toList ≠ []

theorem Tight.glue {a b : Sql} {w : String} (separates : Separates w) (left : Tight zone a)
    (right : Tight zone b) : Tight zone (a ++ .word w :: b) :=
  left.append (.closed separates.complete right) (breaks_append _ _ separates.some separates.ends)

theorem separated_singleton (w : String) (part : Sql) : separated w [part] = part :=
  List.intercalate_singleton

theorem separated_cons_cons (w : String) (part next : Sql) (r : List Sql) :
    separated w (part :: next :: r) = part ++ .word w :: separated w (next :: r) := by
  simp only [separated, List.intercalate_cons_cons, List.append_assoc, List.singleton_append]

theorem Tight.joined {w : String} (separates : Separates w) {parts : List Sql}
    (each : ∀ part ∈ parts, Tight zone part) : Tight zone (separated w parts) := by
  induction parts with
  | nil => exact .nil
  | cons part r ih =>
    have first := each part List.mem_cons_self
    have rest := ih fun p member => each p (List.mem_cons_of_mem _ member)
    cases r with
    | nil => rw [separated_singleton]; exact first
    | cons next r => rw [separated_cons_cons]; exact first.glue separates rest

end Sql

end QueryKit
