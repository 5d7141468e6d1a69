import QueryKit.Proofs.Numerals
import QueryKit.Proofs.Tokens

-- Names and literals as tokens. Whatever a name or a value holds, its text is the tokens given here
-- and no others: a quoted token unquotes to the very name or to the text of the value.

namespace QueryKit
open Text Decimal Calendar Lexer

theorem scan_doubled (o : Opening) (plain : o ≠ .escaped) (s read : List Char) :
    (Mode.quoted o read).scan (Sql.doubled o.quote s) = ([], .quoted o (s.reverse ++ read)) := by
  induction s generalizing read with
  | nil => rfl
  | cons c r ih =>
    by_cases quote : c = o.quote
    · have closes : (Mode.quoted o read).step c = ([], .closed o read) := by
        simp [Mode.step, Mode.extend?, quote]
      have reopens : (Mode.closed o read).step c = ([], .quoted o (c :: read)) := by
        simp [Mode.step, Mode.extend?, quote]
      rw [Sql.doubled, if_pos quote, ← quote]
      simp only [Mode.scan, closes, reopens]
      rw [quote, ih]
      simp
    · have taken : (Mode.quoted o read).step c = ([], .quoted o (c :: read)) := by
        simp [Mode.step, Mode.extend?, quote, plain]
      rw [Sql.doubled, if_neg quote]
      simp only [Mode.scan, taken, ih]
      simp

theorem scan_quotedWith (m : Mode) (o : Opening) (plain : o ≠ .escaped) {ts : List Token}
    (opened : m.step o.quote = (ts, .quoted o [])) (s : String) :
    m.scan (Sql.quotedWith o.quote s).toList = (ts, .closed o s.toList.reverse) := by
  have closes (read : List Char) : (Mode.quoted o read).step o.quote = ([], .closed o read) := by
    simp [Mode.step, Mode.extend?]
  simp only [Sql.quotedWith, String.toList_ofList, List.cons_append, Mode.scan, opened, Mode.scan_append,
    scan_doubled o plain, closes]
  simp

theorem scan_identifier (m : Mode) {ts : List Token} (refused : m.extend? '"' = none) (ended : m.flush = some ts)
    (s : String) : m.scan (Sql.identifier s).toList = (ts, .closed .name s.toList.reverse) := by
  refine scan_quotedWith m .name (by simp) ?_ s
  show m.step '"' = _
  rw [step_of_refused refused ended]
  simp [Mode.begin, isSpace, isNewline]

theorem splits_stringLiteral (s : String) : Splits (Sql.stringLiteral s).toList [.text s] := by
  have opened : Mode.ground.step Opening.text.quote = ([], .quoted .text []) := rfl
  have scanned := scan_quotedWith .ground .text (by simp) opened s
  have ended : (Mode.closed .text s.toList.reverse).flush = some [.text s] := by
    simp [Mode.flush, Opening.token]
  exact splits_of_scan scanned rfl ended

def pathTokens : List String → List Token
  | [] => []
  | [s] => [.name s]
  | s :: t :: r => .name s :: .mark "." :: pathTokens (t :: r)

theorem path_cons_cons (s t : String) (r : List String) :
    (Sql.path (s :: t :: r)).toList = (Sql.identifier s).toList ++ '.' :: (Sql.path (t :: r)).toList := by
  simp [Sql.path, String.toList_intercalate]

theorem scan_path (m : Mode) {ts : List Token} (refused : m.extend? '"' = none) (ended : m.flush = some ts)
    (s : String) (r : List String) :
    ∃ us read, m.scan (Sql.path (s :: r)).toList = (ts ++ us, .closed .name read) ∧
      us ++ [.name (String.ofList read.reverse)] = pathTokens (s :: r) := by
  induction r generalizing m ts s with
  | nil =>
    refine ⟨[], s.toList.reverse, ?_, by simp [pathTokens]⟩
    have alone : (Sql.path [s]).toList = (Sql.identifier s).toList := by simp [Sql.path]
    rw [alone, scan_identifier m refused ended, List.append_nil]
  | cons t r ih =>
    have ends : Mode.point.flush = some [.mark "."] := rfl
    obtain ⟨us, read, scanned, split⟩ := ih .point rfl ends t
    have dot (read : List Char) :
        (Mode.closed .name read).step '.' = ([.name (String.ofList read.reverse)], .point) := rfl
    refine ⟨.name s :: .mark "." :: us, read, ?_, ?_⟩
    · rw [path_cons_cons, Mode.scan_append, scan_identifier m refused ended]
      simp only [Mode.scan, dot, scanned, List.reverse_reverse, String.ofList_toList]
      simp
    · simp only [List.cons_append, split, pathTokens]

theorem splits_path (segments : List String) : Splits (Sql.path segments).toList (pathTokens segments) := by
  cases segments with
  | nil => exact ⟨rfl, rfl⟩
  | cons s r =>
    obtain ⟨us, read, scanned, split⟩ := scan_path .ground rfl rfl s r
    rw [← split]
    exact splits_of_scan scanned rfl rfl

def signedTokens (negative : Bool) (digits : List Char) : List Token :=
  if negative then [.operator "-", .number (String.ofList digits)] else [.number (String.ofList digits)]

theorem extend?_operator_digit (read : List Char) (d : Char) (digit : d.isDigit = true) :
    (Mode.operator read).extend? d = none := by
  have symbols : isOperator d = false := by
    by_contra symbol
    simp only [isOperator, isSpecial, isSign, Bool.not_eq_false, Bool.or_eq_true, beq_iff_eq, or_assoc] at symbol
    rcases symbol with rfl | rfl | rfl | rfl | rfl | rfl | rfl | rfl | rfl | rfl | rfl | rfl | rfl | rfl | rfl | rfl |
      rfl <;> cases digit
  have dash : d ≠ '-' := by rintro rfl; cases digit
  have star : d ≠ '*' := by rintro rfl; cases digit
  simp [Mode.extend?, symbols, dash, star]

theorem splits_signed {body : List Char} (numeral : Numeral body) (negative : Bool) :
    Splits (signed negative body) (signedTokens negative body) := by
  obtain ⟨m, scanned, rests, ended⟩ := scan_numeral numeral
  cases negative with
  | false => exact splits_of_scan scanned rests ended
  | true =>
    obtain ⟨d, r, rfl, digit⟩ := numeral_head numeral
    have minus : Mode.ground.step '-' = ([], .operator ['-']) := rfl
    have behind : (Mode.operator ['-']).scan (d :: r) = ([.operator "-"], m) := by
      rw [scan_refused (extend?_operator_digit _ d digit) rfl, scanned]; rfl
    have whole : Mode.ground.scan ('-' :: d :: r) = ([.operator "-"], m) := by
      rw [Mode.scan, minus, behind]; rfl
    exact splits_of_scan whole rests ended

def intTokens (n : Int) : List Token := signedTokens (decide (n < 0)) (digits n.natAbs)

theorem splits_intDigits (n : Int) : Splits (intDigits n) (intTokens n) := by
  have spelled : intDigits n = signed (decide (n < 0)) (digits n.natAbs) := by
    by_cases negative : n < 0 <;> simp [intDigits, signed, negative]
  rw [spelled]
  exact splits_signed (numeral_digits _) _

def finiteTokens (f : Decimal.Format) (negative : Bool) (m : Nat) (q : Int) : List Token :=
  signedTokens negative (plain.finiteText f false m q)

theorem splits_finiteText (f : Decimal.Format) (negative : Bool) (m : Nat) (q : Int) :
    Splits (plain.finiteText f negative m q) (finiteTokens f negative m q) := by
  have spelled : plain.finiteText f negative m q = signed negative (plain.finiteText f false m q) := rfl
  rw [spelled]
  exact splits_signed (numeral_finiteText f m q) negative

def doubleTokens (x : Binary64) : List Token :=
  match x.number with
  | .nan => [.text "NaN"]
  | .infinite negative => [.text (if negative then "-Infinity" else "Infinity")]
  | .finite negative m q => finiteTokens double negative m q

theorem splits_doubleLiteral (x : Binary64) : Splits (Sql.doubleLiteral x).toList (doubleTokens x) := by
  unfold Sql.doubleLiteral doubleTokens Binary64.text
  cases x.number with
  | nan => exact splits_stringLiteral _
  | infinite negative => exact splits_stringLiteral _
  | finite negative m q =>
    simp only [Layout.text, String.toList_ofList]
    exact splits_finiteText ..

def singleTokens (x : Binary32) : List Token :=
  match x.number with
  | .finite negative m q => finiteTokens single negative m q
  | _ => doubleTokens x.widen

theorem splits_singleLiteral (x : Binary32) : Splits (Sql.singleLiteral x).toList (singleTokens x) := by
  unfold Sql.singleLiteral singleTokens Binary32.isFinite Binary32.text
  cases x.number with
  | finite negative m q =>
    simp only [if_true, Layout.text, String.toList_ofList]
    exact splits_finiteText ..
  | _ => exact splits_doubleLiteral _

def coordinateTokens (x : Binary64) : List Token :=
  match x.number with
  | .nan => [.word "nan"]
  | .infinite negative => if negative then [.operator "-", .word "inf"] else [.word "inf"]
  | .finite negative m q => finiteTokens double negative m q

theorem splits_coordinate (x : Binary64) : Splits (x.text plain).toList (coordinateTokens x) := by
  unfold coordinateTokens Binary64.text
  cases x.number with
  | nan => exact ⟨rfl, rfl⟩
  | infinite negative => cases negative <;> exact ⟨rfl, rfl⟩
  | finite negative m q =>
    simp only [Layout.text, String.toList_ofList]
    exact splits_finiteText ..

def pointTokens (x y : Binary64) : List Token :=
  .word "point" :: .mark "(" :: coordinateTokens x ++ .mark "," :: coordinateTokens y ++ [.mark ")"]

theorem splits_point (x y : Binary64) :
    Splits ("POINT(" ++ x.text plain ++ ", " ++ y.text plain ++ ")").toList (pointTokens x y) := by
  have opened : Splits "POINT(".toList [.word "point", .mark "("] := ⟨rfl, rfl⟩
  have comma : Splits ", ".toList [.mark ","] := ⟨rfl, rfl⟩
  have closed : Splits ")".toList [.mark ")"] := ⟨rfl, rfl⟩
  have second := comma.append ((splits_coordinate y).append closed (.inr rfl)) (.inl rfl)
  have first := (splits_coordinate x).append second (.inr rfl)
  have whole := opened.append first (.inl rfl)
  simpa only [pointTokens, String.toList_append, List.append_assoc, List.cons_append, List.nil_append] using whole

-- A literal of a statement as tokens. What is quoted unquotes to the text of the value.
def literalTokens (zone : Zone) : Value → List Token
  | .null => [.word "null"]
  | .bool b => [.word (toString b)]
  | .int32 n => intTokens n.toInt
  | .int64 n => intTokens n.toInt
  | .float32 x => singleTokens x
  | .float64 x => doubleTokens x
  | .text s => [.text s]
  | .bytes octets => [.text (String.ofList (Sql.bytesText octets))]
  | .uuid u => [.text u.text]
  | .instant t => [.text (Sql.instantText zone t)]
  | .date d => [.text d.text]
  | .time t => [.text t.text]
  | .json j => [.text j.compact]
  | .array items => [.text (Sql.arrayLiteral zone items)]
  | .point x y => pointTokens x y

theorem splits_literal (zone : Zone) (v : Value) : Splits (Sql.literal zone v).toList (literalTokens zone v) := by
  cases v with
  | null =>
    simp only [Sql.literal, literalTokens]
    exact ⟨rfl, rfl⟩
  | bool b =>
    simp only [Sql.literal, literalTokens]
    cases b <;> exact ⟨rfl, rfl⟩
  | int32 n | int64 n =>
    simp only [Sql.literal, intText, String.toList_ofList]
    exact splits_intDigits _
  | float32 x => exact splits_singleLiteral x
  | float64 x => exact splits_doubleLiteral x
  | point x y => exact splits_point x y
  | _ => exact splits_stringLiteral _

namespace Piece
variable (zone : Zone)

@[simp] theorem tokens_literal (v : Value) : (literal v).tokens zone = literalTokens zone v :=
  tokens_of_splits (splits_literal zone v)

@[simp] theorem tokens_name (segments : List String) : (name segments).tokens zone = pathTokens segments :=
  tokens_of_splits (splits_path segments)

theorem tokens_word {w : String} {ts : List Token} (split : lex w = some ts) : (word w).tokens zone = ts := by
  simp only [tokens, text, split, Option.getD_some]

theorem literal_rests (v : Value) : ((literal v).mode zone).rests = true := (splits_literal zone v).rests

theorem name_rests (segments : List String) : ((name segments).mode zone).rests = true :=
  (splits_path segments).rests

end Piece

def listTokens (parts : List (List Token)) : List Token := List.intercalate [.mark ","] parts

namespace Sql
variable {zone : Zone}

theorem breaks_word {w : String} {r : Sql} (filled : w.toList ≠ []) (ends : breaks w.toList = true) :
    breaks (chars zone (.word w :: r)) = true :=
  breaks_append _ _ filled ends

theorem Tight.word {w : String} {r : Sql} (complete : (Mode.ground.scan w.toList).2 = .ground)
    (rest : Tight zone r) : Tight zone (.word w :: r) :=
  .closed complete rest

theorem Tight.apart {w : String} {r : Sql} (whole : (Mode.ground.scan w.toList).2.rests = true)
    (ends : breaks (chars zone r) = true) (rest : Tight zone r) : Tight zone (.word w :: r) :=
  .broken whole ends rest

theorem Tight.last {w : String} (whole : (Mode.ground.scan w.toList).2.rests = true) : Tight zone [.word w] :=
  .broken whole rfl .nil

theorem Tight.name {segments : List String} {r : Sql} (ends : breaks (chars zone r) = true)
    (rest : Tight zone r) : Tight zone (.name segments :: r) :=
  .broken (Piece.name_rests zone segments) ends rest

theorem Tight.literal {v : Value} {r : Sql} (ends : breaks (chars zone r) = true) (rest : Tight zone r) :
    Tight zone (.literal v :: r) :=
  .broken (Piece.literal_rests zone v) ends rest

theorem tokens_separated (w : String) (parts : List Sql) :
    tokens zone (separated w parts) =
      List.intercalate ((Piece.word w).tokens zone) (parts.map (tokens zone)) := by
  induction parts with
  | nil => rfl
  | cons part r ih =>
    cases r with
    | nil => rw [separated_singleton, List.map_singleton, List.intercalate_singleton]
    | cons next r =>
      rw [separated_cons_cons, tokens_append, tokens_cons, ih]
      simp only [List.map_cons, List.intercalate_cons_cons, List.append_assoc]

theorem separates_comma : Separates ", " := ⟨rfl, rfl, by decide⟩

theorem tokens_comma (parts : List Sql) :
    tokens zone (separated ", " parts) = listTokens (parts.map (tokens zone)) := by
  have comma : lex ", " = some [.mark ","] := rfl
  rw [tokens_separated, Piece.tokens_word zone comma, listTokens]

theorem Tight.names (zone : Zone) (columns : List String) :
    Tight zone (separated ", " (columns.map fun column => [.name [column]])) := by
  refine Tight.joined separates_comma fun part member => ?_
  obtain ⟨column, _, rfl⟩ := List.mem_map.mp member
  exact .name rfl .nil

theorem Tight.literals (zone : Zone) (values : List Value) :
    Tight zone (separated ", " (values.map fun v => [.literal v])) := by
  refine Tight.joined separates_comma fun part member => ?_
  obtain ⟨v, _, rfl⟩ := List.mem_map.mp member
  exact .literal rfl .nil

end Sql

end QueryKit
