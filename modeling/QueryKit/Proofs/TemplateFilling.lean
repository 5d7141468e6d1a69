import QueryKit.Proofs.ArrayStorage
import QueryKit.Proofs.SpellableFilters

-- Templates of a caller's own. Their places are those of the template and of the column that goes into it,
-- and no others: what the arguments bring is never read again. A column whose names hold no place of their own
-- goes in as it is.

namespace QueryKit.Template
open Text Decimal

-- A template as it is written. Only the first place for the column is one.
inductive Part where
  | char (c : Char)
  | column
  | name
  | value
  deriving DecidableEq

def parts : Bool → List Char → List Part
  | _, [] => []
  | true, '?' :: ':' :: 'c' :: 'o' :: 'l' :: 'u' :: 'm' :: 'n' :: r => .column :: parts false r
  | first, '?' :: ':' :: 'i' :: 'd' :: r => .name :: parts first r
  | first, '?' :: ':' :: 'v' :: 'a' :: 'l' :: 'u' :: 'e' :: r => .value :: parts first r
  | first, c :: r => .char c :: parts first r

def Part.written : Part → List Char
  | .char c => [c]
  | .column => ['?', ':', 'c', 'o', 'l', 'u', 'm', 'n']
  | .name => ['?', ':', 'i', 'd']
  | .value => ['?', ':', 'v', 'a', 'l', 'u', 'e']

theorem written_parts (first : Bool) (cs : List Char) : (parts first cs).flatMap Part.written = cs := by
  fun_induction parts first cs <;> simp_all [Part.written]

-- The column where it is asked for, and in the i-th place the i-th argument, or nothing where there is none.
def filled (zone : Zone) (column : String) (arguments : List Value) : Nat → List Part → String
  | _, [] => ""
  | i, .char c :: r => String.singleton c ++ filled zone column arguments i r
  | i, .column :: r => column ++ filled zone column arguments i r
  | i, .name :: r =>
    (arguments[i]?.elim "" fun v => Sql.identifier v.nameText) ++ filled zone column arguments (i + 1) r
  | i, .value :: r => arguments[i]?.elim "" (Sql.literal zone) ++ filled zone column arguments (i + 1) r

-- One pass over the template alone.
def substituted (zone : Zone) (template : String) (arguments : List Value) (column : String) : String :=
  filled zone column arguments 0 (parts true template.toList)

def Part.spread (column : List Char) : Part → List Part
  | .column => parts false column
  | p => [p]

def HoldsPlace (cs : List Char) : Prop := ['?', ':', 'i', 'd'] <:+: cs ∨ ['?', ':', 'v', 'a', 'l', 'u', 'e'] <:+: cs

def Slot.part : Slot → Part
  | .char c => .char c
  | .name => .name
  | .value => .value

-- Where no place begins, there is a character.
theorem ofTags_char {c : Char} {r : List Char} (name : ¬ ['?', ':', 'i', 'd'] <+: c :: r)
    (value : ¬ ['?', ':', 'v', 'a', 'l', 'u', 'e'] <+: c :: r) : ofTags (c :: r) = .char c :: ofTags r := by
  rw [ofTags]
  · rintro s rfl rfl
    exact name (List.prefix_append _ s)
  · rintro s rfl rfl
    exact value (List.prefix_append _ s)

theorem parts_ofTags (cs : List Char) : (ofTags cs).map Slot.part = parts false cs := by
  fun_induction ofTags cs with
  | case1 => rfl
  | case2 r ih => rw [List.map_cons, ih]; rfl
  | case3 r ih => rw [List.map_cons, ih]; rfl
  | case4 c r name value ih =>
    rw [List.map_cons, ih, parts]
    · rfl
    · exact name
    · exact value
    · intro s other
      cases other

section
variable {q : Char} {w : List Char}

theorem prefix_of_quote (free : q ∉ w) {a b : List Char} (begins : w <+: a ++ q :: b) : w <+: a := by
  induction a generalizing w with
  | nil =>
    cases w with
    | nil => exact List.nil_prefix
    | cons c w =>
      obtain ⟨rfl, -⟩ := List.cons_prefix_cons.mp begins
      exact absurd List.mem_cons_self free
  | cons d a ih =>
    cases w with
    | nil => exact List.nil_prefix
    | cons c w =>
      obtain ⟨rfl, rest⟩ := List.cons_prefix_cons.mp begins
      exact List.cons_prefix_cons.mpr ⟨rfl, ih (fun member => free (List.mem_cons_of_mem _ member)) rest⟩

theorem infix_quote_iff (free : q ∉ w) (filled : w ≠ []) (a b : List Char) :
    w <:+: a ++ q :: b ↔ w <:+: a ∨ w <:+: b := by
  constructor
  · intro inside
    induction a with
    | nil =>
      rcases List.infix_cons_iff.mp inside with here | later
      · exact absurd (List.prefix_nil.mp (prefix_of_quote free (a := []) here)) filled
      · exact .inr later
    | cons c a ih =>
      rcases List.infix_cons_iff.mp inside with here | later
      · exact .inl (prefix_of_quote free (a := c :: a) here).isInfix
      · exact (ih later).imp_left fun inner => List.infix_cons_iff.mpr (.inr inner)
  · rintro (inner | inner)
    · exact inner.trans (List.prefix_append a _).isInfix
    · exact inner.trans ((List.suffix_cons q b).trans (List.suffix_append a _)).isInfix

theorem prefix_doubled_iff (free : q ∉ w) (cs : List Char) : w <+: Sql.doubled q cs ↔ w <+: cs := by
  induction cs generalizing w with
  | nil => rfl
  | cons c cs ih =>
    cases w with
    | nil => simp
    | cons d w =>
      have rest := ih (w := w) fun member => free (List.mem_cons_of_mem _ member)
      unfold Sql.doubled
      split
      case isTrue same =>
        subst same
        have other : d ≠ c := fun same => free (same ▸ List.mem_cons_self)
        simp [List.cons_prefix_cons, other]
      case isFalse => rw [List.cons_prefix_cons, List.cons_prefix_cons, rest]

theorem infix_doubled_iff (free : q ∉ w) (filled : w ≠ []) (cs : List Char) : w <:+: Sql.doubled q cs ↔ w <:+: cs := by
  induction cs with
  | nil => rfl
  | cons c cs ih =>
    unfold Sql.doubled
    split
    case isTrue same =>
      subst same
      have quoted := infix_quote_iff free filled [] (c :: Sql.doubled c cs)
      have again := infix_quote_iff free filled [] (Sql.doubled c cs)
      have plain := infix_quote_iff free filled [] cs
      simp only [List.nil_append] at quoted again plain
      rw [quoted, again, plain, ih]
      tauto
    case isFalse other =>
      have spelled : Sql.doubled q (c :: cs) = c :: Sql.doubled q cs := by rw [Sql.doubled, if_neg other]
      rw [List.infix_cons_iff, List.infix_cons_iff, ih, ← spelled, prefix_doubled_iff free]

end

theorem holdsPlace_mark_iff {q : Char} (mark : q = '"' ∨ q = '.') (a b : List Char) :
    HoldsPlace (a ++ q :: b) ↔ HoldsPlace a ∨ HoldsPlace b := by
  have free : q ∉ ['?', ':', 'i', 'd'] ∧ q ∉ ['?', ':', 'v', 'a', 'l', 'u', 'e'] := by
    rcases mark with rfl | rfl <;> decide
  unfold HoldsPlace
  rw [infix_quote_iff free.1 (by decide), infix_quote_iff free.2 (by decide)]
  tauto

theorem not_holdsPlace_nil : ¬ HoldsPlace [] := by simp [HoldsPlace]

theorem holdsPlace_identifier_iff (s : String) : HoldsPlace (Sql.identifier s).toList ↔ HoldsPlace s.toList := by
  have quoted : (Sql.identifier s).toList = [] ++ '"' :: (Sql.doubled '"' s.toList ++ '"' :: []) := by
    simp [Sql.identifier, Sql.quotedWith]
  rw [quoted, holdsPlace_mark_iff (.inl rfl), holdsPlace_mark_iff (.inl rfl), or_iff_right not_holdsPlace_nil,
    or_iff_left not_holdsPlace_nil, HoldsPlace, infix_doubled_iff (by decide) (by decide),
    infix_doubled_iff (by decide) (by decide)]
  rfl

theorem holdsPlace_path_iff (names : List String) :
    HoldsPlace (Sql.path names).toList ↔ ∃ name ∈ names, HoldsPlace name.toList := by
  induction names using pathTokens.induct with
  | case1 => simp [Sql.path, not_holdsPlace_nil]
  | case2 s => simp [Sql.path, holdsPlace_identifier_iff]
  | case3 s t r ih =>
    rw [path_cons_cons, holdsPlace_mark_iff (.inr rfl), holdsPlace_identifier_iff, ih]
    simp

def Quoted (cs : List Char) : Prop := (∃ r, cs = '"' :: r) ∧ ∃ a, cs = a ++ ['"']

theorem quoted_identifier (s : String) : Quoted (Sql.identifier s).toList := by
  constructor
  · exact ⟨Sql.doubled '"' s.toList ++ ['"'], by simp [Sql.identifier, Sql.quotedWith]⟩
  · exact ⟨'"' :: Sql.doubled '"' s.toList, by simp [Sql.identifier, Sql.quotedWith]⟩

theorem quoted_path (s : String) (r : List String) : Quoted (Sql.path (s :: r)).toList := by
  induction r generalizing s with
  | nil => simpa [Sql.path] using quoted_identifier s
  | cons t r ih =>
    obtain ⟨-, a, rest⟩ := ih t
    obtain ⟨⟨b, first⟩, -⟩ := quoted_identifier s
    rw [path_cons_cons]
    constructor
    · exact ⟨b ++ '.' :: (Sql.path (t :: r)).toList, by rw [first]; rfl⟩
    · exact ⟨(Sql.identifier s).toList ++ '.' :: a, by rw [rest]; simp⟩

theorem ofTags_quote (a r : List Char) : ofTags (a ++ '"' :: r) = ofTags a ++ .char '"' :: ofTags r := by
  fun_induction ofTags a with
  | case1 => exact ofTags_char (by simp) (by simp)
  | case2 a ih => rw [List.cons_append, List.cons_append, List.cons_append, List.cons_append, ofTags, ih]; rfl
  | case3 a ih =>
    rw [List.cons_append, List.cons_append, List.cons_append, List.cons_append, List.cons_append, List.cons_append,
      List.cons_append, ofTags, ih]
    rfl
  | case4 c a name value ih =>
    have here : ofTags (c :: (a ++ '"' :: r)) = .char c :: ofTags (a ++ '"' :: r) := by
      apply ofTags_char
      · intro begins
        obtain ⟨s, same⟩ := prefix_of_quote (a := c :: a) (by decide) begins
        cases same
        exact name s rfl rfl
      · intro begins
        obtain ⟨s, same⟩ := prefix_of_quote (a := c :: a) (by decide) begins
        cases same
        exact value s rfl rfl
    rw [List.cons_append, here, ih]
    rfl

theorem ofTags_column {column : List Char} (quoted : Quoted column) (r : List Char) :
    ofTags (column ++ r) = ofTags column ++ ofTags r := by
  obtain ⟨-, a, rfl⟩ := quoted
  rw [List.append_assoc, List.singleton_append, ofTags_quote, ofTags_quote]
  simp [ofTags]

theorem prefix_of_insertColumn {w column : List Char} (free : '"' ∉ w) (quoted : Quoted column) {template : List Char}
    (begins : w <+: insertColumn column template) : w <+: template := by
  fun_induction insertColumn column template generalizing w with
  | case1 => exact begins
  | case2 r =>
    obtain ⟨⟨b, rfl⟩, -⟩ := quoted
    have empty := prefix_of_quote free (a := []) begins
    exact (List.prefix_nil.mp empty) ▸ List.nil_prefix
  | case3 c r other ih =>
    cases w with
    | nil => exact List.nil_prefix
    | cons d w =>
      obtain ⟨rfl, rest⟩ := List.cons_prefix_cons.mp begins
      exact List.cons_prefix_cons.mpr ⟨rfl, ih (fun member => free (List.mem_cons_of_mem _ member)) rest⟩

theorem parts_plain {cs : List Char} (plain : ¬ HoldsPlace cs) : parts false cs = cs.map .char := by
  induction cs with
  | nil => rfl
  | cons c r ih =>
    obtain ⟨name, value⟩ := not_or.mp plain
    have rest : ¬ HoldsPlace r := by
      rintro (inner | inner)
      · exact name (List.infix_cons_iff.mpr (.inr inner))
      · exact value (List.infix_cons_iff.mpr (.inr inner))
    have here := ofTags_char (fun begins => name begins.isInfix) (fun begins => value begins.isInfix)
    rw [← parts_ofTags, here, List.map_cons, parts_ofTags, ih rest]
    rfl

theorem spread_plain (column template : List Char) :
    (parts false template).flatMap (Part.spread column) = parts false template := by
  have each : ∀ p ∈ parts false template, Part.spread column p = [p] := by
    intro p member
    rw [← parts_ofTags] at member
    obtain ⟨slot, -, rfl⟩ := List.mem_map.mp member
    cases slot <;> rfl
  rw [List.flatMap_congr each, List.flatMap_singleton']

theorem insertColumn_name (column r : List Char) :
    insertColumn column ('?' :: ':' :: 'i' :: 'd' :: r) = '?' :: ':' :: 'i' :: 'd' :: insertColumn column r := by
  repeat rw [insertColumn]
  all_goals simp

theorem insertColumn_value (column r : List Char) :
    insertColumn column ('?' :: ':' :: 'v' :: 'a' :: 'l' :: 'u' :: 'e' :: r) =
      '?' :: ':' :: 'v' :: 'a' :: 'l' :: 'u' :: 'e' :: insertColumn column r := by
  repeat rw [insertColumn]
  all_goals simp

-- The places of a template with the column in it are its own, and those of the column where the column stands.
theorem parts_insertColumn {column : List Char} (quoted : Quoted column) (template : List Char) :
    (ofTags (insertColumn column template)).map Slot.part = (parts true template).flatMap (Part.spread column) := by
  generalize asked : true = first
  fun_induction parts first template with
  | case1 => rfl
  | case2 r ih =>
    rw [insertColumn, ofTags_column quoted, List.map_append, parts_ofTags, parts_ofTags, List.flatMap_cons, spread_plain]
    rfl
  | case3 first r ih =>
    rw [insertColumn_name, ofTags, List.map_cons, ih asked]
    rfl
  | case4 first r ih =>
    rw [insertColumn_value, ofTags, List.map_cons, ih asked]
    rfl
  | case5 first c r other name value ih =>
    have here : insertColumn column (c :: r) = c :: insertColumn column r := by
      rw [insertColumn]
      intro s same rest
      exact other s asked.symm same rest
    have spelled : ofTags (c :: insertColumn column r) = .char c :: ofTags (insertColumn column r) := by
      apply ofTags_char
      · intro begins
        rw [← here] at begins
        obtain ⟨s, same⟩ := prefix_of_insertColumn (by decide) quoted begins
        cases same
        exact name s rfl rfl
      · intro begins
        rw [← here] at begins
        obtain ⟨s, same⟩ := prefix_of_insertColumn (by decide) quoted begins
        cases same
        exact value s rfl rfl
    rw [here, spelled, List.map_cons, ih asked]
    rfl

section
variable (zone : Zone) (column : String) (arguments : List Value)

theorem text_fill (i : Nat) (slots : List Slot) :
    Sql.text zone (fill [] [] (arguments.drop i) slots) = filled zone column arguments i (slots.map Slot.part) := by
  induction slots generalizing i with
  | nil =>
    rw [fill]
    rfl
  | cons slot r ih =>
    cases slot with
    | char c =>
      rw [fill, Sql.text_cons, ih]
      rfl
    | name =>
      rw [fill_name, Sql.text_append, ih, List.map_cons]
      cases given : arguments[i]? <;> simp [Slot.part, filled, given, Sql.text, Piece.text, Sql.path]
    | value =>
      rw [fill_value, Sql.text_append, ih, List.map_cons]
      cases given : arguments[i]? <;> simp [Slot.part, filled, given, Sql.text, Piece.text]

theorem text_comparison {column : String} (quoted : Quoted column.toList) (template : String) :
    Sql.text zone (comparison template arguments column) =
      filled zone column arguments 0 ((parts true template.toList).flatMap (Part.spread column.toList)) := by
  rw [comparison, ← parts_insertColumn quoted, ← text_fill, List.drop_zero]

def OpensPlain (text : String) : Prop := ∃ c, text.toList.head? = some c ∧ c ≠ '?'

theorem opensPlain_stringLiteral (s : String) : OpensPlain (Sql.stringLiteral s) :=
  ⟨'\x27', by simp [Sql.stringLiteral, Sql.quotedWith], by decide⟩

theorem opensPlain_identifier (s : String) : OpensPlain (Sql.identifier s) :=
  ⟨'"', by simp [Sql.identifier, Sql.quotedWith], by decide⟩

theorem opensPlain_int (n : Int) : OpensPlain (intText n) := by
  obtain ⟨c, r, spelled⟩ := List.exists_cons_of_ne_nil (intDigits_ne_nil n)
  refine ⟨c, by simp [intText, spelled], ?_⟩
  rintro rfl
  rcases mem_intDigits n '?' (by simp [spelled]) with sign | digit
  · cases sign
  · cases digit

theorem opensPlain_finite (f : Decimal.Format) (negative : Bool) (m : Nat) (q : Int) :
    OpensPlain (String.ofList (plain.finiteText f negative m q)) := by
  have spelled : plain.finiteText f negative m q = signed negative (plain.finiteText f false m q) := rfl
  obtain ⟨d, r, body, digit⟩ := numeral_head (numeral_finiteText f m q)
  rw [spelled, body]
  cases negative with
  | false =>
    refine ⟨d, by simp [signed], ?_⟩
    rintro rfl
    cases digit
  | true => exact ⟨'-', by simp [signed], by decide⟩

theorem opensPlain_double (x : Binary64) : OpensPlain (Sql.doubleLiteral x) := by
  unfold Sql.doubleLiteral Binary64.text
  cases x.number with
  | finite negative m q => exact opensPlain_finite ..
  | _ => exact opensPlain_stringLiteral _

theorem opensPlain_single (x : Binary32) : OpensPlain (Sql.singleLiteral x) := by
  unfold Sql.singleLiteral Binary32.isFinite Binary32.text
  cases x.number with
  | finite negative m q => exact opensPlain_finite ..
  | _ => exact opensPlain_double _

theorem opensPlain_literal (v : Value) : OpensPlain (Sql.literal zone v) := by
  cases v with
  | null => exact ⟨'N', by simp [Sql.literal], by decide⟩
  | bool b => cases b <;> exact ⟨_, by simp [Sql.literal]; rfl, by decide⟩
  | int32 n | int64 n => exact opensPlain_int _
  | float32 x => exact opensPlain_single x
  | float64 x => exact opensPlain_double x
  | point x y => exact ⟨'P', by simp [Sql.literal], by decide⟩
  | _ => exact opensPlain_stringLiteral _

-- Where the arguments have run out, nothing is put in any more.
theorem filled_exhausted {i : Nat} (out : arguments.length ≤ i) (ps : List Part) :
    filled zone column arguments (i + 1) ps = filled zone column arguments i ps := by
  induction ps generalizing i with
  | nil => rfl
  | cons p r ih =>
    have here : arguments[i]? = none := List.getElem?_eq_none out
    have next : arguments[i + 1]? = none := List.getElem?_eq_none (by omega)
    cases p with
    | char c | column => rw [filled, filled, ih out]
    | name | value => rw [filled, filled, here, next, ih (by omega)]

theorem length_filled_le {i : Nat} (out : arguments.length ≤ i) (cs : List Char) (ps : List Part) :
    (filled zone column arguments i (parts false cs ++ ps)).length ≤
      cs.length + (filled zone column arguments i ps).length := by
  have here : arguments[i]? = none := List.getElem?_eq_none out
  rw [← parts_ofTags]
  fun_induction ofTags cs with
  | case1 => simp
  | case2 r ih | case3 r ih =>
    simp only [List.map_cons, List.cons_append, Slot.part, filled, here, Option.elim_none, String.empty_append,
      filled_exhausted zone column arguments out, List.length_cons]
    omega
  | case4 c r name value ih =>
    simp only [List.map_cons, List.cons_append, Slot.part, filled, String.length_append, String.length_singleton,
      List.length_cons]
    omega

theorem filled_place_ne {write : Value → String} (plain : ∀ v, OpensPlain (write v)) (i : Nat) (tag cs : List Char)
    (ps : List Part) :
    arguments[i]?.elim "" write ++ filled zone column arguments (i + 1) (parts false cs ++ ps) ≠
      String.ofList ('?' :: tag ++ cs) ++ filled zone column arguments i ps := by
  intro same
  cases given : arguments[i]? with
  | some v =>
    obtain ⟨c, first, other⟩ := plain v
    obtain ⟨r, spelled⟩ := List.head?_eq_some_iff.mp first
    have letters := congrArg String.toList same
    simp [given, spelled, other] at letters
  | none =>
    have out : arguments.length ≤ i := List.getElem?_eq_none_iff.mp given
    have shorter := length_filled_le zone column arguments out cs ps
    have lengths := congrArg String.length same
    simp only [given, Option.elim_none, String.empty_append, filled_exhausted zone column arguments out,
      String.length_append, String.length_ofList, List.cons_append, List.length_cons, List.length_append] at lengths
    omega

theorem filled_column_iff (i : Nat) (cs : List Char) (ps : List Part) :
    filled zone column arguments i (parts false cs ++ ps) = String.ofList cs ++ filled zone column arguments i ps ↔
      ¬ HoldsPlace cs := by
  constructor
  · intro same
    rw [← parts_ofTags] at same
    fun_induction ofTags cs with
    | case1 => exact not_holdsPlace_nil
    | case2 r ih =>
      rw [List.map_cons, parts_ofTags] at same
      exact absurd same (filled_place_ne zone column arguments (fun v => opensPlain_identifier v.nameText) i [':', 'i', 'd'] r ps)
    | case3 r ih =>
      rw [List.map_cons, parts_ofTags] at same
      exact absurd same (filled_place_ne zone column arguments (opensPlain_literal zone) i [':', 'v', 'a', 'l', 'u', 'e'] r ps)
    | case4 c r name value ih =>
      have spelled : String.ofList (c :: r) = String.singleton c ++ String.ofList r := String.ofList_cons
      rw [spelled, String.append_assoc] at same
      have rest := ih (String.append_right_inj _ |>.mp same)
      rintro (inside | inside) <;> rcases List.infix_cons_iff.mp inside with ⟨s, begins⟩ | later
      · cases begins
        exact name s rfl rfl
      · exact rest (.inl later)
      · cases begins
        exact value s rfl rfl
      · exact rest (.inr later)
  · intro plain
    rw [parts_plain plain]
    clear plain
    induction cs with
    | nil => simp
    | cons c r ih =>
      rw [List.map_cons, List.cons_append, filled, ih, String.ofList_cons, String.append_assoc]

theorem filled_spread_iff (i : Nat) (template : List Char) :
    filled zone column arguments i ((parts true template).flatMap (Part.spread column.toList)) =
        filled zone column arguments i (parts true template) ↔
      (.column ∈ parts true template → ¬ HoldsPlace column.toList) := by
  generalize asked : true = first
  fun_induction parts first template generalizing i with
  | case1 => simp
  | case2 r ih =>
    have rest := filled_column_iff zone column arguments i column.toList (parts false r)
    rw [List.flatMap_cons, spread_plain]
    simpa [Part.spread, filled] using rest
  | case3 first r ih | case4 first r ih =>
    simpa [Part.spread, filled] using ih (i + 1) asked
  | case5 first c r other name value ih =>
    simpa [Part.spread, filled] using ih i asked

end

-- A template is filled by one pass over it alone exactly when the names of the column hold no place, or the column
-- is not asked for. In every case its places are those of the template with the places of the column among them,
-- nothing else of the template changes, and what the arguments bring is not looked at.
theorem substituted_iff (zone : Zone) (template : String) (arguments : List Value) (table : Option String)
    (column : String) :
    (parts true template.toList).flatMap Part.written = template.toList ∧
    Sql.text zone (comparison template arguments (Sql.path (columnPath table column))) =
      filled zone (Sql.path (columnPath table column)) arguments 0
        ((parts true template.toList).flatMap (Part.spread (Sql.path (columnPath table column)).toList)) ∧
    (Sql.text zone (comparison template arguments (Sql.path (columnPath table column))) =
        substituted zone template arguments (Sql.path (columnPath table column)) ↔
      (.column ∈ parts true template.toList → ∀ name ∈ columnPath table column, ¬ HoldsPlace name.toList)) ∧
    (arguments.all (Sql.datesFit zone) = true →
      Sql.render zone (comparison template arguments (Sql.path (columnPath table column))) =
        .ok (Sql.text zone (comparison template arguments (Sql.path (columnPath table column))))) := by
  have quoted : Quoted (Sql.path (columnPath table column)).toList := by
    cases table with
    | none => exact quoted_path column []
    | some table => exact quoted_path table [column]
  have spread := text_comparison zone arguments quoted template
  have named := holdsPlace_path_iff (columnPath table column)
  refine ⟨written_parts true _, spread, ?_, fun dates => render_of_fits (fits_template dates _)⟩
  rw [spread, substituted, filled_spread_iff, named]
  simp only [not_exists, not_and]

-- Every place takes the next of the arguments, and those behind the last one take nothing.
theorem name_substituted :
    Sql.render .utc (comparison "LOWER(?:column) LIKE ?:value AND ?:id IS NOT NULL AND ?:value"
        [.text "?:id", .text "email"] (Sql.path (columnPath (some "t1") "name"))) =
      .ok "LOWER(\"t1\".\"name\") LIKE '?:id' AND \"email\" IS NOT NULL AND " := by
  obtain ⟨-, -, same, written⟩ := substituted_iff .utc
    "LOWER(?:column) LIKE ?:value AND ?:id IS NOT NULL AND ?:value" [.text "?:id", .text "email"] (some "t1") "name"
  have plain : ∀ name ∈ columnPath (some "t1") "name", ¬ HoldsPlace name.toList := by
    unfold HoldsPlace
    decide
  have text : substituted .utc "LOWER(?:column) LIKE ?:value AND ?:id IS NOT NULL AND ?:value"
      [.text "?:id", .text "email"] (Sql.path (columnPath (some "t1") "name")) =
        "LOWER(\"t1\".\"name\") LIKE '?:id' AND \"email\" IS NOT NULL AND " := by
    decide +kernel
  rw [written rfl, same.mpr fun _ => plain, text]

-- A column whose name holds a place takes the argument that the template has for its own.
theorem column_refilled :
    Sql.text .utc (comparison "?:column = ?:value" [.int32 1] (Sql.path (columnPath none "a?:value"))) =
      "\"a1\" = " ∧
    substituted .utc "?:column = ?:value" [.int32 1] (Sql.path (columnPath none "a?:value")) =
      "\"a?:value\" = 1" := by
  constructor <;> decide +kernel

end QueryKit.Template
