import Mathlib.Tactic.ByContra
import QueryKit.Decimal.Layout
import QueryKit.Proofs.Lexer

-- Numerals that a statement may hold: digits, with a point among them or not. Integers and the
-- positional text of finite numbers are such, behind a sign or not.

namespace QueryKit
open Text Decimal Lexer

theorem isDigit_digitChar (n : Nat) : (digitChar n).isDigit = true := by
  have bound : n % 10 < 10 := Nat.mod_lt _ (by decide)
  unfold digitChar
  generalize n % 10 = d at bound ⊢
  match d, bound with
  | 0, _ | 1, _ | 2, _ | 3, _ | 4, _ | 5, _ | 6, _ | 7, _ | 8, _ | 9, _ => decide
  | d + 10, h => exact absurd h (by omega)

theorem isDigit_of_mem_digits (n : Nat) : ∀ c ∈ digits n, c.isDigit = true := by
  induction n using digits.induct with
  | case1 n small =>
    intro c member
    rw [digits, if_pos small] at member
    cases List.mem_singleton.mp member
    exact isDigit_digitChar n
  | case2 n large ih =>
    intro c member
    rw [digits, if_neg large] at member
    rcases List.mem_append.mp member with earlier | last
    · exact ih c earlier
    · cases List.mem_singleton.mp last
      exact isDigit_digitChar n

theorem isDigit_of_mem_zeros (n : Nat) : ∀ c ∈ zeros n, c.isDigit = true := by
  intro c member
  cases (List.mem_replicate.mp member).2
  decide

inductive Numeral : List Char → Prop where
  | whole {ds : List Char} (filled : ds ≠ []) (all : ∀ c ∈ ds, c.isDigit = true) : Numeral ds
  | point {ds es : List Char} (filled : ds ≠ []) (all : ∀ c ∈ ds, c.isDigit = true)
      (rest : ∀ c ∈ es, c.isDigit = true) : Numeral (ds ++ '.' :: es)

theorem numeral_digits (n : Nat) : Numeral (digits n) :=
  .whole (digits_ne_nil n) (isDigit_of_mem_digits n)

theorem numeral_digitText (ds : List Char) (filled : ds ≠ []) (all : ∀ c ∈ ds, c.isDigit = true) (lead : Int) :
    Numeral (plain.digitText ds lead) := by
  have positional : plain.byPosition lead = true := rfl
  simp only [Layout.digitText, positional, if_true]
  split
  · show Numeral (['0'] ++ '.' :: (zeros _ ++ ds))
    refine .point (by simp) (by simp) ?_
    intro c member
    rcases List.mem_append.mp member with zero | digit
    · exact isDigit_of_mem_zeros _ c zero
    · exact all c digit
  · split
    · refine .whole (by simp [filled]) ?_
      intro c member
      simp only [plain, Bool.false_eq_true, if_false, List.append_nil] at member
      rcases List.mem_append.mp member with digit | zero
      · exact all c digit
      · exact isDigit_of_mem_zeros _ c zero
    · refine .point (by simp [filled]) ?_ ?_
      · exact fun c member => all c (List.mem_of_mem_take member)
      · exact fun c member => all c (List.mem_of_mem_drop member)

def signed (negative : Bool) (body : List Char) : List Char := if negative then '-' :: body else body

theorem numeral_finiteText (f : Decimal.Format) (m : Nat) (q : Int) : Numeral (plain.finiteText f false m q) := by
  simp only [Layout.finiteText, Bool.false_eq_true, if_false]
  split
  · exact .whole (by simp [plain]) (by simp [plain])
  · exact numeral_digitText _ (digits_ne_nil _) (isDigit_of_mem_digits _) _

theorem numeral_head {cs : List Char} (numeral : Numeral cs) : ∃ d r, cs = d :: r ∧ d.isDigit = true := by
  cases numeral with
  | whole some all =>
    obtain ⟨d, r, rfl⟩ := List.exists_cons_of_ne_nil some
    exact ⟨d, r, rfl, all d List.mem_cons_self⟩
  | @point ds es some all rest =>
    obtain ⟨d, r, rfl⟩ := List.exists_cons_of_ne_nil some
    exact ⟨d, r ++ '.' :: es, rfl, all d List.mem_cons_self⟩

theorem scan_number (ds : List Char) (all : ∀ c ∈ ds, c.isDigit = true) (read : List Char) :
    (Mode.number read).scan ds = ([], .number (ds.reverse ++ read)) := by
  induction ds generalizing read with
  | nil => rfl
  | cons c r ih =>
    have taken : (Mode.number read).step c = ([], .number (c :: read)) := by
      simp [Mode.step, Mode.extend?, all c List.mem_cons_self]
    simp only [Mode.scan, taken, ih fun d member => all d (List.mem_cons_of_mem _ member)]
    simp

theorem scan_fraction (ds : List Char) (all : ∀ c ∈ ds, c.isDigit = true) (read : List Char) :
    (Mode.fraction read).scan ds = ([], .fraction (ds.reverse ++ read)) := by
  induction ds generalizing read with
  | nil => rfl
  | cons c r ih =>
    have taken : (Mode.fraction read).step c = ([], .fraction (c :: read)) := by
      simp [Mode.step, Mode.extend?, all c List.mem_cons_self]
    simp only [Mode.scan, taken, ih fun d member => all d (List.mem_cons_of_mem _ member)]
    simp

theorem begin_digit (d : Char) (digit : d.isDigit = true) : Mode.begin d = ([], .number [d]) := by
  have solid : isSpace d = false := by
    by_contra blank
    simp only [isSpace, isNewline, Bool.not_eq_false, Bool.or_eq_true, beq_iff_eq] at blank
    rcases blank with (((rfl | rfl) | rfl | rfl) | rfl) | rfl <;> cases digit
  have plain : d ≠ '"' ∧ d ≠ '\x27' := by
    constructor <;> rintro rfl <;> cases digit
  simp only [Mode.begin, solid, plain, digit, Bool.false_eq_true, if_false, if_true]

theorem scan_numeral {cs : List Char} (numeral : Numeral cs) :
    ∃ m, Mode.ground.scan cs = ([], m) ∧ m.rests = true ∧ m.flush = some [.number (String.ofList cs)] := by
  cases numeral with
  | whole some all =>
    obtain ⟨d, r, rfl⟩ := List.exists_cons_of_ne_nil some
    refine ⟨.number (r.reverse ++ [d]), ?_, rfl, ?_⟩
    · simp only [Mode.scan, ground_step, begin_digit d (all d List.mem_cons_self),
        scan_number r fun c member => all c (List.mem_cons_of_mem _ member), List.nil_append]
    · simp [Mode.flush]
  | @point ds es some all rest =>
    obtain ⟨d, r, rfl⟩ := List.exists_cons_of_ne_nil some
    refine ⟨.fraction (es.reverse ++ '.' :: (r.reverse ++ [d])), ?_, rfl, ?_⟩
    · have pointed (read : List Char) : (Mode.number read).step '.' = ([], .fraction ('.' :: read)) := rfl
      simp only [List.cons_append, Mode.scan, ground_step, begin_digit d (all d List.mem_cons_self),
        Mode.scan_append, scan_number r fun c member => all c (List.mem_cons_of_mem _ member), pointed,
        scan_fraction es rest, List.nil_append]
    · simp [Mode.flush]

end QueryKit
