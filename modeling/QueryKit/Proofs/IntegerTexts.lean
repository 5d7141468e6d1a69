import Mathlib.Data.List.TakeWhile
import QueryKit.Coercion
import QueryKit.Proofs.FiniteNumbers
import QueryKit.Proofs.WallClock

-- Integers written as text, and what coercion to a number makes of them: the integer itself where an integer type holds
-- it, else the nearest floating-point number, and the text as it is where that would be infinite.

namespace QueryKit
open Text Decimal Calendar Value

def digitsNumber (ds : List Char) : Nat := ds.foldl (fun n d => n * 10 + (d.toNat - '0'.toNat)) 0

inductive IntegerText : List Char → Int → Prop where
  | unsigned {ds : List Char} (filled : ds ≠ []) (all : ∀ d ∈ ds, d.isDigit = true) : IntegerText ds (digitsNumber ds)
  | plus {ds : List Char} (filled : ds ≠ []) (all : ∀ d ∈ ds, d.isDigit = true) : IntegerText ('+' :: ds) (digitsNumber ds)
  | minus {ds : List Char} (filled : ds ≠ []) (all : ∀ d ∈ ds, d.isDigit = true) :
    IntegerText ('-' :: ds) (-(digitsNumber ds : Int))

-- Text that is an integer but for blanks on either side.
def WritesInteger (text : String) (i : Int) : Prop :=
  ∃ before cs behind, text.toList = before ++ cs ++ behind ∧ (∀ c ∈ before ++ behind, isBlank c = true) ∧ IntegerText cs i

section
variable {ds cs : List Char} {i : Int}

theorem digitValue?_digit {d : Char} (digit : d.isDigit = true) : digitValue? d = some (d.toNat - '0'.toNat) := by
  simp only [Char.isDigit, Bool.and_eq_true, decide_eq_true_eq] at digit
  rw [digitValue?, if_pos ⟨digit.1, digit.2⟩]
  rfl

theorem readDigits_all (all : ∀ d ∈ ds, d.isDigit = true) (acc : Nat) :
    readDigits acc ds = some (ds.foldl (fun n d => n * 10 + (d.toNat - '0'.toNat)) acc) := by
  induction ds generalizing acc with
  | nil => rfl
  | cons d r ih =>
    obtain ⟨digit, later⟩ := List.forall_mem_cons.mp all
    simp only [readDigits, digitValue?_digit digit, ih later, List.foldl_cons]

theorem readNat_all (filled : ds ≠ []) (all : ∀ d ∈ ds, d.isDigit = true) : readNat ds = some (digitsNumber ds) := by
  obtain ⟨d, r, rfl⟩ := List.exists_cons_of_ne_nil filled
  exact readDigits_all all 0

theorem unsigned_opening (filled : ds ≠ []) (all : ∀ d ∈ ds, d.isDigit = true) (sign : Char) (other : sign.isDigit = false)
    (r : List Char) : ds ≠ sign :: r := by
  rintro rfl
  have digit := all sign List.mem_cons_self
  rw [other] at digit
  cases digit

theorem IntegerText.readInt (integer : IntegerText cs i) : readInt cs = some i := by
  cases integer with
  | plus filled all | minus filled all =>
    rw [Text.readInt, readNat_all filled all]
    rfl
  | unsigned filled all =>
    unfold Text.readInt
    split
    case h_1 r => exact absurd rfl (unsigned_opening filled all '-' rfl r)
    case h_2 r => exact absurd rfl (unsigned_opening filled all '+' rfl r)
    case h_3 =>
      rw [readNat_all filled all]
      rfl

theorem IntegerText.solid (integer : IntegerText cs i) : cs ≠ [] ∧ ∀ c ∈ cs, isBlank c = false := by
  have plus : isBlank '+' = false := by decide
  have minus : isBlank '-' = false := by decide
  cases integer with
  | unsigned filled all => exact ⟨filled, fun c member => isBlank_digit (all c member)⟩
  | plus filled all =>
    exact ⟨List.cons_ne_nil _ _, List.forall_mem_cons.mpr ⟨plus, fun c member => isBlank_digit (all c member)⟩⟩
  | minus filled all =>
    exact ⟨List.cons_ne_nil _ _, List.forall_mem_cons.mpr ⟨minus, fun c member => isBlank_digit (all c member)⟩⟩

theorem dropWhile_blanks {blanks : List Char} (blank : ∀ c ∈ blanks, isBlank c = true) (filled : cs ≠ [])
    (solid : ∀ c ∈ cs, isBlank c = false) (r : List Char) : (blanks ++ cs ++ r).dropWhile isBlank = cs ++ r := by
  obtain ⟨c, rest, rfl⟩ := List.exists_cons_of_ne_nil filled
  rw [List.append_assoc, List.dropWhile_append_of_pos blank, List.cons_append,
    List.dropWhile_cons_of_neg (by simp [solid c List.mem_cons_self])]

theorem WritesInteger.trimmed {text : String} (writes : WritesInteger text i) : IntegerText (trim text.toList) i := by
  obtain ⟨before, cs, behind, spelled, blank, integer⟩ := writes
  obtain ⟨filled, solid⟩ := integer.solid
  obtain ⟨front, back⟩ := List.forall_mem_append.mp blank
  have reversed : ((cs ++ behind).reverse).dropWhile isBlank = cs.reverse := by
    have dropped : (behind.reverse ++ cs.reverse ++ []).dropWhile isBlank = cs.reverse ++ [] :=
      dropWhile_blanks (by simpa using back) (by simpa using filled) (by simpa using solid) []
    simpa using dropped
  rw [trim, spelled, dropWhile_blanks front filled solid, reversed, List.reverse_reverse]
  exact integer

theorem writes_digits (digits : String) (filled : digits.toList ≠ []) (all : digits.toList.all Char.isDigit = true) :
    WritesInteger digits (digitsNumber digits.toList) :=
  ⟨[], digits.toList, [], by simp, by simp, .unsigned filled (List.all_eq_true.mp all)⟩

theorem toLower_digit {d : Char} (digit : d.isDigit = true) : d.toLower = d := by
  simp only [Char.isDigit, Bool.and_eq_true, decide_eq_true_eq, UInt32.le_iff_toNat_le] at digit
  have high : d.val.toNat ≤ 57 := digit.2
  unfold Char.toLower
  split
  · rename_i upper
    have low : 65 ≤ d.val.toNat := upper.1
    omega
  · rfl

theorem sameLetters_digits (all : ∀ d ∈ ds, d.isDigit = true) {word : String} (letter : Char)
    (within : letter ∈ word.toList.map Char.toLower) (plain : letter.isDigit = false) :
    sameLetters (String.ofList ds) word = false := by
  have lower : ds.map Char.toLower = ds :=
    (List.map_congr_left fun d member => toLower_digit (all d member)).trans (List.map_id ds)
  unfold sameLetters
  rw [String.toList_ofList, lower, beq_eq_false_iff_ne]
  intro same
  have digit := all letter (same ▸ within)
  rw [plain] at digit
  cases digit

theorem splitDigits_all (all : ∀ d ∈ ds, d.isDigit = true) : splitDigits ds = (ds, []) := by
  have taken : ∀ d ∈ ds, (digitValue? d).isSome = true := fun d member => by rw [digitValue?_digit (all d member)]; rfl
  rw [splitDigits, List.takeWhile_eq_self_iff.mpr taken, List.dropWhile_eq_nil_iff.mpr taken]

theorem unsignedSpelling_all (filled : ds ≠ []) (all : ∀ d ∈ ds, d.isDigit = true) (negative : Bool) :
    unsignedSpelling negative ds = some (.numeral ⟨negative, digitsNumber ds, 0⟩) := by
  have inf : sameLetters (String.ofList ds) "inf" = false := sameLetters_digits all 'i' (by decide) rfl
  have infinity : sameLetters (String.ofList ds) "infinity" = false := sameLetters_digits all 'i' (by decide) rfl
  have nan : sameLetters (String.ofList ds) "nan" = false := sameLetters_digits all 'n' (by decide) rfl
  simp [unsignedSpelling, inf, infinity, nan, readNumeral, splitDigits_all all, readNat_all filled all, readExponent]

theorem IntegerText.spelling (integer : IntegerText cs i) :
    ∃ negative, readSpelling cs = some (.numeral ⟨negative, i.natAbs, 0⟩) ∧ (i ≠ 0 → negative = decide (i < 0)) := by
  cases integer with
  | minus filled all =>
    refine ⟨true, ?_, fun nonzero => ?_⟩
    · rw [readSpelling, unsignedSpelling_all filled all, Int.natAbs_neg, Int.natAbs_natCast]
    · rw [eq_comm, decide_eq_true_eq]
      omega
  | plus filled all =>
    refine ⟨false, ?_, fun _ => ?_⟩
    · rw [readSpelling, unsignedSpelling_all filled all, Int.natAbs_natCast]
    · rw [eq_comm, decide_eq_false_iff_not]
      omega
  | unsigned filled all =>
    refine ⟨false, ?_, fun _ => ?_⟩
    · unfold readSpelling
      split
      case h_1 r => exact absurd rfl (unsigned_opening filled all '-' rfl r)
      case h_2 r => exact absurd rfl (unsigned_opening filled all '+' rfl r)
      case h_3 => rw [unsignedSpelling_all filled all, Int.natAbs_natCast]
    · rw [eq_comm, decide_eq_false_iff_not]
      omega

theorem le_leading {n k : Nat} (reaches : twoTo k ≤ n) : k ≤ leading n 1 := by
  have nonzero : n ≠ 0 := Nat.ne_of_gt (Nat.lt_of_lt_of_le (twoTo_pos k) reaches)
  have above : (twoTo k : ℚ) ≤ n := by exact_mod_cast reaches
  have high := (leading_bounds nonzero Nat.one_pos).2
  rw [Nat.cast_one, div_one] at high
  rw [twoTo, Nat.pow_eq, Nat.cast_pow, Nat.cast_ofNat, ← zpow_natCast] at above
  have exponents : (k : Int) < leading n 1 + 1 := (zpow_lt_zpow_iff_right₀ (by norm_num)).mp (lt_of_le_of_lt above high)
  omega

-- From there on numbers are infinite, whatever is rounded.
theorem nearest_huge {n : Nat} (huge : twoTo 1025 ≤ n) : double.nearest n 1 = double.infinity := by
  have nonzero : n ≠ 0 := Nat.ne_of_gt (Nat.lt_of_lt_of_le (twoTo_pos _) huge)
  have lead := le_leading huge
  rw [nearest_double nonzero, double_infinity]
  dsimp only
  have ended : max (leading n 1 - 52) (-1074) = leading n 1 - 52 := by omega
  rw [ended]
  have places : 2047 ≤ (leading n 1 - 52 - -1074).toNat := by omega
  refine min_eq_right ?_
  calc 2047 * 2 ^ 52 ≤ (leading n 1 - 52 - -1074).toNat * 2 ^ 52 := Nat.mul_le_mul_right _ places
    _ ≤ _ := Nat.le_add_right _ _

theorem twoTo_le_tenTo : twoTo 1025 ≤ tenTo 400 := by decide +kernel

theorem ofNumeral_whole (negative : Bool) (n : Nat) : double.ofNumeral ⟨negative, n, 0⟩ = double.nearest n 1 := by
  unfold Format.ofNumeral
  dsimp only
  split
  · rename_i zero
    rw [zero]
    rfl
  · split
    · rename_i long
      have huge : tenTo 400 ≤ n := by
        by_contra small
        have short := length_digits_le 400 n (by decide) (by omega)
        omega
      exact (nearest_huge (Nat.le_trans twoTo_le_tenTo huge)).symm
    · rw [if_neg (by omega), Int.toNat_zero, neg_zero, Int.toNat_zero, tenTo_zero, Nat.mul_one]

theorem IntegerText.read (integer : IntegerText cs i) (nonzero : i ≠ 0) : Binary64.read cs = Option.some (.ofInt i) := by
  obtain ⟨negative, spelled, sign⟩ := integer.spelling
  rw [Binary64.read, spelled, Option.map_some, Format.ofSpelling, ofNumeral_whole, sign nonzero]
  rfl

end

section
variable {i j : Int} {s t : String} {v : Value}

-- Beyond the integer types: the nearest number, and the text where that is infinite.
def beyond (i : Int) (text : String) : Value :=
  if (Binary64.ofInt i).isFinite then .float64 (.ofInt i) else .text text

theorem Value.Narrowest.ne_beyond (narrowest : Narrowest i v) : v ≠ beyond j t := by
  unfold beyond
  cases narrowest <;> split <;> exact Value.noConfusion

theorem readInt64_integer {cs : List Char} (integer : IntegerText cs i) :
    readInt64 cs = if Fits64 i then some (Int64.ofInt i) else none := by
  rw [readInt64, integer.readInt, Option.bind_some]
  rfl

theorem number_fitting (writes : WritesInteger s i) (fits : Fits64 i) : Narrowest i (Coercer.number (.text s)) := by
  obtain ⟨v, held, narrowest⟩ := narrowest_of_fits fits
  have same : (Int64.ofInt i).toInt = i := Int64.toInt_ofInt_of_le fits.1 (by have := fits.2; omega)
  have read : NumberText.read s = some v := by
    simp only [NumberText.read, readInt64_integer writes.trimmed, if_pos fits, same, held, Option.getD_some]
  rw [Coercer.number, read]
  exact narrowest

theorem number_beyond (writes : WritesInteger s i) (outside : ¬Fits64 i) : Coercer.number (.text s) = beyond i s := by
  have nonzero : i ≠ 0 := by
    rintro rfl
    exact outside ⟨by decide, by decide⟩
  simp only [Coercer.number, NumberText.read, readInt64_integer writes.trimmed, if_neg outside, NumberText.finite?,
    writes.trimmed.read nonzero, beyond]
  split <;> rfl

theorem number_read (read : NumberText.read s = some v) : Coercer.number v = v := by
  unfold NumberText.read at read
  dsimp only at read
  split at read
  · rename_i n
    cases read
    unfold Value.ofInt?
    split
    · rfl
    · split <;> rfl
  · unfold NumberText.finite? at read
    split at read
    · split at read
      · cases read
        rfl
      · cases read
    · cases read

theorem number_number (v : Value) : Coercer.number (Coercer.number v) = Coercer.number v := by
  cases v with
  | text s =>
    cases read : NumberText.read s with
    | none => simp only [Coercer.number, read, Option.getD_none]
    | some v =>
      have made : Coercer.number (.text s) = v := by rw [Coercer.number, read, Option.getD_some]
      rw [made, number_read read]
  | _ => rfl

theorem WritesInteger.determines (first : WritesInteger s i) (second : WritesInteger s j) : i = j := by
  have same := first.trimmed.readInt.symm.trans second.trimmed.readInt
  exact Option.some.inj same

-- Beyond the integer types two integers are confused where they round to one finite number.
theorem beyond_eq_iff (first : WritesInteger s i) (second : WritesInteger t j) (apart : i ≠ j) :
    beyond i s = beyond j t ↔ Binary64.ofInt i = .ofInt j ∧ (Binary64.ofInt i).isFinite = true := by
  have texts : s ≠ t := by
    rintro rfl
    exact apart (first.determines second)
  constructor
  · intro same
    unfold beyond at same
    split at same
    · rename_i finite
      split at same
      · injection same with same
        exact ⟨same, finite⟩
      · cases same
    · split at same
      · cases same
      · injection same with same
        exact absurd same texts
  · rintro ⟨same, finite⟩
    rw [beyond, beyond, if_pos finite, ← same, if_pos finite]

-- Where an integer type holds one of two integers they stay apart; else they are confused exactly where they round to
-- one finite number. What is coerced once stays as it is.
theorem integers_apart (writes : WritesInteger s i) :
    (∀ t j, WritesInteger t j → i ≠ j → (Coercer.number (.text s) = Coercer.number (.text t) ↔
      ¬Fits64 i ∧ ¬Fits64 j ∧ Binary64.ofInt i = .ofInt j ∧ (Binary64.ofInt i).isFinite = true)) ∧
    (Fits64 i → Narrowest i (Coercer.number (.text s))) ∧
    ∀ v, Coercer.number (Coercer.number v) = Coercer.number v := by
  refine ⟨fun t j other apart => ?_, number_fitting writes, number_number⟩
  by_cases first : Fits64 i
  · have narrowest := number_fitting writes first
    refine ⟨fun same => ?_, fun confused => absurd first confused.1⟩
    by_cases second : Fits64 j
    · exact absurd (narrowest.determines (same ▸ number_fitting other second)) apart
    · exact absurd (same.trans (number_beyond other second)) narrowest.ne_beyond
  · rw [number_beyond writes first]
    by_cases second : Fits64 j
    · have narrowest := number_fitting other second
      exact ⟨fun same => absurd same.symm narrowest.ne_beyond, fun confused => absurd second confused.2.1⟩
    · rw [number_beyond other second, beyond_eq_iff writes other apart]
      exact ⟨fun confused => ⟨first, second, confused⟩, fun confused => confused.2.2⟩

theorem signedIds_apart :
    WritesInteger " +18446744073709551616\n" 18446744073709551616 ∧
    WritesInteger "-18446744073709551616" (-18446744073709551616) ∧
    Coercer.number (.text " +18446744073709551616\n") ≠ Coercer.number (.text "-18446744073709551616") ∧
    WritesInteger "9000000000" 9000000000 ∧ Narrowest 9000000000 (Coercer.number (.text "9000000000")) := by
  have blanks : ∀ c ∈ [' '] ++ ['\n'], isBlank c = true := List.all_eq_true.mp (by decide)
  have digits : ∀ d ∈ "18446744073709551616".toList, d.isDigit = true := List.all_eq_true.mp (by decide)
  have plus : WritesInteger " +18446744073709551616\n" 18446744073709551616 :=
    ⟨[' '], '+' :: "18446744073709551616".toList, ['\n'], by decide, blanks, .plus (by decide) digits⟩
  have minus : WritesInteger "-18446744073709551616" (-18446744073709551616) :=
    ⟨[], '-' :: "18446744073709551616".toList, [], by decide, by simp, .minus (by decide) digits⟩
  have wide : WritesInteger "9000000000" 9000000000 := writes_digits _ (by decide) (by decide)
  refine ⟨plus, minus, fun same => ?_, wide, (integers_apart wide).2.1 (by decide)⟩
  have confused := ((integers_apart plus).1 _ _ minus (by decide)).mp same
  exact absurd confused.2.2.1 (by decide +kernel)

-- 2^63 and its successor are one number.
theorem nextIds_confused :
    WritesInteger "9223372036854775808" 9223372036854775808 ∧ WritesInteger "9223372036854775809" 9223372036854775809 ∧
    Coercer.number (.text "9223372036854775808") = Coercer.number (.text "9223372036854775809") := by
  have first : WritesInteger "9223372036854775808" 9223372036854775808 := writes_digits _ (by decide) (by decide)
  have second : WritesInteger "9223372036854775809" 9223372036854775809 := writes_digits _ (by decide) (by decide)
  refine ⟨first, second, ?_⟩
  rw [number_beyond first (by decide), number_beyond second (by decide)]
  exact (beyond_eq_iff first second (by decide)).mpr ⟨by decide +kernel, by decide +kernel⟩

end

end QueryKit
