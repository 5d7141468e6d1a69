import Mathlib.Algebra.Order.Field.Power
import Mathlib.Tactic.Linarith
import Mathlib.Tactic.NormNum
import Mathlib.Tactic.Positivity
import Mathlib.Tactic.Ring
import QueryKit.Decimal.Binary

-- Which results of floating-point arithmetic are finite. What is rounded is compared with the largest finite
-- number as a rational, before it is rounded.

namespace QueryKit.Decimal

theorem roundHalfEven_le {num den k : Nat} (positive : 0 < den) (below : num ≤ k * den) :
    roundHalfEven num den ≤ k := by
  have parts := Nat.div_add_mod num den
  have quotient : num / den ≤ k := Nat.div_le_of_le_mul (by rwa [Nat.mul_comm] at below)
  have proper : 0 < num % den → num / den < k := by
    intro rest
    have less : den * (num / den) < den * k := by
      rw [Nat.mul_comm den k]
      omega
    exact Nat.lt_of_mul_lt_mul_left less
  unfold roundHalfEven
  dsimp only
  split
  · exact quotient
  · split
    · exact proper (by omega)
    · have := proper (by omega)
      omega

theorem le_roundHalfEven {num den k : Nat} (positive : 0 < den) (above : k * den ≤ num) :
    k ≤ roundHalfEven num den := by
  have quotient : k ≤ num / den := (Nat.le_div_iff_mul_le positive).mpr above
  unfold roundHalfEven
  dsimp only
  split
  · exact quotient
  · split <;> omega

def ratio (parts : Nat × Nat) : ℚ := parts.1 / parts.2

theorem ratio_scaled (num den : Nat) (power : Int) : ratio (scaled num den power) = num / den * 2 ^ power := by
  rcases Int.eq_nat_or_neg power with ⟨n, rfl | rfl⟩
  · simp [ratio, scaled, twoTo, Nat.pow_eq, div_mul_eq_mul_div]
  · simp only [ratio, scaled, twoTo, Nat.pow_eq, neg_neg, Int.toNat_neg_natCast, Int.toNat_natCast, zpow_neg, zpow_natCast]
    push_cast
    rw [mul_one, div_mul_eq_div_div, div_eq_mul_inv]

theorem scaled_pos (num : Nat) {den : Nat} (positive : 0 < den) (power : Int) : 0 < (scaled num den power).2 :=
  Nat.mul_pos positive (twoTo_pos _)

theorem ratio_le_iff {parts : Nat × Nat} (positive : 0 < parts.2) (k : Nat) :
    ratio parts ≤ k ↔ parts.1 ≤ k * parts.2 := by
  rw [ratio, div_le_iff₀ (by exact_mod_cast positive)]
  exact_mod_cast Iff.rfl

theorem le_ratio_iff {parts : Nat × Nat} (positive : 0 < parts.2) (k : Nat) :
    k ≤ ratio parts ↔ k * parts.2 ≤ parts.1 := by
  rw [ratio, le_div_iff₀ (by exact_mod_cast positive)]
  exact_mod_cast Iff.rfl

theorem one_le_ratio_iff {parts : Nat × Nat} (positive : 0 < parts.2) : 1 ≤ ratio parts ↔ parts.2 ≤ parts.1 := by
  rw [ratio, one_le_div₀ (by exact_mod_cast positive)]
  exact_mod_cast Iff.rfl

theorem ratio_bounds {num den : Nat} (counted : num ≠ 0) (positive : 0 < den) :
    (2 : ℚ) ^ ((Nat.log2 num : Int) - Nat.log2 den - 1) < num / den ∧
      (num / den : ℚ) < 2 ^ ((Nat.log2 num : Int) - Nat.log2 den + 1) := by
  have nonzero : den ≠ 0 := by omega
  have low : ((2 ^ Nat.log2 num : Nat) : ℚ) ≤ num := by exact_mod_cast Nat.log2_self_le counted
  have high : (num : ℚ) < (2 ^ (Nat.log2 num + 1) : Nat) := by exact_mod_cast Nat.lt_log2_self
  have less : ((2 ^ Nat.log2 den : Nat) : ℚ) ≤ den := by exact_mod_cast Nat.log2_self_le nonzero
  have more : (den : ℚ) < (2 ^ (Nat.log2 den + 1) : Nat) := by exact_mod_cast Nat.lt_log2_self
  have real : (0 : ℚ) < den := by exact_mod_cast positive
  push_cast at low high less more
  constructor
  · rw [lt_div_iff₀ real]
    calc (2 : ℚ) ^ ((Nat.log2 num : Int) - Nat.log2 den - 1) * den
        < 2 ^ ((Nat.log2 num : Int) - Nat.log2 den - 1) * 2 ^ (Nat.log2 den + 1) := by gcongr
      _ = 2 ^ Nat.log2 num := by
          rw [← zpow_natCast, ← zpow_add₀ (by norm_num), ← zpow_natCast]
          congr 1
          push_cast
          ring
      _ ≤ num := low
  · rw [div_lt_iff₀ real]
    calc (num : ℚ) < 2 ^ (Nat.log2 num + 1) := high
      _ = 2 ^ ((Nat.log2 num : Int) - Nat.log2 den + 1) * 2 ^ Nat.log2 den := by
          rw [← zpow_natCast, ← zpow_natCast, ← zpow_add₀ (by norm_num)]
          congr 1
          push_cast
          ring
      _ ≤ 2 ^ ((Nat.log2 num : Int) - Nat.log2 den + 1) * den := by gcongr

def leading (num den : Nat) : Int :=
  let size : Int := (Nat.log2 num : Int) - Nat.log2 den
  let (a, b) := scaled num den (-size)
  if b ≤ a then size else size - 1

theorem leading_bounds {num den : Nat} (nonzero : num ≠ 0) (positive : 0 < den) :
    (2 : ℚ) ^ leading num den ≤ num / den ∧ (num / den : ℚ) < 2 ^ (leading num den + 1) := by
  obtain ⟨low, high⟩ := ratio_bounds nonzero positive
  unfold leading
  dsimp only
  generalize (Nat.log2 num : Int) - Nat.log2 den = size at low high ⊢
  have reaches := one_le_ratio_iff (scaled_pos num positive (-size))
  rw [ratio_scaled, zpow_neg, ← div_eq_mul_inv, one_le_div₀ (by positivity)] at reaches
  split
  · rename_i full
    exact ⟨reaches.mpr full, high⟩
  · rename_i short
    rw [sub_add_cancel]
    exact ⟨low.le, lt_of_not_ge fun full => short (reaches.mp full)⟩

theorem double_least : double.least = -1074 := rfl

theorem double_infinity : double.infinity = 2047 * 2 ^ 52 := rfl

theorem double_signBit : double.signBit = 2 ^ 63 := rfl

theorem nearest_double {num den : Nat} (nonzero : num ≠ 0) :
    double.nearest num den =
      let q := max (leading num den - 52) (-1074)
      let parts := scaled num den (-q)
      min ((q - -1074).toNat * 2 ^ 52 + roundHalfEven parts.1 parts.2) double.infinity := by
  rw [Format.nearest, if_neg nonzero]
  rfl

def largest : Nat := (twoTo 53 - 1) * twoTo 971

theorem largest_eq : (largest : ℚ) = (2 ^ 53 - 1) * 2 ^ (971 : Int) := by
  have whole : (1 : Nat) ≤ 2 ^ 53 := Nat.one_le_two_pow
  simp only [largest, twoTo, Nat.pow_eq, Nat.cast_mul, Nat.cast_pow, Nat.cast_sub whole]
  rfl

theorem leading_le {num den : Nat} (nonzero : num ≠ 0) (positive : 0 < den) (bounded : (num / den : ℚ) ≤ largest) :
    leading num den ≤ 1023 := by
  by_contra large
  have reach : (2 : ℚ) ^ (1024 : Int) ≤ 2 ^ leading num den := zpow_le_zpow_right₀ (by norm_num) (by omega)
  have limit : (largest : ℚ) < 2 ^ (1024 : Int) := by
    have split : (2 : ℚ) ^ (1024 : Int) = 2 ^ 53 * 2 ^ (971 : Int) := by
      rw [← zpow_natCast, ← zpow_add₀ (by norm_num)]
      rfl
    rw [split, largest_eq]
    gcongr
    norm_num
  have low := (leading_bounds nonzero positive).1
  linarith

theorem rounded_le {num den : Nat} (nonzero : num ≠ 0) (positive : 0 < den) {q : Int} (enough : leading num den - 52 ≤ q) :
    roundHalfEven (scaled num den (-q)).1 (scaled num den (-q)).2 ≤ 2 ^ 53 := by
  have least := scaled_pos num positive (-q)
  refine roundHalfEven_le least ((ratio_le_iff least _).mp ?_)
  rw [ratio_scaled]
  calc (num / den : ℚ) * 2 ^ (-q) ≤ 2 ^ (leading num den + 1) * 2 ^ (-q) := by
        gcongr
        exact (leading_bounds nonzero positive).2.le
    _ = 2 ^ (leading num den + 1 - q) := by rw [← zpow_add₀ (by norm_num), sub_eq_add_neg]
    _ ≤ 2 ^ (53 : Int) := zpow_le_zpow_right₀ (by norm_num) (by omega)
    _ = (2 ^ 53 : Nat) := by norm_num

theorem rounded_largest_le {num den : Nat} (positive : 0 < den) (bounded : (num / den : ℚ) ≤ largest) :
    roundHalfEven (scaled num den (-971)).1 (scaled num den (-971)).2 ≤ 2 ^ 53 - 1 := by
  have least := scaled_pos num positive (-971)
  refine roundHalfEven_le least ((ratio_le_iff least _).mp ?_)
  rw [ratio_scaled]
  calc (num / den : ℚ) * 2 ^ (-971 : Int) ≤ largest * 2 ^ (-971 : Int) := by gcongr
    _ = 2 ^ 53 - 1 := by rw [largest_eq, mul_assoc, ← zpow_add₀ (by norm_num)]; norm_num
    _ = (2 ^ 53 - 1 : Nat) := by norm_num

theorem nearest_lt_infinity {num den : Nat} (positive : 0 < den) (bounded : (num / den : ℚ) ≤ largest) :
    double.nearest num den < double.infinity := by
  by_cases none : num = 0
  · subst none
    rw [Format.nearest, if_pos rfl]
    decide
  have limit := leading_le none positive bounded
  rw [nearest_double none, double_infinity]
  dsimp only
  generalize ended : max (leading num den - 52) (-1074) = q
  have rounded := rounded_le none positive (q := q) (by omega)
  apply lt_of_le_of_lt (min_le_left _ _)
  by_cases top : q = 971
  · subst top
    have below := rounded_largest_le positive bounded
    omega
  · omega

theorem one_le_nearest {num den : Nat} (positive : 0 < den) (full : den ≤ num) :
    1023 * 2 ^ 52 ≤ double.nearest num den := by
  have nonzero : num ≠ 0 := by omega
  obtain ⟨low, high⟩ := leading_bounds nonzero positive
  have whole : (1 : ℚ) ≤ num / den := by
    rw [one_le_div₀ (by exact_mod_cast positive)]
    exact_mod_cast full
  have lead : 0 ≤ leading num den := by
    by_contra negative
    have below : (2 : ℚ) ^ (leading num den + 1) ≤ 2 ^ (0 : Int) := zpow_le_zpow_right₀ (by norm_num) (by omega)
    rw [zpow_zero] at below
    linarith
  rw [nearest_double nonzero, double_infinity]
  dsimp only
  have ended : max (leading num den - 52) (-1074) = leading num den - 52 := by omega
  rw [ended]
  have least := scaled_pos num positive (-(leading num den - 52))
  have rounded : 2 ^ 52 ≤ roundHalfEven (scaled num den (-(leading num den - 52))).1
      (scaled num den (-(leading num den - 52))).2 := by
    refine le_roundHalfEven least ((le_ratio_iff least _).mp ?_)
    rw [ratio_scaled]
    calc ((2 ^ 52 : Nat) : ℚ) = 2 ^ leading num den * 2 ^ (-(leading num den - 52)) := by
          rw [← zpow_add₀ (by norm_num)]
          norm_num
      _ ≤ num / den * 2 ^ (-(leading num den - 52)) := by gcongr
  refine le_min ?_ (by norm_num)
  have places : 1022 ≤ (leading num den - 52 - -1074).toNat := by omega
  calc 1023 * 2 ^ 52 = 1022 * 2 ^ 52 + 2 ^ 52 := by norm_num
    _ ≤ _ := Nat.add_le_add (Nat.mul_le_mul_right _ places) rounded

def field (bits : Nat) : Nat := bits / 2 ^ 52 % 2 ^ 11

theorem number_finite {bits : Nat} (plain : field bits ≠ 2047) :
    ∃ negative m, ∃ q : Int, double.number bits = .finite negative m q ∧ m < 2 ^ 53 ∧ q ≤ 971 := by
  have bound : field bits < 2 ^ 11 := Nat.mod_lt _ (by decide)
  have rest : bits % 2 ^ 52 < 2 ^ 52 := Nat.mod_lt _ (by decide)
  have least := double_least
  unfold Format.number
  dsimp only
  split
  · rename_i special
    exact absurd special plain
  · split
    · exact ⟨_, _, _, rfl, Nat.lt_trans rest (by decide), by omega⟩
    · refine ⟨_, _, _, rfl, ?_, ?_⟩
      · show 2 ^ 52 + bits % 2 ^ 52 < 2 ^ 53
        omega
      · show double.least + (field bits : Nat) - 1 ≤ 971
        omega

theorem number_one_le {magnitude : Nat} (full : 1023 * 2 ^ 52 ≤ magnitude) (small : magnitude < double.infinity) :
    ∃ m, ∃ q : Int, double.number magnitude = .finite false m q ∧ (1 : ℚ) ≤ m * 2 ^ q := by
  rw [double_infinity] at small
  have exponent : magnitude / 2 ^ 52 % 2 ^ 11 = magnitude / 2 ^ 52 := Nat.mod_eq_of_lt (by omega)
  have unsigned : (magnitude / double.signBit % 2 == 1) = false := by
    rw [double_signBit, Nat.div_eq_of_lt (by omega)]
    rfl
  refine ⟨2 ^ 52 + magnitude % 2 ^ 52, -1074 + (magnitude / 2 ^ 52 : Nat) - 1, ?_, ?_⟩
  · unfold Format.number
    dsimp only
    rw [unsigned]
    have field : magnitude / twoTo double.fraction % twoTo double.exponent = magnitude / 2 ^ 52 := exponent
    rw [field]
    split
    · rename_i special
      have special : magnitude / 2 ^ 52 = 2 ^ 11 - 1 := special
      omega
    · rw [if_neg (by omega)]
      rfl
  · have whole : (2 ^ 52 : ℚ) ≤ (2 ^ 52 + magnitude % 2 ^ 52 : Nat) := by
      push_cast
      linarith [show (0 : ℚ) ≤ (magnitude % 2 ^ 52 : Nat) from Nat.cast_nonneg _]
    calc (1 : ℚ) = 2 ^ 52 * 2 ^ (-52 : Int) := by norm_num
      _ ≤ (2 ^ 52 + magnitude % 2 ^ 52 : Nat) * 2 ^ (-1074 + (magnitude / 2 ^ 52 : Nat) - 1 : Int) := by
          gcongr
          · norm_num
          · omega

theorem number_special {bits : Nat} (special : field bits = 2047) (negative : Bool) (m : Nat) (q : Int) :
    double.number bits ≠ .finite negative m q := by
  unfold Format.number
  dsimp only
  split
  · split <;> simp
  · rename_i plain
    exact absurd special plain

theorem withSign_false (magnitude : Nat) : double.withSign false magnitude = magnitude := rfl

theorem field_withSign {magnitude : Nat} (small : magnitude < double.infinity) (negative : Bool) :
    field (double.withSign negative magnitude) ≠ 2047 := by
  rw [double_infinity] at small
  unfold field Format.withSign
  rw [double_signBit]
  split <;> omega

namespace Binary64

theorem isFinite_iff (x : Binary64) : x.isFinite = true ↔ field x.bits.toNat ≠ 2047 := by
  unfold isFinite number
  constructor
  · intro finite special
    split at finite
    · rename_i same
      exact number_special special _ _ _ same
    · cases finite
  · intro plain
    obtain ⟨negative, m, q, same, -⟩ := number_finite plain
    rw [same]

theorem number_le {x : Binary64} {negative : Bool} {m : Nat} {q : Int} (same : x.number = .finite negative m q) :
    (m : ℚ) * 2 ^ q ≤ largest := by
  by_cases special : field x.bits.toNat = 2047
  · exact absurd same (number_special special _ _ _)
  obtain ⟨sign, n, p, finite, small, low⟩ := number_finite special
  cases finite.symm.trans same
  have whole : (m : ℚ) ≤ 2 ^ 53 - 1 := by
    have bound : m ≤ 2 ^ 53 - 1 := by omega
    calc (m : ℚ) ≤ (2 ^ 53 - 1 : Nat) := by exact_mod_cast bound
      _ = 2 ^ 53 - 1 := by norm_num
  calc (m : ℚ) * 2 ^ q ≤ (2 ^ 53 - 1) * 2 ^ (971 : Int) := by
        gcongr
        norm_num
    _ = largest := largest_eq.symm

theorem bits_ofRatio {num den : Nat} (small : double.nearest num den < double.infinity) (negative : Bool) :
    (ofRatio negative num den).bits.toNat = double.withSign negative (double.nearest num den) := by
  rw [double_infinity] at small
  rw [ofRatio, ofBits, UInt64.toNat_ofNat', Nat.mod_eq_of_lt]
  unfold Format.withSign
  rw [double_signBit]
  split <;> omega

theorem isFinite_ofRatio {num den : Nat} (positive : 0 < den) (bounded : (num / den : ℚ) ≤ largest) (negative : Bool) :
    (ofRatio negative num den).isFinite = true := by
  have small := nearest_lt_infinity positive bounded
  rw [isFinite_iff, bits_ofRatio small]
  exact field_withSign small negative

theorem isFinite_ofNat {n : Nat} (bounded : n ≤ largest) (negative : Bool) :
    (ofRatio negative n 1).isFinite = true := by
  refine isFinite_ofRatio Nat.one_pos ?_ negative
  rw [Nat.cast_one, div_one]
  exact_mod_cast bounded

theorem isFinite_div {x y : Binary64} (finite : x.isFinite = true) {negative : Bool} {n : Nat} {p : Int}
    (divisor : y.number = .finite negative n p) (full : (1 : ℚ) ≤ n * 2 ^ p) : (x.div y).isFinite = true := by
  rw [isFinite_iff] at finite
  obtain ⟨sign, m, q, same, -⟩ := number_finite finite
  have dividend : x.number = .finite sign m q := same
  have nonzero : n ≠ 0 := by
    rintro rfl
    norm_num at full
  have least := scaled_pos m (Nat.pos_of_ne_zero nonzero) (q - p)
  have bounded : ratio (scaled m n (q - p)) ≤ largest := by
    rw [ratio_scaled]
    calc (m / n : ℚ) * 2 ^ (q - p) = m * 2 ^ q / (n * 2 ^ p) := by
          rw [zpow_sub₀ (by norm_num), div_mul_div_comm]
      _ ≤ m * 2 ^ q := div_le_self (by positivity) full
      _ ≤ largest := number_le dividend
  rw [div, dividend, divisor]
  dsimp only
  rw [if_neg nonzero]
  exact isFinite_ofRatio least bounded _

theorem isFinite_neg (x : Binary64) : x.neg.isFinite = x.isFinite := by
  have same : field x.neg.bits.toNat = field x.bits.toNat := by
    have sign : (0x8000000000000000 : UInt64).toNat / 2 ^ 52 % 2 ^ 11 = 0 := by decide
    rw [neg, field, UInt64.toNat_xor, Nat.xor_div_two_pow, Nat.xor_mod_two_pow, sign, Nat.xor_zero, field]
  rw [Bool.eq_iff_iff, isFinite_iff, isFinite_iff, same]

end Binary64

end QueryKit.Decimal
