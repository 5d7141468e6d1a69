import QueryKit.Json.Reader
import QueryKit.Proofs.FiniteNumbers
import QueryKit.Value.Json

-- JSON values on their way through values. The numbers of a JSON text are integers of 64 bits, signed or not, and
-- finite floats; values have no unsigned integers, and those above the signed ones become floats.

namespace QueryKit.Json
open Text Decimal

inductive Admitted : Json → Prop where
  | null : Admitted .null
  | bool (b : Bool) : Admitted (.bool b)
  | integer {n : Int} (low : -9223372036854775808 ≤ n) (high : n ≤ 18446744073709551615) : Admitted (.integer n)
  | real {x : Binary64} (finite : x.isFinite = true) : Admitted (.real x)
  | text (s : String) : Admitted (.text s)
  | array {items : List Json} (each : ∀ j ∈ items, Admitted j) : Admitted (.array items)
  | object {members : List (String × Json)} (each : ∀ m ∈ members, Admitted m.2) : Admitted (.object members)

theorem absorb_le {acc : Nat} (small : acc ≤ largestSignificand) (ds : List Char) :
    (absorb acc ds).1 ≤ largestSignificand := by
  induction ds generalizing acc with
  | nil => exact small
  | cons c r ih =>
    simp only [absorb]
    split
    · rename_i fits
      exact ih fits
    · exact small

theorem isFinite_significand {n : Nat} (small : n ≤ largestSignificand) (negative : Bool) :
    (Binary64.ofRatio negative n 1).isFinite = true :=
  Binary64.isFinite_ofNat (Nat.le_trans small (by decide +kernel)) negative

theorem tenTo_le {m n : Nat} (small : m ≤ n) : tenTo m ≤ tenTo n := by
  obtain ⟨k, rfl⟩ := Nat.exists_eq_add_of_le small
  rw [tenTo_add]
  exact Nat.le_mul_of_pos_right _ (tenTo_pos k)

theorem tenTo_largestPower_le : tenTo largestPower ≤ largest := by decide +kernel

theorem powerOfTen_number {n : Nat} (small : n ≤ largestPower) :
    ∃ m, ∃ q : Int, (powerOfTen n).number = .finite false m q ∧ (1 : ℚ) ≤ m * 2 ^ q := by
  have bounded : ((tenTo n : ℚ) / (1 : Nat)) ≤ largest := by
    rw [Nat.cast_one, div_one]
    exact_mod_cast Nat.le_trans (tenTo_le small) tenTo_largestPower_le
  have below := nearest_lt_infinity Nat.one_pos bounded
  rw [Binary64.number, powerOfTen, Binary64.bits_ofRatio below, withSign_false]
  exact number_one_le (one_le_nearest Nat.one_pos (tenTo_pos n)) below

theorem isFinite_scaleByTen {f x : Binary64} {exponent : Int} (finite : f.isFinite = true)
    (scaled : scaleByTen f exponent = some x) : x.isFinite = true := by
  fun_induction scaleByTen f exponent with
  | case1 f exponent _ _ product bounded =>
    rw [← Option.some.inj scaled]
    exact bounded
  | case2 => cases scaled
  | case3 f exponent near negative =>
    cases scaled
    obtain ⟨m, q, divisor, full⟩ := powerOfTen_number near
    exact Binary64.isFinite_div finite divisor full
  | case4 =>
    cases scaled
    exact finite
  | case5 => cases scaled
  | case6 f exponent _ _ _ ih =>
    obtain ⟨m, q, divisor, full⟩ := powerOfTen_number (Nat.le_refl largestPower)
    exact ih (Binary64.isFinite_div finite divisor full) scaled

theorem isFinite_withSign {x : Binary64} (finite : x.isFinite = true) (negative : Bool) :
    (withSign negative x).isFinite = true := by
  unfold withSign
  split
  · rw [Binary64.isFinite_neg, finite]
  · exact finite

theorem isFinite_zero (negative : Bool) : (Binary64.zero negative).isFinite = true := by
  cases negative <;> rfl

theorem admitted_scaled {f : Binary64} (finite : f.isFinite = true) {exponent : Int} {negative : Bool} {j : Json}
    (scaled : (scaleByTen f exponent).map (fun x => Json.real (withSign negative x)) = some j) : Admitted j := by
  obtain ⟨x, result, rfl⟩ := Option.map_eq_some_iff.mp scaled
  exact .real (isFinite_withSign (isFinite_scaleByTen finite result) negative)

theorem admitted_literal {l : Literal} {j : Json} (read : l.json? = some j) : Admitted j := by
  unfold Literal.json? at read
  have whole := absorb_le (Nat.zero_le largestSignificand) l.whole
  dsimp only at read
  split at read
  · split at read
    · cases read
      exact .integer (by omega) (by unfold largestSignificand at whole; omega)
    · split at read
      · rename_i bounds
        cases read
        exact .integer (by omega) (by omega)
      · cases read
        exact .real (isFinite_significand whole true)
  · have finite := isFinite_significand (absorb_le whole l.fraction) false
    split at read
    · exact admitted_scaled finite read
    · split at read
      · split at read
        · cases read
        · cases read
          exact .real (isFinite_zero l.negative)
      · exact admitted_scaled finite read

mutual
theorem admitted_tree (t : Tree) {depth : Nat} {j : Json} (read : t.json? depth = some j) : Admitted j := by
  cases t with
  | null =>
    cases read
    exact .null
  | bool b =>
    cases read
    exact .bool b
  | number l => exact admitted_literal read
  | text s =>
    obtain ⟨text, -, rfl⟩ := Option.map_eq_some_iff.mp read
    exact .text text
  | array items =>
    rw [Tree.json?] at read
    split at read
    · cases read
    · obtain ⟨js, inside, rfl⟩ := Option.map_eq_some_iff.mp read
      exact .array (admitted_items items inside)
  | object members =>
    rw [Tree.json?] at read
    split at read
    · cases read
    · obtain ⟨js, inside, rfl⟩ := Option.map_eq_some_iff.mp read
      exact .object fun m kept => admitted_members members inside m (Sorted.mem_of_mem_ofPairs kept)
theorem admitted_items (items : List Tree) {depth : Nat} {js : List Json} (read : Tree.items? depth items = some js) :
    ∀ j ∈ js, Admitted j := by
  cases items with
  | nil =>
    cases read
    simp
  | cons t r =>
    rw [Tree.items?] at read
    split at read
    · rename_i first later
      cases read
      exact List.forall_mem_cons.mpr ⟨admitted_tree t first, admitted_items r later⟩
    · cases read
theorem admitted_members (members : List (List Letter × Tree)) {depth : Nat} {js : List (String × Json)}
    (read : Tree.members? depth members = some js) : ∀ m ∈ js, Admitted m.2 := by
  cases members with
  | nil =>
    cases read
    simp
  | cons m r =>
    obtain ⟨k, t⟩ := m
    rw [Tree.members?] at read
    split at read
    · rename_i _ first later
      cases read
      exact List.forall_mem_cons.mpr ⟨admitted_tree t first, admitted_members r later⟩
    · cases read
end

theorem admitted_of_read {s : String} {j : Json} (text : Json.read s = some j) : Admitted j := by
  obtain ⟨t, -, digested⟩ := Option.bind_eq_some_iff.mp text
  exact admitted_tree t digested

mutual
-- No integer outside of objects is above the signed ones.
def isSigned : Json → Bool
  | .integer n => n ≤ 9223372036854775807
  | .array items => areSigned items
  | _ => true
def areSigned : List Json → Bool
  | [] => true
  | j :: r => isSigned j && areSigned r
end

mutual
-- Such integers as the nearest floats.
def floated : Json → Json
  | .integer n => if n ≤ 9223372036854775807 then .integer n else .real (.ofInt n)
  | .array items => .array (floatedAll items)
  | j => j
def floatedAll : List Json → List Json
  | [] => []
  | j :: r => floated j :: floatedAll r
end

mutual
theorem floated_eq_iff (j : Json) : floated j = j ↔ isSigned j = true := by
  cases j with
  | integer n =>
    rw [floated, isSigned, decide_eq_true_eq]
    split <;> simp_all
  | array items =>
    rw [floated, isSigned, Json.array.injEq]
    exact floatedAll_eq_iff items
  | _ => simp [floated, isSigned]
theorem floatedAll_eq_iff (items : List Json) : floatedAll items = items ↔ areSigned items = true := by
  cases items with
  | nil => simp [floatedAll, areSigned]
  | cons j r => rw [floatedAll, areSigned, List.cons.injEq, Bool.and_eq_true, floated_eq_iff j, floatedAll_eq_iff r]
end

end QueryKit.Json

namespace QueryKit
open Decimal

theorem Value.toJson_ofInt {n : Int} (low : -9223372036854775808 ≤ n) (high : n ≤ 9223372036854775807) :
    ∃ v, Value.ofInt? n = some v ∧ v.toJson = .integer n := by
  obtain ⟨v, held, narrowest⟩ := Value.narrowest_of_fits ⟨low, high⟩
  refine ⟨v, held, ?_⟩
  cases narrowest <;> rfl

theorem Value.toJson_float64 {x : Binary64} (finite : x.isFinite = true) : (Value.float64 x).toJson = .real x := by
  rw [Value.toJson, Json.ofBinary, if_pos finite]

theorem Json.toJson_ofInteger {n : Int} (low : -9223372036854775808 ≤ n) (high : n ≤ 18446744073709551615) :
    (Value.ofJson (.integer n)).toJson = (Json.integer n).floated := by
  rw [Value.ofJson, Json.floated]
  split
  · rename_i signed
    obtain ⟨v, same, json⟩ := Value.toJson_ofInt low signed
    rw [same]
    exact json
  · rename_i large
    have unheld : Value.ofInt? n = none := Value.ofInt?_of_not_fits fun fits => large fits.2
    have small : n.natAbs ≤ Json.largestSignificand := by
      unfold Json.largestSignificand
      omega
    rw [unheld]
    exact Value.toJson_float64 (Json.isFinite_significand small _)

mutual
theorem Json.toJson_ofJson (j : Json) (admitted : j.Admitted) : (Value.ofJson j).toJson = j.floated := by
  cases j with
  | integer n =>
    cases admitted with
    | integer low high => exact Json.toJson_ofInteger low high
  | real x =>
    cases admitted with
    | real finite => exact Value.toJson_float64 finite
  | array items =>
    cases admitted with
    | array each => rw [Value.ofJson, Value.toJson, Json.floated, Json.toJsons_ofJsons items each]
  | _ => rfl
theorem Json.toJsons_ofJsons (items : List Json) (each : ∀ j ∈ items, j.Admitted) :
    Value.toJsons (Value.ofJsons items) = Json.floatedAll items := by
  cases items with
  | nil => rfl
  | cons j r =>
    obtain ⟨first, later⟩ := List.forall_mem_cons.mp each
    rw [Value.ofJsons, Value.toJsons, Json.floatedAll, Json.toJson_ofJson j first, Json.toJsons_ofJsons r later]
end

-- What a JSON text says comes back from a value as it was when no integer outside of objects is above the signed
-- ones of 64 bits, and only then: those become floats, and nothing else changes.
theorem json_kept_iff (j : Json) : (∀ s, Json.read s = some j → j.Admitted) ∧
    (j.Admitted → (Value.ofJson j).toJson = j.floated ∧ ((Value.ofJson j).toJson = j ↔ j.isSigned = true)) := by
  refine ⟨fun s read => Json.admitted_of_read read, fun admitted => ?_⟩
  have result := Json.toJson_ofJson j admitted
  refine ⟨result, ?_⟩
  rw [result]
  exact Json.floated_eq_iff j

def widths : Json :=
  .array [.integer (-9223372036854775808), .integer (-2147483649), .integer 2147483647, .integer 9223372036854775807,
    .real (.zero true), .array [.array [], .null], .object [("id", .integer 18446744073709551615)]]

theorem widths_kept : widths.Admitted ∧ widths.isSigned = true ∧ (Value.ofJson widths).toJson = widths := by
  have admitted : widths.Admitted := by
    refine .array ?_
    simp only [List.forall_mem_cons]
    refine ⟨.integer (by decide) (by decide), .integer (by decide) (by decide), .integer (by decide) (by decide),
      .integer (by decide) (by decide), .real rfl, .array ?_, .object ?_, by simp⟩
    · simp only [List.forall_mem_cons]
      exact ⟨.array (by simp), .null, by simp⟩
    · simp only [List.forall_mem_cons]
      exact ⟨.integer (by decide) (by decide), by simp⟩
  have signed : widths.isSigned = true := by decide
  exact ⟨admitted, signed, (((json_kept_iff widths).2 admitted).2).mpr signed⟩

-- The first integer above the signed ones. A value that holds it as JSON would keep it.
theorem unsigned_lost : (Json.integer 9223372036854775808).Admitted ∧
    (Value.ofJson (.integer 9223372036854775808)).toJson = .real (.ofBits 0x43E0000000000000) ∧
    (Value.ofJson (.integer 9223372036854775808)).toJson ≠ .integer 9223372036854775808 ∧
    (Value.json (.integer 9223372036854775808)).toJson = .integer 9223372036854775808 := by
  have admitted : (Json.integer 9223372036854775808).Admitted := .integer (by decide) (by decide)
  have nearest : Binary64.ofInt 9223372036854775808 = .ofBits 0x43E0000000000000 := by decide +kernel
  have given := Json.toJson_ofJson _ admitted
  rw [Json.floated, if_neg (by decide), nearest] at given
  refine ⟨admitted, given, ?_, rfl⟩
  rw [given]
  simp

end QueryKit
