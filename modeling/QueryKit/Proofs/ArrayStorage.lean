import Mathlib.Tactic.IntervalCases
import QueryKit.Coercion
import QueryKit.Proofs.ArrayReading
import QueryKit.Proofs.Numerals

-- Array properties on their way to storage and back: what the writer spells is what the reader takes
-- it for, element by element and at every depth.

namespace QueryKit.Text

theorem readInt_digits (n : Nat) : readInt (digits n) = some (n : Int) := by
  obtain ⟨c, r, spelled⟩ := List.exists_cons_of_ne_nil (digits_ne_nil n)
  have digit : c.isDigit = true := isDigit_of_mem_digits n c (by simp [spelled])
  have read := readNat_digits n
  rw [spelled] at read ⊢
  unfold readInt
  split
  · rename_i same
    cases same
    cases digit
  · rename_i same
    cases same
    cases digit
  · rw [read]
    rfl

theorem readInt_intDigits (i : Int) : readInt (intDigits i) = some i := by
  unfold intDigits
  split
  · rename_i negative
    simp only [readInt, readNat_digits, Option.bind_eq_bind, Option.bind_some, Option.pure_def, Option.map_some,
      Option.some.injEq]
    omega
  · rename_i natural
    rw [readInt_digits, Option.some.injEq]
    omega

theorem readInt32_intDigits (n : Int32) : readInt32 (intDigits n.toInt) = some n := by
  have low := n.le_toInt
  have high := n.toInt_lt
  rw [readInt32, readInt_intDigits, Option.bind_some, if_pos (by omega), Int32.ofInt_toInt]

theorem readInt64_intDigits (n : Int64) : readInt64 (intDigits n.toInt) = some n := by
  have low := n.le_toInt
  have high := n.toInt_lt
  rw [readInt64, readInt_intDigits, Option.bind_some, if_pos (by omega), Int64.ofInt_toInt]

theorem intDigits_ne_nil (i : Int) : intDigits i ≠ [] := by
  unfold intDigits
  split <;> simp [digits_ne_nil]

theorem mem_intDigits (i : Int) : ∀ c ∈ intDigits i, c = '-' ∨ c.isDigit = true := by
  intro c member
  unfold intDigits at member
  split at member
  · rcases List.mem_cons.mp member with sign | digit
    · exact .inl sign
    · exact .inr (isDigit_of_mem_digits _ c digit)
  · exact .inr (isDigit_of_mem_digits _ c member)

end QueryKit.Text

namespace QueryKit

mutual
-- Values an array with elements of a type is made of: null, any text, values of that type and arrays
-- of such. Floats are left out.
def Value.isElement (type : ElementType) : Value → Bool
  | .null => true
  | .text _ => true
  | .int32 _ => type == .int4
  | .int64 _ => type == .int8
  | .bool _ => type == .bool
  | .array items => Value.areElements type items
  | _ => false
def Value.areElements (type : ElementType) : List Value → Bool
  | [] => true
  | v :: r => v.isElement type && Value.areElements type r
end

namespace ArrayText
open Text

variable {type : ElementType}

theorem elementsChars_eq_map (items : List Value) : elementsChars items = items.map elementChars := by
  induction items with
  | nil => rfl
  | cons v r ih => rw [elementsChars, ih, List.map_cons]

-- A bare element without blanks is read as a value of the element type, unless it may be NULL.
theorem spells_typed {cs : List Char} {v : Value} (written : (cs.all fun c => isBare c && !isBlank c) = true)
    (begins : ∃ c r, cs = c :: r ∧ c ≠ '\x7b' ∧ c ≠ '"' ∧ c.toLower ≠ 'n') (typed : typedElement? type cs = some v) :
    Spells type cs v := by
  have plain : ∀ c ∈ cs, isBare c = true ∧ isBlank c = false := by
    intro c member
    simpa using List.all_eq_true.mp written c member
  have whole : trim cs = cs := by
    rw [trim_eq_self_iff]
    constructor
    · intro c front
      exact (plain c (List.mem_of_mem_head? front)).2
    · intro c back
      exact (plain c (List.mem_of_mem_getLast? back)).2
  obtain ⟨c, r, rfl, unbraced, unquoted, solid⟩ := begins
  have other : sameLetters (String.ofList (c :: r)) "NULL" = false := by
    simp [sameLetters, solid]
  have spells : Spells type (c :: r) (bareElement type (trim (c :: r))) :=
    spells_bare (fun d member => (plain d member).1) ⟨c, r, rfl, unbraced, unquoted⟩
  rw [whole, bareElement, other, typed] at spells
  exact spells

theorem plain_numeric {c : Char} (numeric : c = '-' ∨ c.isDigit = true) :
    (isBare c = true ∧ isBlank c = false) ∧ c ≠ '\x7b' ∧ c ≠ '"' ∧ c.toLower ≠ 'n' := by
  rcases numeric with rfl | digit
  · decide
  · simp only [Char.isDigit, ge_iff_le, Bool.and_eq_true, decide_eq_true_eq] at digit
    obtain ⟨n, low, high, rfl⟩ : ∃ n, 48 ≤ n ∧ n ≤ 57 ∧ c = Char.ofNat n :=
      ⟨c.toNat, digit.1, digit.2, (Char.ofNat_toNat c).symm⟩
    clear digit
    interval_cases n <;> decide

theorem spells_int {v : Value} (i : Int) (typed : typedElement? type (intDigits i) = some v) :
    Spells type (intDigits i) v := by
  obtain ⟨c, r, spelled⟩ := List.exists_cons_of_ne_nil (intDigits_ne_nil i)
  have numeric := mem_intDigits i
  apply spells_typed _ _ typed
  · rw [List.all_eq_true]
    intro d member
    simpa using (plain_numeric (numeric d member)).1
  · exact ⟨c, r, spelled, (plain_numeric (numeric c (by simp [spelled]))).2⟩

theorem spells_bool (b : Bool) : Spells .bool (toString b).toList (.bool b) := by
  cases b
  · exact spells_typed (by decide) ⟨'f', _, rfl, by decide⟩ rfl
  · exact spells_typed (by decide) ⟨'t', _, rfl, by decide⟩ rfl

theorem spells_null : Spells type ['N', 'U', 'L', 'L'] .null :=
  spells_bare (List.all_eq_true.mp rfl) ⟨'N', _, rfl, by decide⟩

mutual
theorem spells_element (v : Value) (fits : v.isElement type = true) : Spells type (elementChars v) v := by
  cases v with
  | null => exact spells_null
  | text s => exact spells_quoted_text s
  | int32 n =>
    cases LawfulBEq.eq_of_beq fits
    exact spells_int n.toInt (by rw [typedElement?, readInt32_intDigits]; rfl)
  | int64 n =>
    cases LawfulBEq.eq_of_beq fits
    exact spells_int n.toInt (by rw [typedElement?, readInt64_intDigits]; rfl)
  | bool b =>
    cases LawfulBEq.eq_of_beq fits
    exact spells_bool b
  | array items =>
    have braced := spells_braced _ (spells_elements items fits)
    simp only [List.map_map, Function.comp_def, List.map_id'] at braced
    rw [elementChars, elementsChars_eq_map]
    exact braced
  | _ => cases fits
theorem spells_elements (items : List Value) (fits : Value.areElements type items = true) :
    ∀ part ∈ items.map fun v => (elementChars v, v), Spells type part.1 part.2 := by
  cases items with
  | nil => simp
  | cons v r =>
    rw [Value.areElements, Bool.and_eq_true] at fits
    rw [List.map_cons, List.forall_mem_cons]
    exact ⟨spells_element v fits.1, spells_elements r fits.2⟩
end

theorem decode_encode (items : List Value) (fits : Value.areElements type items = true) :
    decode? type (encode items) = some items := by
  have decoded := decode_braced _ (spells_elements items fits)
  simp only [List.map_map, Function.comp_def, List.map_id'] at decoded
  rw [encode, elementsChars_eq_map]
  exact decoded

end ArrayText

-- What is written of an array property is text, and the property gets the very array back from it.
theorem array_returns (c : Coercer) {p : Property} (arrayed : p.type = .array) {items : List Value}
    (fits : Value.areElements p.element items = true) :
    ∃ text, c.toStorage p (.array items) = .ok (.text text) ∧ c.fromStorage p (.text text) = .ok (.array items) := by
  refine ⟨ArrayText.encode items, ?_, ?_⟩
  · rw [Coercer.toStorage, arrayed]
    rfl
  · rw [Coercer.fromStorage, arrayed]
    simp only [Coercer.readArray, ArrayText.decode_encode items fits]

-- Text that looks like the syntax of an array, between numbers and arrays without elements.
def scoreColumn : Property := ⟨"scores", "scores", .array, false, .int4⟩

def scores : List Value :=
  [.text "", .text "NULL", .text "\u3000a\\\"\x7b,\x7d ", .null, .int32 (-2147483648), .array [.array [], .int32 7]]

theorem scores_return : scoreColumn.type = .array ∧ Value.areElements scoreColumn.element scores = true ∧
    ∃ text, (Coercer.new .localTime).toStorage scoreColumn (.array scores) = .ok (.text text) ∧
      (Coercer.new .localTime).fromStorage scoreColumn (.text text) = .ok (.array scores) :=
  ⟨rfl, rfl, array_returns (Coercer.new .localTime) rfl rfl⟩

end QueryKit
