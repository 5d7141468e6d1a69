import Mathlib.Data.List.Basic
import QueryKit.Url.Basic

-- Percent-encoding of any text, octet by octet. Decoding brings the octets back, and a text is its own encoding when
-- it needs none.

namespace QueryKit.Url
open Text

-- Letters, digits and four marks, which stand for themselves anywhere in an address.
def isUnreserved (c : Char) : Bool := c.isAlphanum || c == '-' || c == '.' || c == '_' || c == '~'

def octetChars (b : UInt8) : List Char :=
  if isUnreserved (Char.ofNat b.toNat) then [Char.ofNat b.toNat] else encodedOctet b

-- Every octet of the text but the unreserved characters, as `%XX`.
def percentEncoded (s : String) : String := String.ofList ((octets s).flatMap octetChars)

def percentDecoded? (s : String) : Option String := ofOctets? (decode s.toList)

def Unreserved (s : String) : Prop := ∀ c ∈ s.toList, isUnreserved c = true

instance (s : String) : Decidable (Unreserved s) := decidable_of_iff (s.toList.all isUnreserved = true) List.all_eq_true

def isEncoded (c : Char) : Bool := isUnreserved c || c == '%'

def Encoded (cs : List Char) : Prop := ∀ c ∈ cs, isEncoded c = true

theorem unreserved_bounds {c : Char} (unreserved : isUnreserved c = true) : 0x20 < c.toNat ∧ c.toNat < 0x7F := by
  have kinds : ((((((c.isUpper || c.isLower) || c.isDigit) || c == '-') || c == '.') || c == '_') || c == '~') = true :=
    unreserved
  simp only [Bool.or_eq_true, beq_iff_eq] at kinds
  rcases kinds with (((((upper | lower) | digit) | rfl) | rfl) | rfl) | rfl
  · obtain ⟨low, high⟩ : 65 ≤ c.toNat ∧ c.toNat ≤ 90 := of_decide_eq_true upper
    omega
  · obtain ⟨first, last⟩ := (Bool.and_eq_true _ _).mp lower
    have low : 97 ≤ c.toNat := of_decide_eq_true first
    have high : c.toNat ≤ 122 := of_decide_eq_true last
    omega
  · obtain ⟨first, last⟩ := (Bool.and_eq_true _ _).mp digit
    have low : 48 ≤ c.toNat := of_decide_eq_true first
    have high : c.toNat ≤ 57 := of_decide_eq_true last
    omega
  all_goals decide

theorem toNat_ofNat {n : Nat} (small : n < 256) : (Char.ofNat n).toNat = n := by
  have valid : n.isValidChar := .inl (by omega)
  rw [Char.ofNat, dif_pos valid]
  rfl

theorem utf8_ascii {c : Char} (ascii : c.toNat < 0x80) : String.utf8EncodeChar c = [UInt8.ofNat c.toNat] :=
  if_pos (Nat.le_of_lt_succ ascii)

theorem toNat_ascii {c : Char} (ascii : c.toNat < 0x80) : (UInt8.ofNat c.toNat).toNat = c.toNat :=
  UInt8.toNat_ofNat_of_lt (Nat.lt_trans ascii (by decide))

theorem upperDigits : ∀ d < 16, hexValue? (hexDigitUpper d) = some d ∧ isUnreserved (hexDigitUpper d) = true := by
  decide

theorem hexDigitUpper_mod (n : Nat) : hexDigitUpper (n % 16) = hexDigitUpper n := by
  unfold hexDigitUpper
  rw [Nat.mod_mod]

theorem hexValue?_hexDigitUpper (n : Nat) : hexValue? (hexDigitUpper n) = some (n % 16) := by
  rw [← hexDigitUpper_mod]
  exact (upperDigits (n % 16) (Nat.mod_lt _ (by decide))).1

theorem isUnreserved_hexDigitUpper (n : Nat) : isUnreserved (hexDigitUpper n) = true := by
  rw [← hexDigitUpper_mod]
  exact (upperDigits (n % 16) (Nat.mod_lt _ (by decide))).2

theorem decode_encodedOctet (b : UInt8) (r : List Char) : decode (encodedOctet b ++ r) = b :: decode r := by
  have same : b.toNat / 16 % 16 * 16 + b.toNat % 16 = b.toNat := by
    have bound := b.toNat_lt
    omega
  show decode ('%' :: hexDigitUpper (b.toNat / 16) :: hexDigitUpper b.toNat :: r) = _
  simp only [decode, hexValue?_hexDigitUpper, same, UInt8.ofNat_toNat]

theorem decode_plain {c : Char} (plain : c ≠ '%') (r : List Char) :
    decode (c :: r) = octets (String.singleton c) ++ decode r := by
  rw [decode]
  rintro a b s rfl
  exact absurd rfl plain

theorem decode_octetChars (b : UInt8) (r : List Char) : decode (octetChars b ++ r) = b :: decode r := by
  unfold octetChars
  split
  case isTrue unreserved =>
    have number : (Char.ofNat b.toNat).toNat = b.toNat := toNat_ofNat b.toNat_lt
    have plain : Char.ofNat b.toNat ≠ '%' := by
      intro same
      rw [same] at unreserved
      cases unreserved
    have ascii : (Char.ofNat b.toNat).toNat < 0x80 := Nat.lt_succ_of_lt (unreserved_bounds unreserved).2
    have alone : octets (String.singleton (Char.ofNat b.toNat)) = [b] := by
      rw [octets_eq, String.toList_singleton, List.flatMap_singleton, utf8_ascii ascii, number, UInt8.ofNat_toNat]
    rw [List.singleton_append, decode_plain plain, alone]
    rfl
  case isFalse => exact decode_encodedOctet b r

theorem decode_percentEncoded (s : String) : decode (percentEncoded s).toList = octets s := by
  rw [percentEncoded, String.toList_ofList]
  induction octets s with
  | nil => rfl
  | cons b r ih => rw [List.flatMap_cons, decode_octetChars, ih]

theorem percentDecoded?_percentEncoded (s : String) : percentDecoded? (percentEncoded s) = some s := by
  rw [percentDecoded?, decode_percentEncoded, ofOctets?_octets]

theorem encoded_percentEncoded (s : String) : Encoded (percentEncoded s).toList := by
  intro c member
  rw [percentEncoded, String.toList_ofList] at member
  obtain ⟨b, -, inside⟩ := List.mem_flatMap.mp member
  unfold octetChars at inside
  split at inside
  case isTrue unreserved =>
    cases List.mem_singleton.mp inside
    rw [isEncoded, unreserved]
    rfl
  case isFalse =>
    have digit : ∀ n, isEncoded (hexDigitUpper n) = true := fun n => by
      rw [isEncoded, isUnreserved_hexDigitUpper]
      rfl
    simp only [encodedOctet, List.mem_cons, List.not_mem_nil, or_false] at inside
    rcases inside with rfl | rfl | rfl
    · rfl
    · exact digit _
    · exact digit _

theorem percentEncoded_ne {s : String} (given : s ≠ "") : percentEncoded s ≠ "" := by
  intro empty
  have back := percentDecoded?_percentEncoded s
  rw [empty] at back
  exact given (Option.some.inj back).symm

theorem percentEncoded_eq (s : String) :
    (percentEncoded s).toList = s.toList.flatMap fun c => (String.utf8EncodeChar c).flatMap octetChars := by
  rw [percentEncoded, String.toList_ofList, octets_eq, List.flatMap_assoc]

theorem encoded_unreserved {c : Char} (unreserved : isUnreserved c = true) :
    (String.utf8EncodeChar c).flatMap octetChars = [c] := by
  have ascii : c.toNat < 0x80 := Nat.lt_succ_of_lt (unreserved_bounds unreserved).2
  rw [utf8_ascii ascii, List.flatMap_singleton, octetChars, toNat_ascii ascii, Char.ofNat_toNat, if_pos unreserved]

theorem octetChars_ne_nil (b : UInt8) : 1 ≤ (octetChars b).length := by
  unfold octetChars
  split
  · exact Nat.le_refl 1
  · exact Nat.le_of_ble_eq_true rfl

theorem encoded_reserved {c : Char} (reserved : isUnreserved c ≠ true) :
    1 < ((String.utf8EncodeChar c).flatMap octetChars).length := by
  by_cases ascii : c.toNat < 0x80
  · rw [utf8_ascii ascii, List.flatMap_singleton, octetChars, toNat_ascii ascii, Char.ofNat_toNat, if_neg reserved]
    exact Nat.le_of_ble_eq_true rfl
  · have several : ∃ a b r, String.utf8EncodeChar c = a :: b :: r := by
      have wide : ¬ c.val.toNat ≤ 127 := fun small => ascii (Nat.lt_succ_of_le small)
      unfold String.utf8EncodeChar
      dsimp only
      rw [if_neg wide]
      split
      · exact ⟨_, _, _, rfl⟩
      · split <;> exact ⟨_, _, _, rfl⟩
    obtain ⟨a, b, r, spelled⟩ := several
    have first := octetChars_ne_nil a
    have second := octetChars_ne_nil b
    rw [spelled, List.flatMap_cons, List.flatMap_cons, List.length_append, List.length_append]
    omega

theorem length_le_encoded (cs : List Char) :
    cs.length ≤ (cs.flatMap fun c => (String.utf8EncodeChar c).flatMap octetChars).length := by
  induction cs with
  | nil => exact Nat.le_refl 0
  | cons c r ih =>
    have first : 1 ≤ ((String.utf8EncodeChar c).flatMap octetChars).length := by
      by_cases unreserved : isUnreserved c = true
      · rw [encoded_unreserved unreserved]
        exact Nat.le_refl 1
      · exact Nat.le_of_lt (encoded_reserved unreserved)
    rw [List.flatMap_cons, List.length_append, List.length_cons]
    omega

theorem percentEncoded_eq_self_iff (s : String) : percentEncoded s = s ↔ Unreserved s := by
  rw [← String.toList_inj, percentEncoded_eq]
  constructor
  · intro same c member
    by_contra reserved
    obtain ⟨front, back, parted⟩ := List.append_of_mem member
    have before := length_le_encoded front
    have here := encoded_reserved reserved
    have behind := length_le_encoded back
    have lengths := congrArg List.length same
    rw [parted, List.flatMap_append, List.flatMap_cons] at lengths
    simp only [List.length_append, List.length_cons] at lengths
    omega
  · intro unreserved
    rw [List.flatMap_congr fun c member => encoded_unreserved (unreserved c member), List.flatMap_singleton']

end QueryKit.Url
