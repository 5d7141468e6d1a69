-- Octets and text. Strict decoding refuses what is not UTF-8; lenient decoding puts U+FFFD in
-- the place of each longest broken start of a character and goes on with the next octet.

namespace QueryKit.Text

def octets (s : String) : List UInt8 := s.toUTF8.data.toList

def ofOctets? (bytes : List UInt8) : Option String := String.fromUTF8? ⟨bytes.toArray⟩

theorem ofOctets?_octets (s : String) : ofOctets? (octets s) = some s := by
  have same : (⟨(octets s).toArray⟩ : ByteArray) = s.toByteArray := rfl
  rw [ofOctets?, same, String.fromUTF8?, dif_pos s.isValidUTF8]
  rfl

theorem octets_injective {s t : String} (same : octets s = octets t) : s = t := by
  have read := ofOctets?_octets s
  rw [same, ofOctets?_octets] at read
  exact (Option.some.inj read).symm

theorem octets_eq (s : String) : octets s = s.toList.flatMap String.utf8EncodeChar := by
  show s.toByteArray.data.toList = _
  rw [← String.utf8Encode_toList, List.utf8Encode, List.data_toByteArray]

-- A character whose octets have begun: how many are owed, the bounds of the next one and the bits read so far.
structure Unfinished where
  owed : Nat
  low : Nat
  high : Nat
  bits : Nat

def replacement : Char := Char.ofNat 0xFFFD

-- The first octet of a character. The bounds after E0, ED, F0 and F4 keep out overlong forms,
-- surrogates and everything above U+10FFFF.
def beginCharacter (b : Nat) : List Char × Option Unfinished :=
  if b < 0x80 then ([Char.ofNat b], none)
  else if b < 0xC2 then ([replacement], none)
  else if b < 0xE0 then ([], some ⟨1, 0x80, 0xBF, b - 0xC0⟩)
  else if b < 0xF0 then
    ([], some ⟨2, if b = 0xE0 then 0xA0 else 0x80, if b = 0xED then 0x9F else 0xBF, b - 0xE0⟩)
  else if b < 0xF5 then
    ([], some ⟨3, if b = 0xF0 then 0x90 else 0x80, if b = 0xF4 then 0x8F else 0xBF, b - 0xF0⟩)
  else ([replacement], none)

def nextOctet (pending : Option Unfinished) (b : Nat) : List Char × Option Unfinished :=
  match pending with
  | none => beginCharacter b
  | some p =>
    if p.low ≤ b ∧ b ≤ p.high then
      let bits := p.bits * 64 + (b - 0x80)
      if p.owed ≤ 1 then ([Char.ofNat bits], none) else ([], some ⟨p.owed - 1, 0x80, 0xBF, bits⟩)
    else
      let (out, later) := beginCharacter b
      (replacement :: out, later)

def decodeLenientFrom (pending : Option Unfinished) : List UInt8 → List Char
  | [] => if pending.isSome then [replacement] else []
  | b :: r =>
    let (out, later) := nextOctet pending b.toNat
    out ++ decodeLenientFrom later r

def decodeLenient (bytes : List UInt8) : List Char := decodeLenientFrom none bytes

end QueryKit.Text
