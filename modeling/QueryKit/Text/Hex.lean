-- Hexadecimal digits and the two-digit form of an octet.

namespace QueryKit.Text

def hexDigit (n : Nat) : Char :=
  if n % 16 < 10 then Char.ofNat (48 + n % 16) else Char.ofNat (87 + n % 16)

def hexDigitUpper (n : Nat) : Char :=
  if n % 16 < 10 then Char.ofNat (48 + n % 16) else Char.ofNat (55 + n % 16)

def hexValue? (c : Char) : Option Nat :=
  if '0' ≤ c ∧ c ≤ '9' then some (c.toNat - 48)
  else if 'a' ≤ c ∧ c ≤ 'f' then some (c.toNat - 87)
  else if 'A' ≤ c ∧ c ≤ 'F' then some (c.toNat - 55)
  else none

def hexOctet (b : UInt8) : List Char := [hexDigit (b.toNat / 16), hexDigit b.toNat]

def hexOctets (bytes : List UInt8) : List Char := bytes.flatMap hexOctet

def readHexOctets : List Char → Option (List UInt8)
  | [] => some []
  | [_] => none
  | a :: b :: r =>
    match hexValue? a, hexValue? b, readHexOctets r with
    | some x, some y, some bytes => some (UInt8.ofNat (x * 16 + y) :: bytes)
    | _, _, _ => none

def hexDigits (n : Nat) : List Char :=
  if n < 16 then [hexDigit n] else hexDigits (n / 16) ++ [hexDigit n]
termination_by n

def readHexNat (cs : List Char) : Option Nat :=
  cs.foldlM (fun acc c => (hexValue? c).map (acc * 16 + ·)) 0

theorem hexValue?_hexDigit (n : Nat) : hexValue? (hexDigit n) = some (n % 16) := by
  have bound : n % 16 < 16 := Nat.mod_lt _ (by decide)
  unfold hexDigit
  generalize n % 16 = d at bound ⊢
  match d, bound with
  | 0, _ | 1, _ | 2, _ | 3, _ | 4, _ | 5, _ | 6, _ | 7, _ | 8, _ | 9, _ | 10, _ | 11, _ | 12, _ | 13, _
  | 14, _ | 15, _ => decide
  | d + 16, h => exact absurd h (by omega)

theorem readHexOctets_hexOctets (bytes : List UInt8) : readHexOctets (hexOctets bytes) = some bytes := by
  induction bytes with
  | nil => rfl
  | cons b r ih =>
    have same : b.toNat / 16 % 16 * 16 + b.toNat % 16 = b.toNat := by
      have := b.toNat_lt; omega
    show readHexOctets (hexDigit (b.toNat / 16) :: hexDigit b.toNat :: hexOctets r) = _
    simp only [readHexOctets, hexValue?_hexDigit, ih, same, UInt8.ofNat_toNat]

end QueryKit.Text
