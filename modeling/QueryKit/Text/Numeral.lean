-- Decimal numerals: written without padding or leading zeros, read with an optional sign.

namespace QueryKit.Text

def digitValue? (c : Char) : Option Nat :=
  if '0' ≤ c ∧ c ≤ '9' then some (c.toNat - 48) else none

def digitChar (n : Nat) : Char := Char.ofNat (48 + n % 10)

def digits (n : Nat) : List Char :=
  if n < 10 then [digitChar n] else digits (n / 10) ++ [digitChar n]
termination_by n

def padded (width n : Nat) : List Char :=
  let ds := digits n
  List.replicate (width - ds.length) '0' ++ ds

def intDigits (i : Int) : List Char :=
  if i < 0 then '-' :: digits i.natAbs else digits i.natAbs

def readDigits (acc : Nat) : List Char → Option Nat
  | [] => some acc
  | c :: r =>
    match digitValue? c with
    | some d => readDigits (acc * 10 + d) r
    | none => none

def readNat : List Char → Option Nat
  | [] => none
  | c :: r => readDigits 0 (c :: r)

def readUnsigned : List Char → Option Nat
  | '+' :: r => readNat r
  | cs => readNat cs

def readInt : List Char → Option Int
  | '-' :: r => (readNat r).map fun n => -(n : Int)
  | '+' :: r => (readNat r).map fun n => (n : Int)
  | cs => (readNat cs).map fun n => (n : Int)

def readInt32 (cs : List Char) : Option Int32 :=
  (readInt cs).bind fun i =>
    if -2147483648 ≤ i ∧ i ≤ 2147483647 then some (Int32.ofInt i) else none

def readInt64 (cs : List Char) : Option Int64 :=
  (readInt cs).bind fun i =>
    if -9223372036854775808 ≤ i ∧ i ≤ 9223372036854775807 then some (Int64.ofInt i) else none

def readUInt32 (cs : List Char) : Option UInt32 :=
  (readUnsigned cs).bind fun n => if n < 4294967296 then some (UInt32.ofNat n) else none

def natText (n : Nat) : String := String.ofList (digits n)
def intText (i : Int) : String := String.ofList (intDigits i)

theorem digitValue?_digitChar (n : Nat) : digitValue? (digitChar n) = some (n % 10) := by
  have bound : n % 10 < 10 := Nat.mod_lt _ (by decide)
  unfold digitChar
  generalize n % 10 = d at bound ⊢
  match d, bound with
  | 0, _ | 1, _ | 2, _ | 3, _ | 4, _ | 5, _ | 6, _ | 7, _ | 8, _ | 9, _ => decide
  | d + 10, h => exact absurd h (by omega)

theorem readDigits_append (acc : Nat) (a b : List Char) :
    readDigits acc (a ++ b) = (readDigits acc a).bind fun n => readDigits n b := by
  induction a generalizing acc with
  | nil => rfl
  | cons c r ih =>
    simp only [List.cons_append, readDigits]
    split
    · exact ih _
    · rfl

theorem readDigits_digits (n : Nat) : readDigits 0 (digits n) = some n := by
  induction n using digits.induct with
  | case1 n small =>
    rw [digits, if_pos small]
    simp only [readDigits, digitValue?_digitChar, Nat.zero_mul, Nat.zero_add]
    rw [Nat.mod_eq_of_lt small]
  | case2 n large ih =>
    rw [digits, if_neg large, readDigits_append, ih]
    simp only [Option.bind_some, readDigits, digitValue?_digitChar]
    congr 1
    omega

theorem digits_ne_nil (n : Nat) : digits n ≠ [] := by
  rw [digits]; split <;> simp

theorem readNat_digits (n : Nat) : readNat (digits n) = some n := by
  have read := readDigits_digits n
  match h : digits n with
  | [] => exact absurd h (digits_ne_nil n)
  | c :: r => rw [h] at read; exact read

end QueryKit.Text
