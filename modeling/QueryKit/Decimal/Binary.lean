-- Binary floating point as bits. A pattern of bits stands for a sign and m * 2^q, for an
-- infinity or for no number; every result is rounded once, to nearest, a tie to the even side.
-- All of it is exact arithmetic on Nat and Int, so that it can be reasoned about.

namespace QueryKit.Decimal

def tenTo (n : Nat) : Nat := Nat.pow 10 n

def twoTo (n : Nat) : Nat := Nat.pow 2 n

theorem tenTo_zero : tenTo 0 = 1 := rfl

theorem tenTo_succ (n : Nat) : tenTo (n + 1) = tenTo n * 10 := rfl

theorem tenTo_pos (n : Nat) : 0 < tenTo n := by
  induction n with
  | zero => exact Nat.one_pos
  | succ n ih => rw [tenTo_succ]; exact Nat.mul_pos ih (by decide)

theorem tenTo_add (m n : Nat) : tenTo (m + n) = tenTo m * tenTo n := by
  induction n with
  | zero => rw [Nat.add_zero, tenTo_zero, Nat.mul_one]
  | succ n ih => rw [← Nat.add_assoc, tenTo_succ, tenTo_succ, ih, Nat.mul_assoc]

theorem twoTo_zero : twoTo 0 = 1 := rfl

theorem twoTo_succ (n : Nat) : twoTo (n + 1) = twoTo n * 2 := rfl

theorem twoTo_pos (n : Nat) : 0 < twoTo n := by
  induction n with
  | zero => exact Nat.one_pos
  | succ n ih => rw [twoTo_succ]; exact Nat.mul_pos ih (by decide)

structure Format where
  fraction : Nat
  exponent : Nat

def double : Format := ⟨52, 11⟩
def single : Format := ⟨23, 8⟩

inductive Number where
  | nan
  | infinite (negative : Bool)
  | finite (negative : Bool) (significand : Nat) (power : Int)
  deriving DecidableEq, Repr

namespace Format
variable (f : Format)

def least : Int := 2 - (twoTo (f.exponent - 1) : Int) - f.fraction

def infinity : Nat := (twoTo f.exponent - 1) * twoTo f.fraction

def signBit : Nat := twoTo (f.fraction + f.exponent)

def withSign (negative : Bool) (magnitude : Nat) : Nat :=
  if negative then f.signBit + magnitude else magnitude

def quietNan : Nat := f.infinity + twoTo (f.fraction - 1)

def number (bits : Nat) : Number :=
  let negative := bits / f.signBit % 2 == 1
  let field := bits / twoTo f.fraction % twoTo f.exponent
  let rest := bits % twoTo f.fraction
  if field = twoTo f.exponent - 1 then
    if rest = 0 then .infinite negative else .nan
  else if field = 0 then .finite negative rest f.least
  else .finite negative (twoTo f.fraction + rest) (f.least + field - 1)

end Format

def roundHalfEven (num den : Nat) : Nat :=
  let q := num / den
  let r := num % den
  if 2 * r < den then q else if den < 2 * r then q + 1 else q + q % 2

def scaled (num den : Nat) (power : Int) : Nat × Nat :=
  (num * twoTo power.toNat, den * twoTo (-power).toNat)

-- The bits of the magnitude nearest to num / den. One formula serves normal and subnormal
-- numbers: the significand is added to the exponent field, and a carry out of it is right.
def Format.nearest (f : Format) (num den : Nat) : Nat :=
  if num = 0 then 0 else
    let size : Int := (Nat.log2 num : Int) - Nat.log2 den
    let (a, b) := scaled num den (-size)
    let lead := if b ≤ a then size else size - 1
    let q := max (lead - f.fraction) f.least
    let (a, b) := scaled num den (-q)
    min ((q - f.least).toNat * twoTo f.fraction + roundHalfEven a b) f.infinity

structure Binary64 where
  bits : UInt64
  deriving DecidableEq, Repr

structure Binary32 where
  bits : UInt32
  deriving DecidableEq, Repr

namespace Binary64

def number (x : Binary64) : Number := double.number x.bits.toNat

def ofBits (n : Nat) : Binary64 := ⟨UInt64.ofNat n⟩

def nan : Binary64 := ofBits double.quietNan
def infinity (negative : Bool) : Binary64 := ofBits (double.withSign negative double.infinity)
def zero (negative : Bool) : Binary64 := ofBits (double.withSign negative 0)

def ofRatio (negative : Bool) (num den : Nat) : Binary64 :=
  ofBits (double.withSign negative (double.nearest num den))

def ofInt (i : Int) : Binary64 := ofRatio (i < 0) i.natAbs 1

def ofScaled (negative : Bool) (m : Nat) (q : Int) : Binary64 :=
  let (a, b) := scaled m 1 q
  ofRatio negative a b

def isNan (x : Binary64) : Bool := x.number == .nan
def isFinite (x : Binary64) : Bool :=
  match x.number with
  | .finite .. => true
  | _ => false

def isZero (x : Binary64) : Bool :=
  match x.number with
  | .finite _ m _ => m == 0
  | _ => false

def neg (x : Binary64) : Binary64 := ⟨x.bits ^^^ 0x8000000000000000⟩

-- Product and quotient of finite numbers; anything else, and a zero divisor, gives no number.
def mul (x y : Binary64) : Binary64 :=
  match x.number, y.number with
  | .finite s m p, .finite t n q => ofScaled (s != t) (m * n) (p + q)
  | _, _ => nan

def div (x y : Binary64) : Binary64 :=
  match x.number, y.number with
  | .finite s m p, .finite t n q =>
    if n = 0 then nan else
      let (a, b) := scaled m n (p - q)
      ofRatio (s != t) a b
  | _, _ => nan

end Binary64

namespace Binary32

def number (x : Binary32) : Number := single.number x.bits.toNat

def ofBits (n : Nat) : Binary32 := ⟨UInt32.ofNat n⟩

def isFinite (x : Binary32) : Bool :=
  match x.number with
  | .finite .. => true
  | _ => false

def widen (x : Binary32) : Binary64 :=
  match x.number with
  | .nan => .nan
  | .infinite s => .infinity s
  | .finite s m q => .ofScaled s m q

end Binary32

end QueryKit.Decimal
