import QueryKit.Calendar.Instant
import QueryKit.Json.Basic
import QueryKit.Text.Hex

-- The values that statements, rows and properties are made of. An identifier has 128 bits, written as 32 digits in
-- five groups.

namespace QueryKit
open Decimal Calendar Text

structure Uuid where
  octets : List UInt8
  deriving DecidableEq, Repr

namespace Uuid

def chars (u : Uuid) : List Char :=
  let ds := hexOctets u.octets
  ds.take 8 ++ '-' :: (ds.drop 8).take 4 ++ '-' :: (ds.drop 12).take 4 ++ '-' :: (ds.drop 16).take 4 ++
    '-' :: ds.drop 20

def text (u : Uuid) : String := String.ofList u.chars

def ofDigits (ds : List Char) : Option Uuid :=
  if ds.length = 32 then (readHexOctets ds).map fun bytes => ⟨bytes⟩ else none

def readGroups (cs : List Char) : Option Uuid :=
  if cs.length = 36 ∧ cs[8]? = some '-' ∧ cs[13]? = some '-' ∧ cs[18]? = some '-' ∧ cs[23]? = some '-' then
    ofDigits (cs.take 8 ++ (cs.drop 9).take 4 ++ (cs.drop 14).take 4 ++ (cs.drop 19).take 4 ++ cs.drop 24)
  else none

def read (s : String) : Option Uuid :=
  match s.toList with
  | 'u' :: 'r' :: 'n' :: ':' :: 'u' :: 'u' :: 'i' :: 'd' :: ':' :: r => readGroups r
  | '\x7b' :: r => if r.getLast? = some '\x7d' then readGroups r.dropLast else none
  | cs => if cs.length = 36 then readGroups cs else ofDigits cs

end Uuid

inductive Value where
  | null
  | bool (b : Bool)
  | int32 (n : Int32)
  | int64 (n : Int64)
  | float32 (x : Binary32)
  | float64 (x : Binary64)
  | text (s : String)
  | bytes (octets : List UInt8)
  | uuid (u : Uuid)
  | instant (t : Instant)
  | date (d : Date)
  | time (t : Time)
  | json (j : Json)
  | array (items : List Value)
  | point (x y : Binary64)
  deriving Repr

namespace Value

def isNull : Value → Bool
  | .null => true
  | _ => false

def text? : Value → Option String
  | .text s => some s
  | _ => none

def ofInt? (n : Int) : Option Value :=
  if -2147483648 ≤ n ∧ n ≤ 2147483647 then some (.int32 (Int32.ofInt n))
  else if -9223372036854775808 ≤ n ∧ n ≤ 9223372036854775807 then some (.int64 (Int64.ofInt n))
  else none

def Fits64 (n : Int) : Prop := -9223372036854775808 ≤ n ∧ n ≤ 9223372036854775807

instance (n : Int) : Decidable (Fits64 n) := inferInstanceAs (Decidable (_ ∧ _))

-- An integer in the narrower of the two types that holds it.
inductive Narrowest : Int → Value → Prop where
  | int32 (n : Int32) : Narrowest n.toInt (.int32 n)
  | int64 (n : Int64) (wide : ¬(-2147483648 ≤ n.toInt ∧ n.toInt ≤ 2147483647)) : Narrowest n.toInt (.int64 n)

theorem Narrowest.determines {m n : Int} {v : Value} (first : Narrowest m v) (second : Narrowest n v) : m = n := by
  cases first <;> cases second <;> rfl

theorem narrowest_of_fits {n : Int} (fits : Fits64 n) : ∃ v, ofInt? n = some v ∧ Narrowest n v := by
  unfold ofInt?
  obtain ⟨low, high⟩ := fits
  split
  · rename_i narrow
    have same : (Int32.ofInt n).toInt = n := Int32.toInt_ofInt_of_le (by omega) (by omega)
    have narrowest := Narrowest.int32 (.ofInt n)
    rw [same] at narrowest
    exact ⟨_, rfl, narrowest⟩
  · rename_i wide
    have same : (Int64.ofInt n).toInt = n := Int64.toInt_ofInt_of_le (by omega) (by omega)
    have narrowest := Narrowest.int64 (.ofInt n) (by rwa [same])
    rw [same] at narrowest
    rw [if_pos ⟨low, high⟩]
    exact ⟨_, rfl, narrowest⟩

theorem ofInt?_of_not_fits {n : Int} (outside : ¬Fits64 n) : ofInt? n = none := by
  unfold Fits64 at outside
  unfold ofInt?
  rw [if_neg (by omega), if_neg outside]

end Value

end QueryKit
