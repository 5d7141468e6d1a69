import QueryKit.Calendar.Date

-- Times of day, and points in time, in UTC: seconds since 1970 and nanoseconds within the second. Nanoseconds from 10^9
-- on stand inside a leap second, whose second is written as the one after it.

namespace QueryKit.Calendar
open Text

def secondNanos : Nat := 1000000000

structure Time where
  hour : Nat
  minute : Nat
  second : Nat
  nanos : Nat
  deriving DecidableEq, Repr

def Time.ofSeconds (seconds nanos : Nat) : Time :=
  ⟨seconds / 3600, seconds / 60 % 60, seconds % 60, nanos⟩

def Time.clock (t : Time) : List Char :=
  padded 2 t.hour ++ ':' :: padded 2 t.minute ++ ':' :: padded 2 (t.second + t.nanos / secondNanos)

def fractionText (nanos : Nat) : List Char :=
  let n := nanos % secondNanos
  if n = 0 then []
  else if n % 1000000 = 0 then '.' :: padded 3 (n / 1000000)
  else if n % 1000 = 0 then '.' :: padded 6 (n / 1000)
  else '.' :: padded 9 n

def millisecondText (nanos : Nat) : List Char :=
  '.' :: padded 3 (nanos % secondNanos / 1000000)

def Time.text (t : Time) : String := String.ofList (t.clock ++ fractionText t.nanos)

structure Instant where
  seconds : Int
  nanos : Nat
  deriving DecidableEq, Repr

namespace Instant

-- The first second of -262143-01-01 and the last second of +262142-12-31.
def earliest : Int := -8334601228800
def latest : Int := 8210266876799

def inRange (t : Instant) : Bool := earliest ≤ t.seconds && t.seconds ≤ latest

-- Moves an instant by whole minutes. A move out of a leap second takes its fraction along: forward
-- from the ordinary second before it, backward from the ordinary second after it.
def shift (t : Instant) (minutes : Int) : Instant :=
  if t.nanos < secondNanos then ⟨t.seconds + 60 * minutes, t.nanos⟩
  else if 0 < minutes then ⟨t.seconds + 60 * minutes, t.nanos - secondNanos⟩
  else if minutes < 0 then ⟨t.seconds + 1 + 60 * minutes, t.nanos - secondNanos⟩
  else t

def date (t : Instant) : Date := Date.ofDays (t.seconds.fdiv 86400)

def time (t : Instant) : Time := Time.ofSeconds (t.seconds.fmod 86400).toNat t.nanos

def ofParts (d : Date) (t : Time) : Instant :=
  ⟨d.toDays * 86400 + (t.hour * 3600 + t.minute * 60 + t.second : Nat), t.nanos⟩

def wallClockText (t : Instant) : String :=
  t.date.text ++ " " ++ String.ofList (t.time.clock ++ millisecondText t.nanos)

def utcText (t : Instant) : String :=
  t.date.text ++ "T" ++ String.ofList (t.time.clock ++ millisecondText t.nanos) ++ "Z"

def offsetText (t : Instant) : String := t.date.text ++ "T" ++ t.time.text ++ "+00:00"

def shortText (t : Instant) : String := t.date.text ++ "T" ++ t.time.text ++ "Z"

theorem shift_zero (t : Instant) : t.shift 0 = t := by
  unfold shift; split <;> simp

theorem shift_plain (t : Instant) (minutes : Int) (ordinary : t.nanos < secondNanos) :
    t.shift minutes = ⟨t.seconds + 60 * minutes, t.nanos⟩ := by
  rw [shift, if_pos ordinary]

end Instant

end QueryKit.Calendar
