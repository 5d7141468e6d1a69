import QueryKit.Calendar.Instant
import QueryKit.Text.Character
import QueryKit.Text.Escaped
import QueryKit.Text.Numeral

-- Timezone settings: the clock of the process, a fixed offset, or a text that is neither.

namespace QueryKit
open Text Calendar

inductive Timezone where
  | localTime
  | offset (minutes : Int)
  | unrecognized (setting : String)
  deriving DecidableEq, Repr

namespace Timezone

-- Two decimal digits of any script count as digits of an offset, but only ASCII ones have a value.
def pairValue (a b : Char) : Int :=
  match digitValue? a, digitValue? b with
  | some x, some y => ((x * 10 + y : Nat) : Int)
  | _, _ => 0

def isSign (c : Char) : Bool := c == '+' || c == '-' || isBlank c

def minutesAfterHours : List Char → Int
  | ':' :: a :: b :: _ => if isDecimalDigit a && isDecimalDigit b then pairValue a b else 0
  | a :: b :: _ => if isDecimalDigit a && isDecimalDigit b then pairValue a b else 0
  | _ => 0

def offsetHere? : List Char → Option Int
  | sign :: a :: b :: rest =>
    if isSign sign && isDecimalDigit a && isDecimalDigit b then
      let total := pairValue a b * 60 + minutesAfterHours rest
      some (if sign = '-' then -total else total)
    else none
  | _ => none

-- The first offset anywhere in the setting; what stands before and after it is not looked at.
def findOffset? : List Char → Option Int
  | [] => none
  | c :: r => (offsetHere? (c :: r)).or (findOffset? r)

def ofSetting (setting : String) : Timezone :=
  if setting = "" ∨ setting = "local" then .localTime
  else if setting = "Z" then .offset 0
  else match findOffset? setting.toList with
    | some minutes => .offset minutes
    | none => .unrecognized setting

def minutes? : Timezone → Option Int
  | .offset minutes => some minutes
  | _ => none

def text : Timezone → String
  | .localTime => "local"
  | .offset minutes =>
    if minutes = 0 then "Z"
    else
      let n := minutes.natAbs
      String.ofList ((if minutes < 0 then '-' else '+') :: padded 2 (n / 60) ++ ':' :: padded 2 (n % 60))
  | .unrecognized setting => setting

def description : Timezone → String
  | .localTime => "Local"
  | .offset minutes => "Offset(" ++ intText minutes ++ ")"
  | .unrecognized setting => "Unrecognized(" ++ escaped setting ++ ")"

end Timezone

-- A setting in a process whose clock is ahead of UTC by so many seconds, which may be others at other times.
structure Zone where
  setting : Timezone
  clock : Instant → Int

namespace Zone

def utc : Zone := ⟨.localTime, fun _ => 0⟩

def minutes (zone : Zone) : Int := zone.setting.minutes?.getD 0

-- What the clock of the process shows. A leap second stays one at whatever second it comes to stand.
def wall (zone : Zone) (t : Instant) : Instant := ⟨t.seconds + zone.clock t, t.nanos⟩

end Zone

end QueryKit
