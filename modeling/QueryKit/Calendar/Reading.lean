import QueryKit.Calendar.Instant
import QueryKit.Decimal.Binary
import QueryKit.Text.Character

-- Dates and times from the text in which the server writes them. Each part is a number of at
-- most so many digits, with blanks in front allowed.

namespace QueryKit.Calendar
open Text

abbrev Reading (α : Type) := List Char → Option (α × List Char)

def readCount (width : Nat) : Reading Nat := fun cs =>
  let ds := (cs.take width).takeWhile Char.isDigit
  (readNat ds).map fun n => (n, cs.drop ds.length)

def readPart (width : Nat) : Reading Nat := fun cs => readCount width (cs.dropWhile isBlank)

def readLiteral (c : Char) (cs : List Char) : Option (List Char) :=
  match cs with
  | [] => none
  | d :: r => if d = c then some r else none

def readYear : Reading Int := fun cs =>
  match cs.dropWhile isBlank with
  | '-' :: r => (readCount r.length r).map fun (n, rest) => (-(n : Int), rest)
  | '+' :: r => (readCount r.length r).map fun (n, rest) => ((n : Int), rest)
  | cs => (readCount 4 cs).map fun (n, rest) => ((n : Int), rest)

def readDay : Reading Date := fun cs => do
  let (year, cs) ← readYear cs
  let (month, cs) ← readPart 2 (← readLiteral '-' cs)
  let (day, cs) ← readPart 2 (← readLiteral '-' cs)
  let d : Date := ⟨year, month, day⟩
  if d.exists? && (Instant.ofParts d (.ofSeconds 0 0)).inRange then some (d, cs) else none

def readFraction : Reading Nat := fun cs =>
  match cs with
  | '.' :: r =>
    let ds := r.takeWhile Char.isDigit
    (readNat (ds.take 9)).map fun n => (n * Decimal.tenTo (9 - (ds.take 9).length), r.drop ds.length)
  | cs => some (0, cs)

def readClock : Reading Time := fun cs => do
  let (hour, cs) ← readPart 2 cs
  let (minute, cs) ← readPart 2 (← readLiteral ':' cs)
  let (second, cs) ← readPart 2 (← readLiteral ':' cs)
  let (nanos, cs) ← readFraction cs
  if 23 < hour || 59 < minute || 60 < second then none
  else if second = 60 then some (⟨hour, minute, 59, nanos + secondNanos⟩, cs)
  else some (⟨hour, minute, second, nanos⟩, cs)

def isOffsetSign (c : Char) : Bool := c == '+' || c == '-' || c == '\u2212'

def isOffsetSeparator (c : Char) : Bool := c == ':' || isBlank c

def readZoneOffset : Reading Unit
  | 'Z' :: r => some ((), r)
  | 'z' :: r => some ((), r)
  | sign :: a :: b :: r =>
    if isOffsetSign sign ∧ a.isDigit ∧ b.isDigit then
      match r.dropWhile isOffsetSeparator with
      | [] => some ((), [])
      | c :: d :: rest => if c.isDigit ∧ d.isDigit ∧ c < '6' then some ((), rest) else none
      | _ => none
    else none
  | _ => none

def readWhole {α : Type} (read : Reading α) (text : String) : Option α :=
  match read text.toList with
  | some (a, []) => some a
  | _ => none

def Date.read (text : String) : Option Date := readWhole readDay text

def Time.read (text : String) : Option Time := readWhole readClock text

-- The wall clock as it is written, the day and the time with any blanks between them. A text with a
-- plus sign has to end in an offset, which does not move the clock.
def Instant.read (text : String) : Option Instant :=
  readWhole (fun cs => do
    let (d, cs) ← readDay cs
    let (t, cs) ← readClock cs
    if text.toList.contains '+' then
      let (_, cs) ← readZoneOffset (cs.dropWhile isBlank)
      some (.ofParts d t, cs)
    else some (.ofParts d t, cs)) text

end QueryKit.Calendar
