import QueryKit.Property.Basic
import QueryKit.Decimal.Reading
import QueryKit.Sql.ArrayLiteral
import QueryKit.Value.Json

-- Stored arrays as text: braces, commas, and elements that are nested, quoted or bare. The
-- writer quotes all text; the reader takes what the server prints as well.

namespace QueryKit.ArrayText
open Text Decimal

def doubleText (x : Binary64) : List Char :=
  match x.number with
  | .nan => ['N', 'a', 'N']
  | .infinite negative => (if negative then "-Infinity" else "Infinity").toList
  | .finite .. => (x.text marked).toList

def singleText (x : Binary32) : List Char := if x.isFinite then (x.text marked).toList else doubleText x.widen

mutual
def elementChars : Value → List Char
  | .null => ['N', 'U', 'L', 'L']
  | .bool b => (toString b).toList
  | .int32 n => intDigits n.toInt
  | .int64 n => intDigits n.toInt
  | .float32 x => singleText x
  | .float64 x => doubleText x
  | .array items => Sql.braced (elementsChars items)
  | .text s => Sql.quotedElement s.toList
  | .bytes octets => Sql.quotedElement (Value.bytes octets).nameText.toList
  | .uuid u => Sql.quotedElement u.chars
  | .instant t => Sql.quotedElement t.offsetText.toList
  | .date d => Sql.quotedElement d.text.toList
  | .time t => Sql.quotedElement t.text.toList
  | .json j => Sql.quotedElement (Value.json j).nameText.toList
  | .point x y => Sql.quotedElement (Value.point x y).nameText.toList
def elementsChars : List Value → List (List Char)
  | [] => []
  | v :: r => elementChars v :: elementsChars r
end

def encode (items : List Value) : String := String.ofList (Sql.braced (elementsChars items))

def boolElement? (cs : List Char) : Option Value :=
  if cs = ['t'] ∨ cs = ['t', 'r', 'u', 'e'] then some (.bool true)
  else if cs = ['f'] ∨ cs = ['f', 'a', 'l', 's', 'e'] then some (.bool false)
  else none

def typedElement? (type : ElementType) (cs : List Char) : Option Value :=
  match type with
  | .text => none
  | .int4 => (readInt32 cs).map .int32
  | .int8 => (readInt64 cs).map .int64
  | .float4 => (Binary32.read cs).map .float32
  | .float8 => (Binary64.read cs).map .float64
  | .bool => boolElement? cs

def bareElement (type : ElementType) (cs : List Char) : Value :=
  if sameLetters (String.ofList cs) "NULL" then .null
  else (typedElement? type cs).getD (.text (String.ofList cs))

def readQuoted : List Char → Option (List Char × List Char)
  | [] => none
  | '"' :: r => some ([], r)
  | '\\' :: c :: r =>
    match readQuoted r with
    | some (text, rest) => some (c :: text, rest)
    | none => none
  | c :: r =>
    if c = '\\' then none
    else match readQuoted r with
      | some (text, rest) => some (c :: text, rest)
      | none => none

def isBare (c : Char) : Bool := c != ',' && c != '\x7d'

-- One or more elements and the closing brace, and what follows it. What follows an element is
-- always shorter than what it was read from, so the comparison of lengths never fails.
def readElements (type : ElementType) (cs : List Char) : Option (List Value × List Char) :=
  let element : Option (Value × List Char) := match cs with
    | '\x7b' :: '\x7d' :: r => some (.array [], r)
    | '\x7b' :: r =>
      match readElements type r with
      | some (items, rest) => some (.array items, rest)
      | none => none
    | '"' :: r =>
      match readQuoted r with
      | some (text, rest) => some (.text (String.ofList text), rest)
      | none => none
    | _ => some (bareElement type (trim (cs.takeWhile isBare)), cs.dropWhile isBare)
  match element with
  | some (v, ',' :: r) =>
    if r.length < cs.length then
      match readElements type r with
      | some (items, rest) => some (v :: items, rest)
      | none => none
    else none
  | some (v, '\x7d' :: r) => some ([v], r)
  | _ => none
termination_by cs.length

def decode? (type : ElementType) (text : String) : Option (List Value) :=
  match trim text.toList with
  | ['\x7b', '\x7d'] => some []
  | '\x7b' :: '\x7d' :: _ => none
  | '\x7b' :: r =>
    match readElements type r with
    | some (items, []) => some items
    | _ => none
  | _ => none

end QueryKit.ArrayText
