import QueryKit.Fault
import QueryKit.Json.Reader
import QueryKit.Property.ArrayText
import QueryKit.Property.NumberText
import QueryKit.Sorted
import QueryKit.Timezone

-- Coercion between stored values and the values of a model's properties, by the type of the
-- property. A value that does not fit its type is handed on as it is, and text that is not
-- JSON becomes null. Only a timestamp can fail: its shift may leave the calendar.

namespace QueryKit
open Text Calendar

structure CustomType where
  fromStorage : Value → Value := id
  toStorage : Value → Value := id

structure Coercer where
  zone : Timezone
  customTypes : Sorted CustomType

namespace Coercer

def new (zone : Timezone) : Coercer := ⟨zone, []⟩

def register (tag : String) (type : CustomType) (c : Coercer) : Coercer :=
  { c with customTypes := Sorted.insert tag type c.customTypes }

def customTags (c : Coercer) : List String := Sorted.names c.customTypes

def description (c : Coercer) : String :=
  "TypeCoercer \x7b timezone: " ++ c.zone.description ++ ", custom_types: " ++
    listed (c.customTags.map escaped) ++ " \x7d"

def shift (zone : Timezone) (toUtc : Bool) : Value → Except Fault Value
  | .instant t =>
    match zone.minutes? with
    | none => .ok (.instant t)
    | some minutes =>
      let moved := t.shift (if toUtc then -minutes else minutes)
      if moved.inRange then .ok (.instant moved) else .error .dateOutOfRange
  | v => .ok v

def jsonOrNull : Option Json → Value
  | some j => .json j
  | none => .null

def readJson : Value → Value
  | .text s => jsonOrNull (Json.read s)
  | v => v

def readObject : Value → Value
  | .bytes octets => jsonOrNull (Json.readOctets octets)
  | v => readJson v

def writeJson : Value → Value
  | .null => .null
  | v => .text v.toJson.compact

def writeObject : Value → Value
  | .null => .null
  | .bytes octets => .bytes octets
  | v => .bytes (octets v.toJson.compact)

def readPoint : Value → Value
  | .text s =>
    match PointText.read s with
    | some (x, y) => .point x y
    | none => .text s
  | v => v

def pointOf? (members : List (String × Json)) : Option Value :=
  match (Sorted.get? "x" members).bind Json.binary?, (Sorted.get? "y" members).bind Json.binary? with
  | some x, some y => some (.point x y)
  | _, _ => none

def writePoint : Value → Value
  | .json (.object members) => (pointOf? members).getD (.json (.object members))
  | v => v

def readArray (element : ElementType) : Value → Value
  | .text s =>
    match ArrayText.decode? element s with
    | some items => .array items
    | none => .text s
  | v => v

def writeArray : Value → Value
  | .array items => .text (ArrayText.encode items)
  | v => v

def number : Value → Value
  | .bool b => .int32 (if b then 1 else 0)
  | .text s => (NumberText.read s).getD (.text s)
  | v => v

-- Storage holds the wall clock of the zone: reading takes the offset away, writing adds it.
def fromStorage (c : Coercer) (p : Property) (v : Value) : Except Fault Value :=
  match p.type with
  | .object => .ok (readObject v)
  | .json => .ok (readJson v)
  | .point => .ok (readPoint v)
  | .array => .ok (readArray p.element v)
  | .date => shift c.zone true v
  | .number => .ok (number v)
  | .custom tag =>
    match Sorted.get? tag c.customTypes with
    | some type => .ok (type.fromStorage v)
    | none => .ok v

def toStorage (c : Coercer) (p : Property) (v : Value) : Except Fault Value :=
  match p.type with
  | .object => .ok (writeObject v)
  | .json => .ok (writeJson v)
  | .point => .ok (writePoint v)
  | .array => .ok (writeArray v)
  | .date => shift c.zone false v
  | .number => .ok (number v)
  | .custom tag =>
    match Sorted.get? tag c.customTypes with
    | some type => .ok (type.toStorage v)
    | none => .ok v

end Coercer

end QueryKit
