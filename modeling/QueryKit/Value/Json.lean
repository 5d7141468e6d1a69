import QueryKit.Value.Basic
import QueryKit.Json.Printer

-- Values and JSON. Every value has a JSON form; back, objects stay JSON and strings stay text.

namespace QueryKit
open Decimal

namespace Value

def pointJson (x y : Binary64) : Json := .object [("x", .ofBinary x), ("y", .ofBinary y)]

mutual
def toJson : Value → Json
  | .null => .null
  | .bool b => .bool b
  | .int32 n => .integer n.toInt
  | .int64 n => .integer n.toInt
  | .float32 x => .ofBinary x.widen
  | .float64 x => .ofBinary x
  | .text s => .text s
  | .bytes octets => .array (octets.map fun b => .integer b.toNat)
  | .uuid u => .text u.text
  | .instant t => .text t.offsetText
  | .date d => .text d.text
  | .time t => .text t.text
  | .json j => j
  | .array items => .array (toJsons items)
  | .point x y => pointJson x y
def toJsons : List Value → List Json
  | [] => []
  | v :: r => toJson v :: toJsons r
end

mutual
def ofJson : Json → Value
  | .null => .null
  | .bool b => .bool b
  | .integer n => (ofInt? n).getD (.float64 (.ofInt n))
  | .real x => .float64 x
  | .text s => .text s
  | .array items => .array (ofJsons items)
  | .object members => .json (.object members)
def ofJsons : List Json → List Value
  | [] => []
  | j :: r => ofJson j :: ofJsons r
end

def nameText (v : Value) : String :=
  match v.toJson with
  | .text s => s
  | j => j.compact

theorem toJsons_eq_map (vs : List Value) : toJsons vs = vs.map toJson := by
  induction vs with
  | nil => rfl
  | cons v r ih => rw [toJsons, ih, List.map_cons]

theorem ofJsons_eq_map (js : List Json) : ofJsons js = js.map ofJson := by
  induction js with
  | nil => rfl
  | cons j r ih => rw [ofJsons, ih, List.map_cons]

end Value

end QueryKit
