import QueryKit.Value.Basic
import QueryKit.Decimal.Layout
import QueryKit.Text.Escaped

-- Values described by their kind and content, for messages: `Int32(1)`, `String("a")`.

namespace QueryKit
open Text Decimal

mutual
def Json.description : Json → String
  | .null => "Null"
  | .bool b => "Bool(" ++ toString b ++ ")"
  | .integer n => "Number(" ++ intText n ++ ")"
  | .real x => "Number(" ++ x.text json ++ ")"
  | .text s => "String(" ++ escaped s ++ ")"
  | .array items => "Array " ++ listed (Json.descriptions items)
  | .object members => "Object \x7b" ++ ", ".intercalate (Json.memberDescriptions members) ++ "\x7d"
def Json.descriptions : List Json → List String
  | [] => []
  | j :: r => j.description :: Json.descriptions r
def Json.memberDescriptions : List (String × Json) → List String
  | [] => []
  | (k, j) :: r => (escaped k ++ ": " ++ j.description) :: Json.memberDescriptions r
end

mutual
def Value.description : Value → String
  | .null => "Null"
  | .bool b => "Bool(" ++ toString b ++ ")"
  | .int32 n => "Int32(" ++ intText n.toInt ++ ")"
  | .int64 n => "Int64(" ++ intText n.toInt ++ ")"
  | .float32 x => "Float32(" ++ x.text marked ++ ")"
  | .float64 x => "Float64(" ++ x.text marked ++ ")"
  | .text s => "String(" ++ escaped s ++ ")"
  | .bytes octets => "Bytes(" ++ listed (octets.map fun b => natText b.toNat) ++ ")"
  | .uuid u => "Uuid(" ++ u.text ++ ")"
  | .instant t => "DateTime(" ++ t.shortText ++ ")"
  | .date d => "Date(" ++ d.text ++ ")"
  | .time t => "Time(" ++ t.text ++ ")"
  | .json j => "Json(" ++ j.description ++ ")"
  | .array items => "Array(" ++ listed (Value.descriptions items) ++ ")"
  | .point x y => "Point \x7b x: " ++ x.text marked ++ ", y: " ++ y.text marked ++ " \x7d"
def Value.descriptions : List Value → List String
  | [] => []
  | v :: r => v.description :: Value.descriptions r
end

end QueryKit
