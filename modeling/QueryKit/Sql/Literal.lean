import QueryKit.Sql.ArrayLiteral

-- Quoted names, and values as literals of a statement. A quote inside a quoted token stands twice; backslashes are
-- ordinary characters.

namespace QueryKit.Sql
open Text Decimal Calendar

def doubled (quote : Char) : List Char → List Char
  | [] => []
  | c :: r => if c = quote then quote :: quote :: doubled quote r else c :: doubled quote r

def quotedWith (quote : Char) (s : String) : String :=
  String.ofList (quote :: doubled quote s.toList ++ [quote])

def identifier (s : String) : String := quotedWith '"' s

def stringLiteral (s : String) : String := quotedWith '\x27' s

def path (segments : List String) : String := ".".intercalate (segments.map identifier)

def doubleLiteral (x : Binary64) : String :=
  match x.number with
  | .nan => stringLiteral "NaN"
  | .infinite negative => stringLiteral (if negative then "-Infinity" else "Infinity")
  | .finite .. => x.text plain

def singleLiteral (x : Binary32) : String := if x.isFinite then x.text plain else doubleLiteral x.widen

def literal (zone : Zone) : Value → String
  | .null => "NULL"
  | .bool b => toString b
  | .int32 n => intText n.toInt
  | .int64 n => intText n.toInt
  | .float32 x => singleLiteral x
  | .float64 x => doubleLiteral x
  | .text s => stringLiteral s
  | .bytes octets => stringLiteral (String.ofList (bytesText octets))
  | .uuid u => stringLiteral u.text
  | .instant t => stringLiteral (instantText zone t)
  | .date d => stringLiteral d.text
  | .time t => stringLiteral t.text
  | .json j => stringLiteral j.compact
  | .array items => stringLiteral (arrayLiteral zone items)
  | .point x y => "POINT(" ++ x.text plain ++ ", " ++ y.text plain ++ ")"

def instantFits (zone : Zone) (t : Instant) : Bool := (t.shift zone.minutes).inRange

mutual
def datesFit (zone : Zone) : Value → Bool
  | .instant t => instantFits zone t
  | .array items => allDatesFit zone items
  | _ => true
def allDatesFit (zone : Zone) : List Value → Bool
  | [] => true
  | v :: r => datesFit zone v && allDatesFit zone r
end

end QueryKit.Sql
