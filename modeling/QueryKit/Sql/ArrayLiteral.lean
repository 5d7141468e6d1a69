import QueryKit.Value.Basic
import QueryKit.Json.Printer
import QueryKit.Decimal.Layout
import QueryKit.Timezone
import QueryKit.Text.Character
import QueryKit.Text.Hex

-- The body of an array literal. An element is quoted where the server would otherwise misread
-- it; quotes and backslashes inside a quoted element are escaped.

namespace QueryKit.Sql
open Text Decimal Calendar

-- The setting `local` writes the clock of the process; any other one moves the instant by its offset, if it has
-- one, and marks it as UTC.
def instantText (zone : Zone) (t : Instant) : String :=
  match zone.setting with
  | .localTime => (zone.wall t).wallClockText
  | _ => (t.shift zone.minutes).utcText

def bytesText (octets : List UInt8) : List Char := '\\' :: 'x' :: hexOctets octets

def backslashed : List Char → List Char
  | [] => []
  | c :: r => if c = '\\' ∨ c = '"' then '\\' :: c :: backslashed r else c :: backslashed r

def quotedElement (cs : List Char) : List Char := '"' :: backslashed cs ++ ['"']

def misreadable (c : Char) : Bool :=
  c == '\x7b' || c == '\x7d' || c == ',' || c == '"' || c == '\\' || isBlank c

def needsQuotes (cs : List Char) : Bool :=
  cs.isEmpty || sameLetters (String.ofList cs) "NULL" || cs.any misreadable

def element (cs : List Char) : List Char := if needsQuotes cs then quotedElement cs else cs

def braced (elements : List (List Char)) : List Char := '\x7b' :: Json.separated elements ++ ['\x7d']

mutual
def arrayElement (zone : Zone) : Value → List Char
  | .null => ['N', 'U', 'L', 'L']
  | .bool b => (toString b).toList
  | .int32 n => intDigits n.toInt
  | .int64 n => intDigits n.toInt
  | .float32 x => (x.text plain).toList
  | .float64 x => (x.text plain).toList
  | .text s => element s.toList
  | .bytes octets => element (bytesText octets)
  | .uuid u => u.chars
  | .instant t => element (instantText zone t).toList
  | .date d => d.text.toList
  | .time t => element t.text.toList
  | .json j => element j.chars
  | .array items => braced (arrayElements zone items)
  | .point x y => element ("(" ++ x.text plain ++ "," ++ y.text plain ++ ")").toList
def arrayElements (zone : Zone) : List Value → List (List Char)
  | [] => []
  | v :: r => arrayElement zone v :: arrayElements zone r
end

def arrayLiteral (zone : Zone) (items : List Value) : String :=
  String.ofList (braced (arrayElements zone items))

end QueryKit.Sql
