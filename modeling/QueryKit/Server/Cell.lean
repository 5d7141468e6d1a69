import QueryKit.Calendar.Reading
import QueryKit.Decimal.Reading
import QueryKit.Json.Reader
import QueryKit.Row
import QueryKit.Server.Basic

-- Cells of a result as values, by the type of their column. Types without a rule keep their text.

namespace QueryKit
open Text Decimal Calendar

inductive CellType where
  | bool
  | bytea
  | int2
  | int4
  | int8
  | float4
  | float8
  | date
  | time
  | timestamp
  | timestamptz
  | uuid
  | json
  | jsonb
  | text
  deriving DecidableEq, Repr

namespace CellType

def ofNumber (n : Nat) : CellType :=
  match n with
  | 16 => .bool
  | 17 => .bytea
  | 20 => .int8
  | 21 => .int2
  | 23 => .int4
  | 114 => .json
  | 700 => .float4
  | 701 => .float8
  | 1082 => .date
  | 1083 => .time
  | 1114 => .timestamp
  | 1184 => .timestamptz
  | 2950 => .uuid
  | 3802 => .jsonb
  | _ => .text

def name : CellType → String
  | .bool => "BOOL"
  | .bytea => "BYTEA"
  | .int2 => "INT2"
  | .int4 => "INT4"
  | .int8 => "INT8"
  | .float4 => "FLOAT4"
  | .float8 => "FLOAT8"
  | .date => "DATE"
  | .time => "TIME"
  | .timestamp => "TIMESTAMP"
  | .timestamptz => "TIMESTAMPTZ"
  | .uuid => "UUID"
  | .json => "JSON"
  | .jsonb => "JSONB"
  | .text => "TEXT"

def readBool (text : String) : Option Value :=
  if text = "t" then some (.bool true) else if text = "f" then some (.bool false) else none

def readBytes (cs : List Char) : Option Value :=
  match cs with
  | '\\' :: 'x' :: r => (readHexOctets r).map .bytes
  | _ => none

def readSmall (cs : List Char) : Option Value :=
  (readInt cs).bind fun n => if -32768 ≤ n ∧ n ≤ 32767 then some (.int32 (Int32.ofInt n)) else none

def read (type : CellType) (text : String) : Option Value :=
  let cs := text.toList
  match type with
  | .bool => readBool text
  | .bytea => readBytes cs
  | .int2 => readSmall cs
  | .int4 => (readInt32 cs).map .int32
  | .int8 => (readInt64 cs).map .int64
  | .float4 => (Binary32.read cs).map .float32
  | .float8 => (Binary64.read cs).map .float64
  | .date => (Date.read text).map .date
  | .time => (Time.read text).map .time
  | .timestamp | .timestamptz => (Instant.read text).map .instant
  | .uuid => (Uuid.read text).map .uuid
  | .json | .jsonb => (Json.read text).map .json
  | .text => some (.text text)

end CellType

def decodeCell (index : Nat) (column : ResultColumn) : Option String → Except Fault Value
  | none => .ok .null
  | some text =>
    let type := CellType.ofNumber column.type
    match type.read text with
    | some v => .ok v
    | none => .error (.query (.undecodable type.name index))

-- Cells from the first column on; the first that cannot be read fails the row. Of columns with
-- one name the later stays.
def decodeCells (index : Nat) (row : Row) : List (ResultColumn × Option String) → Except Fault Row
  | [] => .ok row
  | (column, cell) :: r => do
    let v ← decodeCell index column cell
    decodeCells (index + 1) (Columns.set column.name v row) r

def decodeRow (columns : List ResultColumn) (cells : List (Option String)) : Except Fault Row :=
  decodeCells 0 [] (columns.zip cells)

def ResultSet.decode (result : ResultSet) : Except Fault (List Row) :=
  result.rows.mapM (decodeRow result.columns)

end QueryKit
