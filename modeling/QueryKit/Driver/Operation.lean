import QueryKit.Driver.Find
import QueryKit.Insert
import QueryKit.Property.Basic
import QueryKit.Row
import QueryKit.Update

-- What a driver can be asked for: each operation is one statement and a reading of its rows.

namespace QueryKit
open Text

inductive Operation where
  | find (columns : List String) (table : String) (conditions : Conditions) (related : Related)
      (shape : Shape)
  | count (table : String) (conditions : Conditions) (related : Related)
  | insert (table : String) (data : Row) (keys : List Property)
  | update (table : String) (changes : Row) (conditions : Conditions)
  | remove (table : String) (conditions : Conditions)
  | clear (table : String)
  | query (sql : String) (arguments : List Value)
  | execute (sql : String)
  | associated (association : Association) (columns : List String) (parents : List Value)
  | ping
  | beginTransaction
  | commit
  | rollback

inductive Answer where
  | rows (rows : List Row)
  | count (n : Int64)
  | keys (row : Row)
  | done

def insertSql (zone : Zone) (table : String) (data : Row) : Except Fault String := do
  let sql ← (((Insert.new zone).into table).setAll data).build
  pure (sql ++ " RETURNING *")

-- Without arguments the text is taken as it is, its marks included.
def querySql (zone : Zone) (sql : String) (arguments : List Value) : Except Fault String :=
  if arguments.isEmpty then .ok sql else Template.queryText zone sql arguments

namespace Operation

def statement (zone : Zone) : Operation → Except Fault String
  | .find columns table conditions related shape => findSql zone columns table conditions related shape
  | .count table conditions related => countSql zone table conditions related
  | .insert table data _ => insertSql zone table data
  | .update table changes conditions =>
    ((((Update.new zone).ofTable table).setAll changes).filter conditions).build
  | .remove table conditions => (((Remove.new zone).ofTable table).filter conditions).build
  | .clear table => .ok ("TRUNCATE TABLE " ++ Sql.path [table])
  | .query sql arguments => querySql zone sql arguments
  | .execute sql => .ok sql
  | .associated association columns parents => associatedSql zone association columns parents
  | .ping => .ok "SELECT * FROM pg_stat_activity LIMIT 1"
  | .beginTransaction => .ok "BEGIN"
  | .commit => .ok "COMMIT"
  | .rollback => .ok "ROLLBACK"

def countOf (rows : List Row) : Except Fault Int64 :=
  match rows.head?.bind (Columns.get? "c") with
  | some (.int64 n) => .ok n
  | some (.int32 n) => .ok (Int64.ofInt n.toInt)
  | some (.text s) =>
    match readInt64 s.toList with
    | some n => .ok n
    | none => .error (.query (.countNotNumeric s))
  | _ => .ok 0

-- The value of a key: from the row that came back, else from the data under either name.
def keyValue (returned : Option Row) (data : Row) (p : Property) : Value :=
  (match returned with
    | some row => Columns.get? p.mapsTo row
    | none => (Columns.get? p.name data).or (Columns.get? p.mapsTo data)).getD .null

def keysOf (returned : Option Row) (data : Row) (keys : List Property) : Row :=
  Columns.ofPairs (keys.map fun p => (p.name, keyValue returned data p))

def answer (rows : List Row) : Operation → Except Fault Answer
  | .count .. => (countOf rows).map .count
  | .insert _ data keys => .ok (.keys (keysOf rows.head? data keys))
  | .ping | .beginTransaction | .commit | .rollback => .ok .done
  | _ => .ok (.rows rows)

end Operation

end QueryKit
