import QueryKit.Columns
import QueryKit.Sql.Basic

-- INSERT statements. Without values the row takes the defaults of its table.

namespace QueryKit

structure Insert where
  zone : Zone
  table : Option String
  values : Columns Value

namespace Insert

def new (zone : Zone) : Insert := ⟨zone, none, []⟩

def into (table : String) (q : Insert) : Insert := { q with table := some table }

def set (column : String) (v : Value) (q : Insert) : Insert :=
  { q with values := Columns.set column v q.values }

def setAll (values : List (String × Value)) (q : Insert) : Insert :=
  { q with values := Columns.setAll values q.values }

def valuesSql (values : Columns Value) : Sql :=
  if values.isEmpty then [.word " DEFAULT VALUES"]
  else
    .word " (" :: Sql.separated ", " (values.map fun (column, _) => [.name [column]]) ++
      .word ") VALUES (" :: Sql.separated ", " (values.map fun (_, v) => [.literal v]) ++ [.word ")"]

def sql (q : Insert) : Except Fault Sql :=
  match q.table with
  | none => .error (.query (.noTable .insert))
  | some table => .ok (.word "INSERT INTO " :: .name [table] :: valuesSql q.values)

def build (q : Insert) : Except Fault String := q.sql.bind (Sql.render q.zone)

end Insert

end QueryKit
