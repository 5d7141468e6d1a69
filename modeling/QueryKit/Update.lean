import QueryKit.Columns
import QueryKit.Filter

-- UPDATE and DELETE statements. Their filters never qualify a column.

namespace QueryKit

def filterSql (groups : List Group) : Sql :=
  match Group.whereSql? false groups with
  | some clause => .word " " :: clause
  | none => []

structure Update where
  zone : Zone
  table : Option String
  changes : Columns Value
  groups : List Group

namespace Update

def new (zone : Zone) : Update := ⟨zone, none, [], []⟩

def ofTable (table : String) (q : Update) : Update := { q with table := some table }

def set (column : String) (v : Value) (q : Update) : Update :=
  { q with changes := Columns.set column v q.changes }

def setAll (changes : List (String × Value)) (q : Update) : Update :=
  { q with changes := Columns.setAll changes q.changes }

def filter (conditions : Conditions) (q : Update) : Update :=
  { q with groups := q.groups ++ [.plain none conditions] }

def assignments (changes : Columns Value) : List Sql :=
  changes.map fun (column, v) => [.name [column], .word " = ", .literal v]

def sql (q : Update) : Except Fault Sql :=
  match q.table with
  | none => .error (.query (.noTable .update))
  | some table =>
    if q.changes.isEmpty then .error (.query (.noChanges table))
    else .ok (.word "UPDATE " :: .name [table] :: .word " SET " ::
      Sql.separated ", " (assignments q.changes) ++ filterSql q.groups)

def build (q : Update) : Except Fault String := q.sql.bind (Sql.render q.zone)

end Update

structure Remove where
  zone : Zone
  table : Option String
  groups : List Group

namespace Remove

def new (zone : Zone) : Remove := ⟨zone, none, []⟩

def ofTable (table : String) (q : Remove) : Remove := { q with table := some table }

def filter (conditions : Conditions) (q : Remove) : Remove :=
  { q with groups := q.groups ++ [.plain none conditions] }

def sql (q : Remove) : Except Fault Sql :=
  match q.table with
  | none => .error (.query (.noTable .delete))
  | some table => .ok (.word "DELETE FROM " :: .name [table] :: filterSql q.groups)

def build (q : Remove) : Except Fault String := q.sql.bind (Sql.render q.zone)

end Remove

end QueryKit
