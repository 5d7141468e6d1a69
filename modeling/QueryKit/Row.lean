import QueryKit.Columns
import QueryKit.Fault
import QueryKit.Json.Basic
import QueryKit.Value.Json

-- A row of a result: named columns in their order, and typed access to them by way of JSON.

namespace QueryKit

abbrev Row := Columns Value

namespace Row

def toJson (row : Row) : Json := .ofMembers (row.map fun (column, v) => (column, v.toJson))

def getAs {α : Type} (read : Json → Option α) (column : String) (row : Row) : Except Fault α :=
  match Columns.get? column row with
  | none => .error (.query (.unknownColumn column))
  | some v =>
    match read v.toJson with
    | some a => .ok a
    | none => .error .serialization

end Row

-- A row as it is filled: the names of its columns and their values in two lists, each value in the place of its name.
structure Record where
  names : List String
  values : List Value

namespace Record

def empty : Record := ⟨[], []⟩

def insert (name : String) (v : Value) (r : Record) : Record :=
  match r.names.idxOf? name with
  | some index => { r with values := r.values.set index v }
  | none => ⟨r.names ++ [name], r.values ++ [v]⟩

def insertAll (pairs : List (String × Value)) (r : Record) : Record :=
  pairs.foldl (fun done p => done.insert p.1 p.2) r

def ofPairs (pairs : List (String × Value)) : Record := insertAll pairs empty

def get? (name : String) (r : Record) : Option Value :=
  (r.names.idxOf? name).bind fun index => r.values[index]?

def valueAt? (index : Nat) (r : Record) : Option Value := r.values[index]?

def length (r : Record) : Nat := r.names.length

def isEmpty (r : Record) : Bool := r.names.isEmpty

def row (r : Record) : Row := r.names.zip r.values

-- Each name has its value, so that no place that the search gives is outside the values.
def Aligned (r : Record) : Prop := r.names.length = r.values.length

theorem names_insert (name : String) (v : Value) (r : Record) :
    (r.insert name v).names = if name ∈ r.names then r.names else r.names ++ [name] := by
  unfold insert
  cases found : r.names.idxOf? name with
  | some index =>
    obtain ⟨inside, same, -⟩ := List.idxOf?_eq_some_iff.mp found
    have known : name ∈ r.names := same ▸ List.getElem_mem inside
    exact (if_pos known).symm
  | none => exact (if_neg (List.idxOf?_eq_none_iff.mp found)).symm

theorem Aligned.insert {r : Record} (aligned : r.Aligned) (name : String) (v : Value) : (r.insert name v).Aligned := by
  unfold Record.insert
  cases r.names.idxOf? name with
  | some index => exact aligned.trans List.length_set.symm
  | none =>
    show (r.names ++ [name]).length = (r.values ++ [v]).length
    rw [List.length_append, List.length_append, aligned]
    rfl

theorem set_zip (name : String) (v : Value) {names : List String} {values : List Value}
    (aligned : names.length = values.length) : Columns.set name v (names.zip values) =
      match names.idxOf? name with
      | some index => names.zip (values.set index v)
      | none => names.zip values ++ [(name, v)] := by
  induction names generalizing values with
  | nil => rfl
  | cons n names ih =>
    cases values with
    | nil => cases aligned
    | cons w values =>
      have behind := ih (Nat.succ.inj aligned)
      rw [List.idxOf?_cons, List.zip_cons_cons, Columns.set]
      by_cases same : n = name
      · subst same
        simp
      · rw [if_neg same, behind]
        cases names.idxOf? name <;> simp [same]

theorem row_insert {r : Record} (aligned : r.Aligned) (name : String) (v : Value) :
    (r.insert name v).row = Columns.set name v r.row := by
  unfold row insert
  rw [set_zip name v aligned]
  cases r.names.idxOf? name with
  | some index => rfl
  | none => exact List.zip_append aligned

end Record

end QueryKit
