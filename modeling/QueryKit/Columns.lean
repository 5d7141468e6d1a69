-- Named columns in the order in which they were first set. Setting a column again replaces its
-- value and keeps its place.

namespace QueryKit

abbrev Columns (α : Type) := List (String × α)

namespace Columns
variable {α : Type}

def set (name : String) (value : α) : Columns α → Columns α
  | [] => [(name, value)]
  | (n, v) :: r => if n = name then (n, value) :: r else (n, v) :: set name value r

def get? (name : String) : Columns α → Option α
  | [] => none
  | (n, v) :: r => if n = name then some v else get? name r

def setAll (pairs : List (String × α)) (columns : Columns α) : Columns α :=
  pairs.foldl (fun done p => set p.1 p.2 done) columns

def ofPairs (pairs : List (String × α)) : Columns α := setAll pairs []

def names (columns : Columns α) : List String := columns.map (·.1)

theorem get?_set (name other : String) (value : α) (columns : Columns α) :
    get? other (set name value columns) = if name = other then some value else get? other columns := by
  induction columns with
  | nil => simp [set, get?]
  | cons p r ih =>
    obtain ⟨n, v⟩ := p
    by_cases same : n = name
    · subst same
      by_cases hit : n = other <;> simp [set, get?, hit]
    · by_cases hit : n = other
      · subst hit; simp [set, get?, same, Ne.symm same]
      · simp [set, get?, same, hit, ih]

theorem names_set (name : String) (value : α) (columns : Columns α) :
    names (set name value columns) =
      if name ∈ names columns then names columns else names columns ++ [name] := by
  induction columns with
  | nil => simp [set, names]
  | cons p r ih =>
    obtain ⟨n, v⟩ := p
    by_cases same : n = name
    · subst same; simp [set, names]
    · have apart : name ≠ n := Ne.symm same
      simp only [names] at ih
      by_cases member : name ∈ r.map (·.1) <;> simp_all [set, names]

end Columns

end QueryKit
