import QueryKit.Proofs.Assignments
import QueryKit.Server.Cell

-- Result rows as they are decoded. A row has one value for each name, so that it shows the result as it is just
-- when each of its columns has a name of its own.

namespace QueryKit

def cellValues (first : Nat) (cells : List (ResultColumn × Option String)) : List (Except Fault Value) :=
  (cells.zipIdx first).map fun (cell, index) => decodeCell index cell.1 cell.2

theorem decodeCells_eq_ok_iff (first : Nat) (row result : Row) (cells : List (ResultColumn × Option String)) :
    decodeCells first row cells = .ok result ↔ ∃ values, cellValues first cells = values.map .ok ∧
      result = Columns.setAll ((cells.map (·.1.name)).zip values) row := by
  induction cells generalizing first row with
  | nil =>
    constructor
    · intro decoded
      cases decoded
      exact ⟨[], rfl, rfl⟩
    · rintro ⟨values, read, rfl⟩
      cases values with
      | nil => rfl
      | cons v r => cases read
  | cons cell r ih =>
    obtain ⟨column, text⟩ := cell
    have step : cellValues first ((column, text) :: r) = decodeCell first column text :: cellValues (first + 1) r := by
      simp [cellValues, List.zipIdx_cons]
    rw [step]
    constructor
    · intro decoded
      cases here : decodeCell first column text with
      | error fault =>
        rw [decodeCells, here] at decoded
        cases decoded
      | ok v =>
        rw [decodeCells, here] at decoded
        obtain ⟨values, read, rfl⟩ := (ih _ _).mp decoded
        exact ⟨v :: values, by rw [read, List.map_cons], rfl⟩
    · rintro ⟨values, read, rfl⟩
      cases values with
      | nil => cases read
      | cons v values =>
        obtain ⟨here, later⟩ := List.cons_eq_cons.mp read
        rw [decodeCells, here]
        exact (ih _ _).mpr ⟨values, later, rfl⟩

-- A result row is decoded when each of its cells can be read by the type of its column. What comes out has its
-- distinct names in the order in which they first come, each with the last value. So it is the result row itself,
-- column for column, exactly when no name comes twice, and has fewer columns in every other case.
theorem decoded_whole_iff {columns : List ResultColumn} {cells : List (Option String)}
    (full : cells.length = columns.length) :
    (∀ row, decodeRow columns cells = .ok row ↔ ∃ values, cellValues 0 (columns.zip cells) = values.map .ok ∧
      row = Columns.settled ((columns.map (·.name)).zip values)) ∧
    ∀ row values, decodeRow columns cells = .ok row → cellValues 0 (columns.zip cells) = values.map .ok →
      (row = (columns.map (·.name)).zip values ↔ (columns.map (·.name)).Nodup) ∧
      (row.length = columns.length ↔ (columns.map (·.name)).Nodup) := by
  have named : (columns.zip cells).map (·.1.name) = columns.map (·.name) := by
    have firsts : (columns.zip cells).map Prod.fst = columns := List.map_fst_zip (Nat.le_of_eq full.symm)
    calc (columns.zip cells).map (·.1.name)
      _ = ((columns.zip cells).map Prod.fst).map (·.name) := by rw [List.map_map]; rfl
      _ = columns.map (·.name) := by rw [firsts]
  have decodes : ∀ row, decodeRow columns cells = .ok row ↔ ∃ values, cellValues 0 (columns.zip cells) = values.map .ok ∧
      row = Columns.ofPairs ((columns.map (·.name)).zip values) := by
    intro row
    rw [decodeRow, decodeCells_eq_ok_iff, named]
    rfl
  constructor
  · simpa only [Columns.ofPairs_eq_settled] using decodes
  · intro row values decoded read
    obtain ⟨own, again, rfl⟩ := (decodes row).mp decoded
    have same : own = values := List.map_injective_iff.mpr (fun _ _ => Except.ok.inj) (again.symm.trans read)
    subst same
    have count : own.length = columns.length := by
      have lengths := congrArg List.length read
      simpa [cellValues, full] using lengths.symm
    have names : ((columns.map (·.name)).zip own).map (·.1) = columns.map (·.name) :=
      List.map_fst_zip (by simp [count])
    have pairs : ((columns.map (·.name)).zip own).length = columns.length := by simp [count]
    constructor
    · rw [Columns.ofPairs_eq_self_iff, names]
    · rw [← pairs, Columns.length_ofPairs_eq_iff, names]

def janeColumns : List ResultColumn := [⟨"name", 25⟩, ⟨"adult", 16⟩, ⟨"nickname", 25⟩]

def janeRow : Row := [("name", .text "Jane"), ("adult", .bool true), ("nickname", .null)]

theorem jane_whole : [some "Jane", some "t", none].length = janeColumns.length ∧
    decodeRow janeColumns [some "Jane", some "t", none] = .ok janeRow ∧ janeRow.length = janeColumns.length := by
  have full : [some "Jane", some "t", none].length = janeColumns.length := rfl
  have read : cellValues 0 (janeColumns.zip [some "Jane", some "t", none]) =
      [Value.text "Jane", .bool true, .null].map .ok := rfl
  obtain ⟨decodes, whole⟩ := decoded_whole_iff full
  have decoded := (decodes janeRow).mpr ⟨_, read, rfl⟩
  exact ⟨full, decoded, (whole _ _ decoded read).2.mpr (by decide)⟩

def nameColumns : List ResultColumn := [⟨"name", 25⟩, ⟨"name", 25⟩]

theorem firstName_lost :
    cellValues 0 (nameColumns.zip [some "Jane", some "Rex"]) = [.ok (.text "Jane"), .ok (.text "Rex")] ∧
    decodeRow nameColumns [some "Jane", some "Rex"] = .ok [("name", .text "Rex")] ∧
    ¬ ∃ row, decodeRow nameColumns [some "Jane", some "Rex"] = .ok row ∧ row.length = nameColumns.length := by
  have decoded : decodeRow nameColumns [some "Jane", some "Rex"] = .ok [("name", .text "Rex")] := rfl
  refine ⟨rfl, decoded, ?_⟩
  rintro ⟨row, again, whole⟩
  cases decoded.symm.trans again
  cases whole

end QueryKit
