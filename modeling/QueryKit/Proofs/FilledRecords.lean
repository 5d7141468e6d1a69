import Mathlib.Data.List.Nodup
import QueryKit.Driver.Operation
import QueryKit.Proofs.Assignments
import QueryKit.Row

-- Columns that are filled pair by pair. A record keeps them in two lists, conditions and statements keep them in one,
-- and each has a search of its own. Told the same pairs they have the same columns: the distinct ones in the order in
-- which they first come, each with the value that comes last.

namespace QueryKit

namespace Columns
variable {α β : Type}

theorem ofPairs_settled (pairs : List (String × α)) : ofPairs (settled pairs) = settled pairs := by
  rw [← ofPairs_eq_settled]
  exact (ofPairs_eq_self_iff _).mpr (distinct_ofPairs pairs)

theorem map_set (f : α → β) (name : String) (v : α) (columns : Columns α) :
    (set name v columns).map (Prod.map id f) = set name (f v) (columns.map (Prod.map id f)) := by
  induction columns with
  | nil => rfl
  | cons p r ih =>
    obtain ⟨n, w⟩ := p
    simp only [set, List.map_cons, Prod.map_apply, id_eq]
    split
    · rfl
    · rw [List.map_cons, ih, Prod.map_apply, id_eq]

theorem map_settled (f : α → β) (pairs : List (String × α)) :
    (settled pairs).map (Prod.map id f) = settled (pairs.map (Prod.map id f)) := by
  rw [← ofPairs_eq_settled, ← ofPairs_eq_settled]
  induction pairs using List.reverseRecOn with
  | nil => rfl
  | append_singleton earlier p ih =>
    rw [ofPairs_append, List.map_append, ofPairs_append, ← ih]
    exact map_set f p.1 p.2 _

end Columns

namespace Record

structure Sound (r : Record) : Prop where
  aligned : r.Aligned
  distinct : r.names.Nodup

theorem sound_empty : empty.Sound := ⟨rfl, List.nodup_nil⟩

theorem Sound.insert {r : Record} (sound : r.Sound) (name : String) (v : Value) : (r.insert name v).Sound := by
  refine ⟨sound.aligned.insert name v, ?_⟩
  rw [names_insert]
  split
  · exact sound.distinct
  · next fresh =>
    rw [← List.concat_eq_append]
    exact sound.distinct.concat fresh

theorem Sound.insertAll {r : Record} (sound : r.Sound) (pairs : List (String × Value)) :
    (r.insertAll pairs).Sound := by
  induction pairs generalizing r with
  | nil => exact sound
  | cons p rest ih => exact ih (sound.insert p.1 p.2)

theorem row_insertAll {r : Record} (aligned : r.Aligned) (pairs : List (String × Value)) :
    (r.insertAll pairs).row = Columns.setAll pairs r.row := by
  induction pairs generalizing r with
  | nil => rfl
  | cons p rest ih =>
    show ((r.insert p.1 p.2).insertAll rest).row = Columns.setAll rest (Columns.set p.1 p.2 r.row)
    rw [ih (aligned.insert p.1 p.2), row_insert aligned]

theorem names_row {r : Record} (aligned : r.Aligned) : Columns.names r.row = r.names :=
  List.map_fst_zip (Nat.le_of_eq aligned)

-- However it is read, a record tells the same of each of its columns, and nothing of another.
structure Readable (r : Record) : Prop where
  aligned : r.names.length = r.values.length
  column : ∀ index name, r.names[index]? = some name →
    ∃ v, r.get? name = some v ∧ r.valueAt? index = some v ∧ r.row[index]? = some (name, v)
  absent : ∀ name, name ∉ r.names → r.get? name = none
  beyond : ∀ index, r.length ≤ index → r.valueAt? index = none ∧ r.row[index]? = none

theorem Sound.idxOf? {r : Record} (sound : r.Sound) {index : Nat} {name : String}
    (named : r.names[index]? = some name) : r.names.idxOf? name = some index := by
  obtain ⟨inside, same⟩ := List.getElem?_eq_some_iff.mp named
  refine List.idxOf?_eq_some_iff.mpr ⟨inside, same, fun earlier before again => ?_⟩
  have place := (sound.distinct.getElem_inj_iff).mp (again.trans same.symm)
  exact absurd place (Nat.ne_of_lt before)

theorem Sound.readable {r : Record} (sound : r.Sound) : r.Readable where
  aligned := sound.aligned
  column index name named := by
    obtain ⟨inside, -⟩ := List.getElem?_eq_some_iff.mp named
    have within : index < r.values.length := sound.aligned ▸ inside
    obtain ⟨v, held⟩ : ∃ v, r.values[index]? = some v := ⟨_, List.getElem?_eq_getElem within⟩
    refine ⟨v, ?_, held, List.getElem?_zip_eq_some.mpr ⟨named, held⟩⟩
    rw [get?, sound.idxOf? named, Option.bind_some, held]
  absent name unknown := by
    rw [get?, List.idxOf?_eq_none_iff.mpr unknown, Option.bind_none]
  beyond index behind := by
    have values : r.values.length ≤ index := sound.aligned ▸ behind
    refine ⟨List.getElem?_eq_none values, List.getElem?_eq_none ?_⟩
    rw [row, List.length_zip]
    exact Nat.le_trans (Nat.min_le_right _ _) values

def filled (collected inserted : List (String × Value)) : Record := (ofPairs collected).insertAll inserted

theorem sound_filled (collected inserted : List (String × Value)) : (filled collected inserted).Sound :=
  (sound_empty.insertAll collected).insertAll inserted

theorem row_filled (collected inserted : List (String × Value)) :
    (filled collected inserted).row = Columns.settled (collected ++ inserted) := by
  have made : (ofPairs collected).Sound := sound_empty.insertAll collected
  have first : (ofPairs collected).row = Columns.ofPairs collected := row_insertAll sound_empty.aligned collected
  rw [filled, row_insertAll made.aligned, first, ← Columns.ofPairs_append, Columns.ofPairs_eq_settled]

end Record

namespace Conditions

inductive Call where
  | set (column : String) (test : Test)
  | combine (op : Combinator) (groups : List Conditions)

def Call.pairs : Call → List (String × Test)
  | .set column test => [(column, test)]
  | .combine _ _ => []

def apply (c : Conditions) : Call → Conditions
  | .set column test => c.set column test
  | .combine op groups => c.combine op groups

def applyAll (c : Conditions) (calls : List Call) : Conditions := calls.foldl apply c

theorem columns_applyAll (c : Conditions) (calls : List Call) :
    (c.applyAll calls).columns = Columns.setAll (calls.flatMap Call.pairs) c.columns :=
  foldl_collected (fun _ => rfl) Columns.setAll_append (fun c call => by cases c; cases call <;> rfl) c calls

def filled (collected : List (String × Test)) (calls : List Call) : Conditions := (ofPairs collected).applyAll calls

theorem columns_filled (collected : List (String × Test)) (calls : List Call) :
    (filled collected calls).columns = Columns.settled (collected ++ calls.flatMap Call.pairs) := by
  rw [filled, columns_applyAll, ← Columns.ofPairs_eq_settled, Columns.ofPairs_append]
  rfl

-- Each column tested for a plain value.
def plain (pairs : List (String × Value)) : List (String × Test) := pairs.map (Prod.map id .value)

end Conditions

theorem insertSql_settled (zone : Zone) {calls : List Insert.Call} {table : String}
    (named : (calls.filterMap Insert.Call.table?).getLast? = some table) :
    insertSql zone table (Columns.settled (calls.flatMap Insert.Call.pairs)) =
      ((Insert.new zone).applyAll calls).build.map (· ++ " RETURNING *") := by
  have same : ((Insert.new zone).into table).setAll (Columns.settled (calls.flatMap Insert.Call.pairs)) =
      (Insert.new zone).applyAll calls := by
    rw [Insert.applyAll_new, named]
    exact congrArg (Insert.mk zone (some table)) (Columns.ofPairs_settled _)
  rw [insertSql, same]
  cases ((Insert.new zone).applyAll calls).build <;> rfl

-- However a record, conditions, an INSERT and an UPDATE are filled, with the same pairs their columns are the same. An
-- INSERT of the row of a record is thereby the one that the pairs themselves give.
theorem fillings_agree (zone : Zone) {pairs collected inserted : List (String × Value)}
    (told : collected ++ inserted = pairs) {opening : List (String × Test)} {tests : List Conditions.Call}
    (tested : (opening ++ tests.flatMap Conditions.Call.pairs).map (·.1) = pairs.map (·.1))
    {inserts : List Insert.Call} (inserting : inserts.flatMap Insert.Call.pairs = pairs)
    {updates : List Update.Call} (updating : updates.flatMap Update.Call.pairs = pairs)
    {table : String} (named : (inserts.filterMap Insert.Call.table?).getLast? = some table) :
    (Record.filled collected inserted).row = Columns.settled pairs ∧
    (Record.filled collected inserted).Readable ∧
    Columns.names (Conditions.filled opening tests).columns = (Record.filled collected inserted).names ∧
    (Conditions.filled opening tests).columns = Columns.settled (opening ++ tests.flatMap Conditions.Call.pairs) ∧
    (opening ++ tests.flatMap Conditions.Call.pairs = Conditions.plain pairs →
      (Conditions.filled opening tests).columns = Conditions.plain (Record.filled collected inserted).row) ∧
    ((Insert.new zone).applyAll inserts).values = (Record.filled collected inserted).row ∧
    ((Update.new zone).applyAll updates).changes = (Record.filled collected inserted).row ∧
    insertSql zone table (Record.filled collected inserted).row =
      ((Insert.new zone).applyAll inserts).build.map (· ++ " RETURNING *") := by
  have sound := Record.sound_filled collected inserted
  have row : (Record.filled collected inserted).row = Columns.settled pairs :=
    told ▸ Record.row_filled collected inserted
  have columns := Conditions.columns_filled opening tests
  have values : ((Insert.new zone).applyAll inserts).values = Columns.settled pairs := by
    rw [Insert.applyAll_new, inserting]
  have changes : ((Update.new zone).applyAll updates).changes = Columns.settled pairs := by
    rw [Update.changes_settled, updating]
  refine ⟨row, sound.readable, ?_, columns, ?_, values.trans row.symm, changes.trans row.symm, ?_⟩
  · rw [columns, Columns.names_settled, tested, ← Record.names_row sound.aligned, row, Columns.names_settled]
  · intro same
    rw [columns, same, row]
    exact (Columns.map_settled _ _).symm
  · rw [row, ← inserting]
    exact insertSql_settled zone named

def juneEarly : List (String × Value) := [("name", .text "Jane"), ("adult", .bool true)]

def juneLate : List (String × Value) := [("name", .text "June")]

def juneTests : List Conditions.Call :=
  [.set "adult" (.value (.bool true)), .combine .or [], .set "name" (.value (.text "June"))]

def juneInserts : List Insert.Call := [.setAll juneEarly, .into "person", .set "name" (.text "June")]

def juneUpdates : List Update.Call := [.set "name" (.text "Jane"), .ofTable "person",
  .setAll (("adult", .bool true) :: juneLate), .filter .empty]

def juneRow : Row := [("name", .text "June"), ("adult", .bool true)]

theorem june_filled :
    [("name", Test.value (.text "Jane"))] ++ juneTests.flatMap Conditions.Call.pairs =
      Conditions.plain (juneEarly ++ juneLate) ∧
    juneInserts.flatMap Insert.Call.pairs = juneEarly ++ juneLate ∧
    juneUpdates.flatMap Update.Call.pairs = juneEarly ++ juneLate ∧
    (juneInserts.filterMap Insert.Call.table?).getLast? = some "person" ∧
    (Record.filled juneEarly juneLate).row = juneRow ∧
    (Record.filled juneEarly juneLate).names.length = (Record.filled juneEarly juneLate).values.length ∧
    (Conditions.filled [("name", .value (.text "Jane"))] juneTests).columns = Conditions.plain juneRow ∧
    ((Insert.new .utc).applyAll juneInserts).values = juneRow ∧
    ((Update.new .utc).applyAll juneUpdates).changes = juneRow ∧
    insertSql .utc "person" (Record.filled juneEarly juneLate).row =
      .ok "INSERT INTO \"person\" (\"name\", \"adult\") VALUES ('June', true) RETURNING *" := by
  have tested : [("name", Test.value (.text "Jane"))] ++ juneTests.flatMap Conditions.Call.pairs =
      Conditions.plain (juneEarly ++ juneLate) := rfl
  have inserting : juneInserts.flatMap Insert.Call.pairs = juneEarly ++ juneLate := rfl
  have updating : juneUpdates.flatMap Update.Call.pairs = juneEarly ++ juneLate := rfl
  have named : (juneInserts.filterMap Insert.Call.table?).getLast? = some "person" := rfl
  have settled : Columns.settled (juneEarly ++ juneLate) = juneRow := rfl
  obtain ⟨row, readable, -, -, conditions, values, changes, statement⟩ :=
    fillings_agree .utc (rfl : juneEarly ++ juneLate = _) (by rw [tested]; rfl) inserting updating named
  rw [settled] at row
  rw [row] at conditions values changes statement
  refine ⟨tested, inserting, updating, named, row, readable.aligned, conditions tested, values, changes, ?_⟩
  rw [row, statement]
  rfl

end QueryKit
