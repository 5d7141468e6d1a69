import QueryKit.Proofs.SearchTables

-- Which tables the order of a search can name. The tables are looked up when the order is given, and that is before the
-- table of a merge is joined.

namespace QueryKit

-- The first table that an entry of the order names and that is none of the given ones.
def Shape.refused? (s : Shape) (tables : List (String × String)) : Option String :=
  (s.order.filterMap (·.table)).find? fun name => !Select.isNamed tables name

-- With more tables the answer is another one only where the first entry that is refused names one of these.
theorem Shape.refused?_append_iff (s : Shape) (tables more : List (String × String)) :
    s.refused? tables = s.refused? (tables ++ more) ↔
      ∀ name, s.refused? tables = some name → Select.isNamed more name = false := by
  have split (name : String) : Select.isNamed (tables ++ more) name = (Select.isNamed tables name || Select.isNamed more name) :=
    List.any_append
  unfold refused?
  simp only [split, Bool.not_or]
  induction s.order.filterMap (·.table) with
  | nil => simp
  | cons name r ih =>
    cases named : Select.isNamed tables name with
    | true => simpa [named] using ih
    | false =>
      cases known : Select.isNamed more name with
      | false => simp [named, known]
      | true =>
        have other : some name ≠ r.find? fun n => !Select.isNamed tables n && !Select.isNamed more n := by
          intro same
          have unnamed := List.find?_some same.symm
          simp [known] at unnamed
        simp [named, known, other]

namespace Select

section
variable {tables : List (String × String)}

theorem tablesAfter_still {calls : List Call} (still : ∀ c ∈ calls, c.onTables tables = .ok tables) :
    tablesAfter tables calls = .ok tables := by
  induction calls with
  | nil => rfl
  | cons c r ih =>
    obtain ⟨here, later⟩ := List.forall_mem_cons.mp still
    rw [tablesAfter, here]
    exact ih later

theorem tablesAfter_order (order : List OrderSpec) : tablesAfter tables (order.map orderCall) =
    match (order.filterMap (·.table)).find? (fun name => !isNamed tables name) with
    | some name => .error (.unknownTable name)
    | none => .ok tables := by
  induction order with
  | nil => rfl
  | cons o r ih =>
    obtain ⟨column, direction, table⟩ := o
    cases table with
    | none => exact ih
    | some name =>
      have entry : tablesAfter tables ((OrderSpec.mk column direction (some name) :: r).map orderCall) =
          lookUp name tables >>= fun _ => tablesAfter tables (r.map orderCall) := by
        simp only [List.map_cons, tablesAfter, orderCall, Call.onTables]
        cases lookUp name tables <;> rfl
      have names : (OrderSpec.mk column direction (some name) :: r).filterMap (·.table) = name :: r.filterMap (·.table) := rfl
      rw [entry, names]
      cases named : isNamed tables name with
      | false =>
        rw [lookUp_of_unnamed named, List.find?_cons_of_pos (by simp [named])]
        rfl
      | true =>
        obtain ⟨label, given⟩ := lookUp_of_named named
        rw [given, List.find?_cons_of_neg (by simp [named])]
        exact ih

theorem shapeCalls_parts (s : Shape) : ∃ before after, shapeCalls s = before ++ s.order.map orderCall ++ after ∧
    ∀ tables, (∀ c ∈ before, c.onTables tables = .ok tables) ∧ ∀ c ∈ after, c.onTables tables = .ok tables := by
  refine ⟨_, _, rfl, fun tables => ⟨List.forall_mem_append.mpr ⟨?offset, ?limit⟩, ?distinct⟩⟩
  case offset =>
    split
    · split <;> simp [Call.onTables]
    · simp
  case limit => cases s.limit <;> simp [Call.onTables]
  case distinct => cases s.distinctOn <;> simp [Call.onTables]

theorem tablesAfter_shape (s : Shape) : tablesAfter tables (shapeCalls s) =
    match s.refused? tables with
    | some name => .error (.unknownTable name)
    | none => .ok tables := by
  obtain ⟨before, after, parts, still⟩ := shapeCalls_parts s
  obtain ⟨first, second⟩ := still tables
  rw [parts, tablesAfter_append, tablesAfter_append, tablesAfter_still first]
  change (tablesAfter tables (s.order.map orderCall) >>= fun next => tablesAfter next after) = _
  rw [tablesAfter_order, ← Shape.refused?]
  cases s.refused? tables with
  | some name => rfl
  | none => exact tablesAfter_still second

end

theorem build_known (q : Select) (name : String) : q.build.1 ≠ .error (.unknownTable name) := by
  intro failed
  unfold build at failed
  cases checked : q.check .select with
  | error fault =>
    rw [checked] at failed
    cases failed
    unfold check at checked
    repeat' split at checked
    all_goals cases checked
  | ok =>
    rw [checked] at failed
    simp only [Sql.render] at failed
    split at failed <;> cases failed

section
variable {zone : Zone} {columns : List String} {table : String} {conditions : Conditions} {r : Related} {s : Shape}

theorem unknown_search_iff (name : String) : findSql zone columns table conditions r s = .error (.unknownTable name) ↔
    tablesAfter [] (findCalls columns table conditions r s) = .error (.unknownTable name) := by
  have plain := plain_of_steady (steady_findCalls columns table conditions r s)
  have put := error_applyAll_iff plain (new zone) (.unknownTable name)
  constructor
  · intro failed
    rcases error_of_bind failed with stopped | ⟨q, _, unwritten⟩
    · exact put.mp stopped
    · exact absurd unwritten (build_known q name)
  · intro stopped
    rw [findSql, put.mpr stopped]
    rfl

theorem plain_openingCalls (columns : List String) (table : String) (joins : List JoinSpec) :
    ∀ c ∈ openingCalls columns table joins, c.isTemplate = false :=
  plain_of_steady ((steady_of_keeps (by simp [Call.keepsAliases])).append (steady_joinsFrom 1 joins))

theorem search_unopened {fault : Fault} (failed : tablesAfter [] (openingCalls columns table r.joins) = .error fault) :
    tablesAfter [] (findCalls columns table conditions r s) = .error fault := by
  rw [findCalls_eq, tablesAfter_append, failed]
  rfl

theorem search_opened {opened : List (String × String)}
    (joined : tablesAfter [] (openingCalls columns table r.joins) = .ok opened) :
    tablesAfter [] (findCalls columns table conditions r s) = match s.refused? (searchTables table r.joins) with
      | some name => .error (.unknownTable name)
      | none => tablesAfter (searchTables table r.joins) (mergeCalls r ++ closingCalls table conditions r s) := by
  rw [findCalls_eq, tablesAfter_append, joined, tables_opened joined]
  change tablesAfter (searchTables table r.joins) (shapeCalls s ++ _) = _
  rw [tablesAfter_append, tablesAfter_shape]
  cases s.refused? (searchTables table r.joins) <;> rfl

end

end Select

-- What the order of a search can name: the table that is searched or one that is joined to it, or its alias. With all
-- other references known, an unknown table is reported just when the joins can be made and an entry names none of
-- these; the first such entry is reported. The query that is put together has the table of the merge too, and this
-- makes a difference just when that first entry names it.
theorem order_refused_iff (zone : Zone) (columns : List String) (table : String) (conditions : Conditions) (r : Related)
    (s : Shape) (others : ∀ name, findSql zone columns table conditions r { s with order := [] } ≠ .error (.unknownTable name)) :
    (∀ name, findSql zone columns table conditions r s = .error (.unknownTable name) ↔
      (∃ joined, (Select.new zone).applyAll (Select.openingCalls columns table r.joins) = .ok joined) ∧
        s.refused? (Select.searchTables table r.joins) = some name) ∧
    (∀ shape q, (Select.new zone).applyAll (Select.findCalls columns table conditions r shape) = .ok q →
      q.tables = Select.searchTables table r.joins ++ Select.mergeTables r) ∧
    (s.refused? (Select.searchTables table r.joins) =
        s.refused? (Select.searchTables table r.joins ++ Select.mergeTables r) ↔
      ∀ name, s.refused? (Select.searchTables table r.joins) = some name →
        Select.isNamed (Select.mergeTables r) name = false) := by
  refine ⟨fun name => ?_, fun shape q => Select.tables_of_search, s.refused?_append_iff _ _⟩
  have known := others name
  have plain := Select.plain_openingCalls columns table r.joins
  rw [ne_eq, Select.unknown_search_iff] at known
  rw [Select.unknown_search_iff]
  cases opened : (Select.new zone).applyAll (Select.openingCalls columns table r.joins) with
  | error fault =>
    have failed := (Select.error_applyAll_iff plain (Select.new zone) fault).mp opened
    rw [Select.search_unopened failed] at known ⊢
    exact ⟨fun same => absurd same known, fun ⟨⟨_, reached⟩, _⟩ => by cases reached⟩
  | ok joined =>
    have reached := Select.tables_of_applyAll plain opened
    have unordered : Shape.refused? { s with order := [] } (Select.searchTables table r.joins) = none := rfl
    rw [Select.search_opened reached, unordered] at known
    rw [Select.search_opened reached]
    cases s.refused? (Select.searchTables table r.joins) with
    | some other => simp
    | none => exact ⟨fun same => absurd same known, fun ⟨_, refused⟩ => by cases refused⟩

-- Pets with the rows that link them to persons, in the order of a column of some table.
def linkedPets : Related :=
  { merge := some ⟨"person_pets", .single (.column "pet_id"), .single (.column "id"), ["person_id"], none, none⟩ }

def orderedBy (table : String) : Shape := { order := [⟨"person_id", .ascending, some table⟩] }

def linkedPetsFound : String :=
  "SELECT \"t1\".\"name\", \"t2\".\"person_id\" FROM \"pet\" \"t1\" JOIN \"person_pets\" \"t2\" ON \"t2\".\"pet_id\" = \"t1\".\"id\""

theorem owner_refused : findSql .utc ["name"] "pet" (.node [] []) linkedPets { orderedBy "owner" with order := [] } =
      .ok linkedPetsFound ∧
    findSql .utc ["name"] "pet" (.node [] []) linkedPets (orderedBy "owner") = .error (.unknownTable "owner") := by
  have written : (findSql .utc ["name"] "pet" (.node [] []) linkedPets { orderedBy "owner" with order := [] }).toOption =
      some linkedPetsFound := by decide +kernel
  have found := Select.ok_of_toOption written
  have others (name : String) : findSql .utc ["name"] "pet" (.node [] []) linkedPets
      { orderedBy "owner" with order := [] } ≠ .error (.unknownTable name) := by
    rw [found]
    exact fun failed => by cases failed
  have refused : (orderedBy "owner").refused? (Select.searchTables "pet" linkedPets.joins) = some "owner" := by decide +kernel
  exact ⟨found, ((order_refused_iff .utc _ _ _ _ _ others).1 "owner").mpr ⟨⟨_, rfl⟩, refused⟩⟩

-- An entry that names the linking table is refused, though the query has that table.
theorem linking_table_refused :
    findSql .utc ["name"] "pet" (.node [] []) linkedPets (orderedBy "person_pets") =
      .error (.unknownTable "person_pets") ∧
    ∃ q, (Select.new .utc).applyAll (Select.findCalls ["name"] "pet" (.node [] []) linkedPets {}) = .ok q ∧
      q.tables = [("pet", "t1"), ("person_pets", "t2")] ∧ q.build.1 = .ok linkedPetsFound := by
  refine ⟨rfl, ?_⟩
  have told : ((Select.new .utc).applyAll (Select.findCalls ["name"] "pet" (.node [] []) linkedPets {})).toOption.map
      (fun q => (q.tables, q.build.1.toOption)) =
      some ([("pet", "t1"), ("person_pets", "t2")], some linkedPetsFound) := by decide +kernel
  cases applied : (Select.new .utc).applyAll (Select.findCalls ["name"] "pet" (.node [] []) linkedPets {}) with
  | error fault =>
    rw [applied] at told
    cases told
  | ok q =>
    rw [applied] at told
    obtain ⟨tables, written⟩ := Prod.mk.inj (Option.some.inj told)
    exact ⟨q, rfl, tables, Select.ok_of_toOption written⟩

end QueryKit
