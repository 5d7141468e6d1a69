import QueryKit.Proofs.SearchTables

-- What the conditions of a joined table are about. They are given with its alias, and this is looked up like any other
-- name: a table in front that is called so answers to it first.

namespace QueryKit

namespace Select

-- The alias of the table that answers when the one with the alias `own` stands behind the given ones.
def answering (front : List (String × String)) (own : String) : String :=
  ((front.find? fun t => t.1 == own).map (·.2)).getD own

theorem lookUp_behind (table own : String) (front : List (String × String)) :
    lookUp own (front ++ [(table, own)]) = .ok (answering front own) := by
  unfold lookUp found? answering
  cases named : front.find? (fun t => t.1 == own) with
  | some earlier => simp [List.find?_append, named]
  | none =>
    by_cases same : table = own
    · simp [List.find?_append, named, same]
    · cases aliased : front.find? (fun t => t.2 == own) with
      | none => simp [List.find?_append, named, aliased, same]
      | some earlier =>
        have label : earlier.2 = own := by simpa using List.find?_some aliased
        simp [List.find?_append, named, aliased, same, label]

theorem answering_own_iff {front : List (String × String)} {own : String} (apart : own ∉ front.map (·.2)) :
    answering front own = own ↔ own ∉ front.map (·.1) := by
  unfold answering
  cases named : front.find? (fun t => t.1 == own) with
  | none =>
    rw [List.find?_eq_none] at named
    refine ⟨fun _ member => ?_, fun _ => rfl⟩
    obtain ⟨t, there, same⟩ := List.mem_map.mp member
    exact named t there (by simpa using same)
  | some earlier =>
    have there := List.mem_of_find?_eq_some named
    have same : earlier.1 = own := by simpa using List.find?_some named
    refine ⟨fun label => ?_, fun unnamed => ?_⟩
    · exact absurd (label ▸ List.mem_map_of_mem there) apart
    · exact absurd (same ▸ List.mem_map_of_mem there) unnamed

section
variable {q last : Select}

theorem grown_applyAll (calls : List Call) (applied : q.applyAll calls = .ok last) :
    ∃ added, last.groups = q.groups ++ added := by
  induction calls generalizing q with
  | nil =>
    cases applied
    exact ⟨[], (List.append_nil _).symm⟩
  | cons c r ih =>
    obtain ⟨next, here, rest⟩ := ok_of_bind applied
    obtain ⟨later, behind⟩ := ih rest
    rcases apply_groups here with same | ⟨g, grown, _⟩
    · exact ⟨later, by rw [behind, same]⟩
    · exact ⟨g :: later, by rw [behind, grown, List.append_assoc, List.singleton_append]⟩

theorem tables_renamed (table name : String) (joins : List Join) (q : Select) :
    ((q.addSource table joins).setAlias name).tables = q.tables ++ [(table, name)] := by
  rw [tables_setAlias, tables_addSource, numbered, mapLast_concat]

theorem groups_join {position : Nat} {j : JoinSpec} (applied : q.applyAll (joinCalls position j) = .ok last) :
    last.groups = q.groups ++ j.conditions.toList.map (Group.plain (some (answering q.tables (j.aliasAt position)))) := by
  obtain ⟨joined, added, applied⟩ := ok_of_bind applied
  obtain ⟨joins, rfl⟩ := addSource_of_addJoin added
  obtain ⟨renamed, given, filtered⟩ := ok_of_bind applied
  cases given
  have groups : ((q.addSource j.table joins).setAlias (j.aliasAt position)).groups = q.groups := (kept_setAlias _ _).1
  cases conditions : j.conditions with
  | none =>
    rw [conditions] at filtered
    cases filtered
    rw [Option.toList_none, List.map_nil, List.append_nil]
    exact groups
  | some c =>
    rw [conditions] at filtered
    obtain ⟨final, narrowed, ended⟩ := ok_of_bind filtered
    cases ended
    obtain ⟨label, found, narrowed⟩ := ok_of_bind narrowed
    cases narrowed
    have answered : ((q.addSource j.table joins).setAlias (j.aliasAt position)).resolve (j.aliasAt position) =
        .ok (answering q.tables (j.aliasAt position)) := by
      rw [resolve_tables, tables_renamed, lookUp_behind]
    cases answered.symm.trans found
    exact congrArg (· ++ _) groups

-- The filters that joined tables bring, one for each with conditions; `front` are the tables before them.
def joinedGroups (front : List (String × String)) (position : Nat) : List JoinSpec → List Group
  | [] => []
  | j :: r => j.conditions.toList.map (Group.plain (some (answering front (j.aliasAt position)))) ++
      joinedGroups (front ++ [(j.table, j.aliasAt position)]) (position + 1) r

theorem joinedGroups_append (tables : List (String × String)) (position : Nat) (front rest : List JoinSpec) :
    joinedGroups tables position (front ++ rest) = joinedGroups tables position front ++
      joinedGroups (tables ++ joinedTables position front) (position + front.length) rest := by
  induction front generalizing tables position with
  | nil =>
    rw [joinedTables, List.append_nil]
    rfl
  | cons j r ih =>
    have place : position + 1 + r.length = position + (j :: r).length := Nat.add_right_comm ..
    rw [List.cons_append, joinedGroups, joinedGroups, ih, place, joinedTables]
    simp

theorem groups_joins {position : Nat} {joins : List JoinSpec} (applied : q.applyAll (joinsFrom position joins) = .ok last) :
    last.groups = q.groups ++ joinedGroups q.tables position joins := by
  induction joins generalizing q position with
  | nil =>
    cases applied
    exact (List.append_nil _).symm
  | cons j r ih =>
    obtain ⟨middle, here, rest⟩ := applyAll_append _ _ applied
    have plain : ∀ c ∈ joinCalls position j, c.isTemplate = false := by
      unfold joinCalls
      cases j.conditions <;> simp [Call.isTemplate]
    have tables : middle.tables = q.tables ++ [(j.table, j.aliasAt position)] :=
      tables_join (tables_of_applyAll plain here)
    rw [ih rest, groups_join here, tables, List.append_assoc]
    rfl

theorem whereSql?_inside {q : Select} {clause : Sql} (given : q.whereSql? = some clause) :
    ∃ before after, q.statementSql = before ++ clause ++ after := by
  have rows : q.rowsSql = q.headSql ++ .word " " :: q.fromSql ++ [.word " "] ++ clause ++ q.tailSql := by
    rw [rowsSql_parts, scopeSql, given, Option.toList_some, Sql.separated_cons_cons, Sql.separated_singleton]
    simp
  exact inside_statement rows

end

theorem groups_of_search {zone : Zone} {columns : List String} {table : String} {conditions : Conditions} {r : Related}
    {s : Shape} {q : Select} (applied : (new zone).applyAll (findCalls columns table conditions r s) = .ok q) :
    ∃ later, q.groups = joinedGroups [(table, "t1")] 1 r.joins ++ later := by
  rw [findCalls_eq, openingCalls, List.append_assoc] at applied
  obtain ⟨front, based, applied⟩ := applyAll_append _ _ applied
  obtain ⟨joined, here, rest⟩ := applyAll_append _ _ applied
  obtain ⟨later, behind⟩ := grown_applyAll _ rest
  have tables : Except.ok front.tables = Except.ok (ε := Fault) [(table, "t1")] := by
    rw [← tables_of_applyAll (by simp [Call.isTemplate]) based]
    exact tablesAfter_base table columns
  have groups : front.groups = [] := by
    cases based
    exact groups_addItems _ (addTable table (new zone))
  refine ⟨later, ?_⟩
  rw [behind, groups_joins here, groups, Except.ok.inj tables, List.nil_append]

end Select

-- The conditions of a joined table make a filter of their own, behind those of the tables that were joined before
-- it. Its columns are qualified by the alias of whichever table answers to the alias of the joined one: by that alias
-- itself just when no table in front has it for a name, as long as none has it for an alias.
theorem join_filtered (zone : Zone) (columns : List String) (table : String) (conditions : Conditions) (r : Related)
    (s : Shape) {text : String} (found : findSql zone columns table conditions r s = .ok text)
    {front rest : List JoinSpec} {j : JoinSpec} (placed : r.joins = front ++ j :: rest) {c : Conditions}
    (given : j.conditions = some c) :
    ∃ q own label later, (Select.new zone).applyAll (Select.findCalls columns table conditions r s) = .ok q ∧
      text = q.statementSql.text q.zone ∧
      (∀ clause, q.whereSql? = some clause → ∃ before after, q.statementSql = before ++ clause ++ after) ∧
      own = j.aliasAt (front.length + 1) ∧ q.tables[front.length + 1]? = some (j.table, own) ∧
      label = Select.answering (Select.searchTables table front) own ∧
      q.whereSql? = Group.whereSql? true (Select.joinedGroups [(table, "t1")] 1 front ++ .plain (some label) c :: later) ∧
      (own ∉ (Select.searchTables table front).map (·.2) →
        (label = own ↔ own ∉ (Select.searchTables table front).map (·.1))) := by
  obtain ⟨q, applied, spelled⟩ := Select.search_written found
  obtain ⟨later, groups⟩ := Select.groups_of_search applied
  have tables := Select.tables_of_search applied
  have length := Select.length_searchTables table front
  rw [placed, Select.searchTables_split, List.append_assoc, List.cons_append] at tables
  have several : q.isAliased = true := by
    apply Select.isAliased_of_tables
    rw [tables, List.length_append, length, List.length_cons]
    omega
  refine ⟨q, _, _, Select.joinedGroups (Select.searchTables table front ++ [(j.table, j.aliasAt (front.length + 1))])
    (front.length + 2) rest ++ later, applied, spelled, fun clause => Select.whereSql?_inside, rfl, ?place, rfl, ?clause,
    Select.answering_own_iff⟩
  case place => rw [tables, ← length, List.getElem?_append_right (Nat.le_refl _), Nat.sub_self, List.getElem?_cons_zero]
  case clause =>
    rw [Select.whereSql?, several, groups, placed, Select.joinedGroups_append, Nat.add_comm 1, Select.joinedGroups, given]
    simp [Select.searchTables]

def dogs : Conditions := .node [] [("species", .value (.text "dog"))]

def softToys : Conditions := .node [] [("soft", .value (.bool true))]

def petJoined (label : String) : JoinSpec :=
  ⟨"pet", .single (.column "owner"), "person", .single (.column "id"), some label, some dogs⟩

def toyJoined : JoinSpec := ⟨"toy", .single (.column "pet"), "p", .single (.column "id"), none, some softToys⟩

def dogsWithToys : Related := { joins := [petJoined "p", toyJoined] }

def dogsWithToysFound : String :=
  "SELECT \"t1\".\"id\" FROM (\"person\" \"t1\" JOIN \"pet\" \"p\" ON \"p\".\"owner\" = \"t1\".\"id\") JOIN \"toy\" \"j2\" " ++
    "ON \"j2\".\"pet\" = \"p\".\"id\" WHERE (\"p\".\"species\" = 'dog') AND (\"j2\".\"soft\" = true)"

theorem softToys_filtered : findSql .utc ["id"] "person" (.node [] []) dogsWithToys {} = .ok dogsWithToysFound ∧
    ∃ q later, (Select.new .utc).applyAll (Select.findCalls ["id"] "person" (.node [] []) dogsWithToys {}) = .ok q ∧
      q.tables[2]? = some ("toy", "j2") ∧
      q.whereSql? = Group.whereSql? true (.plain (some "p") dogs :: .plain (some "j2") softToys :: later) := by
  have written : (findSql .utc ["id"] "person" (.node [] []) dogsWithToys {}).toOption = some dogsWithToysFound := by
    decide +kernel
  have found := Select.ok_of_toOption written
  have placed : dogsWithToys.joins = [petJoined "p"] ++ toyJoined :: [] := rfl
  have numbered : toyJoined.aliasAt 2 = "j2" := by decide +kernel
  have front : Select.searchTables "person" [petJoined "p"] = [("person", "t1"), ("pet", "p")] := rfl
  have filters : Select.joinedGroups [("person", "t1")] 1 [petJoined "p"] = [.plain (some "p") dogs] := rfl
  obtain ⟨q, own, label, later, applied, _, _, rfl, there, _, clause, answers⟩ :=
    join_filtered .utc _ _ _ _ _ found placed rfl
  rw [List.length_singleton, numbered, front] at answers
  have same : label = "j2" := (answers (by decide)).mpr (by decide)
  rw [filters, same] at clause
  rw [List.length_singleton, numbered] at there
  exact ⟨found, q, later, applied, there, clause⟩

-- Where the joined table gets the name of the first one for an alias, the first one answers: the species of a
-- person is asked for, not that of a pet.
def shadowedPet : Related := { joins := [petJoined "person"] }

def shadowedFound : String :=
  "SELECT \"t1\".\"id\" FROM \"person\" \"t1\" JOIN \"pet\" \"person\" ON \"person\".\"owner\" = \"t1\".\"id\" " ++
    "WHERE \"t1\".\"species\" = 'dog'"

theorem species_of_person : findSql .utc ["id"] "person" (.node [] []) shadowedPet {} = .ok shadowedFound ∧
    ∃ q, (Select.new .utc).applyAll (Select.findCalls ["id"] "person" (.node [] []) shadowedPet {}) = .ok q ∧
      q.tables = [("person", "t1"), ("pet", "person")] ∧
      q.whereSql?.map (Sql.text q.zone) = some "WHERE \"t1\".\"species\" = 'dog'" ∧
      (Group.whereSql? true [.plain (some "person") dogs]).map (Sql.text q.zone) =
        some "WHERE \"person\".\"species\" = 'dog'" := by
  have written : (findSql .utc ["id"] "person" (.node [] []) shadowedPet {}).toOption = some shadowedFound := by
    decide +kernel
  have found := Select.ok_of_toOption written
  have told : ((Select.new .utc).applyAll
      (Select.findCalls ["id"] "person" (.node [] []) shadowedPet {})).toOption.map (fun q => (q.tables,
        q.whereSql?.map (Sql.text q.zone), (Group.whereSql? true [.plain (some "person") dogs]).map (Sql.text q.zone))) =
      some ([("person", "t1"), ("pet", "person")], some "WHERE \"t1\".\"species\" = 'dog'",
        some "WHERE \"person\".\"species\" = 'dog'") := by decide +kernel
  obtain ⟨q, applied, _⟩ := Select.ok_of_bind found
  rw [applied] at told
  obtain ⟨tables, told⟩ := Prod.mk.inj (Option.some.inj told)
  obtain ⟨clause, own⟩ := Prod.mk.inj told
  exact ⟨found, q, applied, tables, clause, own⟩

end QueryKit
