import QueryKit.Proofs.StoredAliases

-- The tables of a query by name and alias, apart from all the rest of it. What a step does to them, and whether the
-- table that it names is there, can be told from them alone; so can the tables of a search.

namespace QueryKit
open Text

def JoinSpec.aliasAt (position : Nat) (j : JoinSpec) : String := j.label.getD ("j" ++ natText position)

namespace Select

def tables (q : Select) : List (String × String) := q.sources.map fun source => (source.table, source.label)

def found? (name : String) (tables : List (String × String)) : Option String :=
  ((tables.find? fun t => t.1 == name).or (tables.find? fun t => t.2 == name)).map (·.2)

def lookUp (name : String) (tables : List (String × String)) : Except Fault String :=
  match found? name tables with
  | some label => .ok label
  | none => .error (.unknownTable name)

def isNamed (tables : List (String × String)) (name : String) : Bool := tables.any fun t => t.1 == name || t.2 == name

def numbered (table : String) (tables : List (String × String)) : List (String × String) :=
  tables ++ [(table, "t" ++ natText (tables.length + 1))]

-- A step, as far as the tables tell. They do not tell whether a template of the caller's can be filled.
def Call.onTables (tables : List (String × String)) : Call → Except Fault (List (String × String))
  | .table name => .ok (if tables.isEmpty then numbered name tables else tables)
  | .join name own target other =>
    if tables.isEmpty then .ok (numbered name tables)
    else do
      let _ ← lookUp target tables
      let _ ← own.pair other
      pure (numbered name tables)
  | .joinLast name own other =>
    if tables.isEmpty then .ok (numbered name tables)
    else do
      let _ ← own.pair other
      pure (numbered name tables)
  | .tableAlias name => .ok (mapLast (fun t => (t.1, name)) tables)
  | .filter (some name) _ => do
    let _ ← lookUp name tables
    pure tables
  | .orderOn name _ _ => do
    let _ ← lookUp name tables
    pure tables
  | .filterExists _ name link _ => do
    link.check
    let _ ← lookUp name tables
    pure tables
  | _ => .ok tables

def tablesAfter (tables : List (String × String)) : List Call → Except Fault (List (String × String))
  | [] => .ok tables
  | c :: r => do
    let next ← c.onTables tables
    tablesAfter next r

def Call.isTemplate : Call → Bool
  | .orderRaw .. => true
  | _ => false

section
variable {tables next : List (String × String)} {name : String}

theorem found?_eq_none_iff : found? name tables = none ↔ isNamed tables name = false := by
  simp only [found?, isNamed, Option.map_eq_none_iff, Option.or_eq_none_iff, List.find?_eq_none, List.any_eq_false,
    Bool.or_eq_true, not_or]
  exact ⟨fun absent t member => ⟨absent.1 t member, absent.2 t member⟩,
    fun absent => ⟨fun t member => (absent t member).1, fun t member => (absent t member).2⟩⟩

theorem lookUp_of_unnamed (unnamed : isNamed tables name = false) : lookUp name tables = .error (.unknownTable name) := by
  rw [lookUp, found?_eq_none_iff.mpr unnamed]

theorem lookUp_of_named (named : isNamed tables name = true) : ∃ label, lookUp name tables = .ok label := by
  unfold lookUp
  cases given : found? name tables with
  | some label => exact ⟨label, rfl⟩
  | none =>
    rw [found?_eq_none_iff.mp given] at named
    cases named

end

section
variable {q last : Select}

theorem resolve_tables (name : String) (q : Select) : q.resolve name = lookUp name q.tables := by
  have same : aliasOf? name q.sources = found? name q.tables := by
    simp [aliasOf?, found?, tables, List.find?_map, Function.comp_def, Option.map_or]
  unfold resolve
  rw [same]
  cases given : found? name q.tables <;> simp only [lookUp, given]

theorem isAliased_of_tables (several : 1 < q.tables.length) : q.isAliased = true := by
  rw [tables, List.length_map] at several
  rw [isAliased, decide_eq_true several, Bool.true_or]

theorem isEmpty_tables (q : Select) : q.sources.isEmpty = q.tables.isEmpty := List.isEmpty_map.symm

theorem tables_noteMisuse (fault : QueryFault) (q : Select) : (q.noteMisuse fault).tables = q.tables := by
  rw [tables, tables, sources_noteMisuse]

theorem tables_addSource (table : String) (joins : List Join) (q : Select) :
    (q.addSource table joins).tables = numbered table q.tables := by
  simp [addSource, tables, numbered]

theorem tables_mapLast {change : Source → Source} (other : String × String → String × String)
    (same : ∀ source, ((change source).table, (change source).label) = other (source.table, source.label)) (q : Select) :
    { q with sources := mapLast change q.sources }.tables = mapLast other q.tables :=
  map_mapLast same q.sources

theorem tables_addItems (items : List SelectItem) (q : Select) : (addItems items q).tables = q.tables := by
  unfold addItems
  split
  · rfl
  · split
    · exact tables_noteMisuse _ q
    · refine Eq.trans (tables_mapLast id ?_ q) (mapLast_id _)
      intro source
      rfl

theorem tables_setAlias (name : String) (q : Select) : (q.setAlias name).tables = mapLast (fun t => (t.1, name)) q.tables := by
  unfold setAlias
  split
  case isTrue rootless =>
    have bare : q.tables = [] := by simpa [tables] using rootless
    rw [tables_noteMisuse, bare]
    rfl
  case isFalse =>
    apply tables_mapLast
    intro source
    rfl

theorem tables_addTable (name : String) (q : Select) :
    (q.addTable name).tables = if q.tables.isEmpty then numbered name q.tables else q.tables := by
  unfold addTable
  rw [isEmpty_tables]
  split
  · exact tables_addSource name [] q
  · exact tables_noteMisuse _ q

theorem tables_addJoin (table : String) (own : JoinKeys) (target : String) (other : JoinKeys) (q : Select) :
    (q.addJoin table own target other).map tables = (Call.join table own target other).onTables q.tables := by
  simp only [addJoin, Call.onTables, isEmpty_tables, resolve_tables]
  split
  · exact congrArg Except.ok (tables_addSource table [] q)
  · cases lookUp target q.tables with
    | error fault => rfl
    | ok label =>
      cases own.pair other with
      | error fault => rfl
      | ok pairs => exact congrArg Except.ok (tables_addSource table _ q)

theorem tables_addJoinLast (table : String) (own other : JoinKeys) (q : Select) :
    (q.addJoinLast table own other).map tables = (Call.joinLast table own other).onTables q.tables := by
  simp only [addJoinLast, Call.onTables, ← isEmpty_tables]
  cases given : q.lastSource? with
  | none =>
    have bare : q.sources = [] := List.getLast?_eq_none_iff.mp given
    simp only [bare, List.isEmpty_nil, if_true]
    exact congrArg Except.ok (tables_addSource table [] q)
  | some source =>
    have started : q.sources.isEmpty = false := by simpa using List.ne_nil_of_mem (List.mem_of_getLast? given)
    simp only [started, Bool.false_eq_true, if_false]
    cases own.pair other with
    | error fault => rfl
    | ok pairs => exact congrArg Except.ok (tables_addSource table _ q)

theorem apply_tables {c : Call} (plain : c.isTemplate = false) (q : Select) : (q.apply c).map tables = c.onTables q.tables := by
  cases c with
  | table name => exact congrArg Except.ok (tables_addTable name q)
  | join table own target other => exact tables_addJoin table own target other q
  | joinLast table own other => exact tables_addJoinLast table own other q
  | tableAlias name => exact congrArg Except.ok (tables_setAlias name q)
  | columns names => exact congrArg Except.ok (tables_addItems _ q)
  | expression sql => exact congrArg Except.ok (tables_addItems _ q)
  | having column => exact congrArg Except.ok (tables_addItems _ q)
  | apply function arguments label => exact congrArg Except.ok (tables_addItems _ { q with pending := [] })
  | named label =>
    refine congrArg Except.ok (Eq.trans (tables_mapLast id ?_ q) (mapLast_id _))
    intro source
    rfl
  | filter table conditions =>
    cases table with
    | none => rfl
    | some name =>
      simp only [apply, addFilter, Call.onTables, resolve_tables]
      cases lookUp name q.tables <;> rfl
  | filterExists table tableLink link conditions =>
    simp only [apply, addFilterExists, Call.onTables, resolve_tables]
    cases link.check with
    | error fault => rfl
    | ok checked => cases lookUp tableLink q.tables <;> rfl
  | orderOn table column direction =>
    simp only [apply, Call.onTables, resolve_tables]
    cases lookUp table q.tables <;> rfl
  | orderRaw sql arguments => cases plain
  | _ => rfl

theorem applyAll_tables {calls : List Call} (plain : ∀ c ∈ calls, c.isTemplate = false) (q : Select) :
    (q.applyAll calls).map tables = tablesAfter q.tables calls := by
  induction calls generalizing q with
  | nil => rfl
  | cons c r ih =>
    obtain ⟨here, later⟩ := List.forall_mem_cons.mp plain
    have step := apply_tables here q
    rw [applyAll, tablesAfter, ← step]
    cases q.apply c with
    | error fault => rfl
    | ok next => exact ih later next

theorem tables_of_applyAll {calls : List Call} (plain : ∀ c ∈ calls, c.isTemplate = false)
    (applied : q.applyAll calls = .ok last) : tablesAfter q.tables calls = .ok last.tables := by
  rw [← applyAll_tables plain, applied]
  rfl

theorem error_applyAll_iff {calls : List Call} (plain : ∀ c ∈ calls, c.isTemplate = false) (q : Select) (fault : Fault) :
    q.applyAll calls = .error fault ↔ tablesAfter q.tables calls = .error fault := by
  rw [← applyAll_tables plain]
  cases q.applyAll calls <;> simp [Except.map]

end

theorem plain_of_steady {calls : List Call} (steady : Steady calls) : ∀ c ∈ calls, c.isTemplate = false := by
  induction steady with
  | nil => simp
  | @call c r keeps rest ih =>
    refine List.forall_mem_cons.mpr ⟨?_, ih⟩
    cases c with
    | orderRaw sql arguments => cases keeps
    | _ => rfl
  | joined table own target other label rest ih => exact List.forall_mem_cons.mpr ⟨rfl, List.forall_mem_cons.mpr ⟨rfl, ih⟩⟩

theorem tablesAfter_append (tables : List (String × String)) (first second : List Call) :
    tablesAfter tables (first ++ second) = tablesAfter tables first >>= fun next => tablesAfter next second := by
  induction first generalizing tables with
  | nil => rfl
  | cons c r ih =>
    rw [List.cons_append, tablesAfter, tablesAfter]
    cases c.onTables tables with
    | error fault => rfl
    | ok next => exact ih next

def Call.keepsTables : Call → Bool
  | .table .. | .join .. | .joinLast .. | .tableAlias .. => false
  | _ => true

def joinedTables (position : Nat) : List JoinSpec → List (String × String)
  | [] => []
  | j :: r => (j.table, j.aliasAt position) :: joinedTables (position + 1) r

def searchTables (table : String) (joins : List JoinSpec) : List (String × String) := (table, "t1") :: joinedTables 1 joins

def mergeTables (r : Related) : List (String × String) :=
  (r.merge.map fun m => (m.table, "t" ++ natText (r.joins.length + 2))).toList

section
variable {tables next : List (String × String)}

theorem onTables_kept {c : Call} (keeps : c.keepsTables = true) (applied : c.onTables tables = .ok next) : next = tables := by
  cases c with
  | table | join | joinLast | tableAlias => cases keeps
  | filter table conditions =>
    cases table with
    | none => cases applied; rfl
    | some name =>
      obtain ⟨label, _, applied⟩ := ok_of_bind applied
      cases applied
      rfl
  | filterExists table tableLink link conditions =>
    obtain ⟨_, _, applied⟩ := ok_of_bind applied
    obtain ⟨label, _, applied⟩ := ok_of_bind applied
    cases applied
    rfl
  | orderOn table column direction =>
    obtain ⟨label, _, applied⟩ := ok_of_bind applied
    cases applied
    rfl
  | _ => cases applied; rfl

theorem tablesAfter_kept {calls : List Call} (keeps : ∀ c ∈ calls, c.keepsTables = true)
    (applied : tablesAfter tables calls = .ok next) : next = tables := by
  induction calls generalizing tables with
  | nil =>
    cases applied
    rfl
  | cons c r ih =>
    obtain ⟨keepsHere, keepsLater⟩ := List.forall_mem_cons.mp keeps
    obtain ⟨middle, here, rest⟩ := ok_of_bind applied
    rw [ih keepsLater rest, onTables_kept keepsHere here]

theorem numbered_of_join {table target : String} {own other : JoinKeys}
    (joined : (Call.join table own target other).onTables tables = .ok next) : next = numbered table tables := by
  simp only [Call.onTables] at joined
  split at joined
  · cases joined
    rfl
  · obtain ⟨label, _, joined⟩ := ok_of_bind joined
    obtain ⟨pairs, _, joined⟩ := ok_of_bind joined
    cases joined
    rfl

theorem numbered_of_joinLast {table : String} {own other : JoinKeys}
    (joined : (Call.joinLast table own other).onTables tables = .ok next) : next = numbered table tables := by
  simp only [Call.onTables] at joined
  split at joined
  · cases joined
    rfl
  · obtain ⟨pairs, _, joined⟩ := ok_of_bind joined
    cases joined
    rfl

theorem tables_join {position : Nat} {j : JoinSpec} (applied : tablesAfter tables (joinCalls position j) = .ok next) :
    next = tables ++ [(j.table, j.aliasAt position)] := by
  obtain ⟨middle, joined, applied⟩ := ok_of_bind applied
  obtain ⟨renamed, given, filtered⟩ := ok_of_bind applied
  cases given
  rw [tablesAfter_kept ?_ filtered, numbered_of_join joined, numbered, mapLast_concat]
  · rfl
  -- What is left of the calls is the filter, if there is one.
  · cases j.conditions <;> simp [Call.keepsTables]

theorem tables_joins {position : Nat} {joins : List JoinSpec}
    (applied : tablesAfter tables (joinsFrom position joins) = .ok next) : next = tables ++ joinedTables position joins := by
  induction joins generalizing tables position with
  | nil =>
    cases applied
    rw [joinedTables, List.append_nil]
  | cons j r ih =>
    rw [joinsFrom, tablesAfter_append] at applied
    obtain ⟨middle, here, rest⟩ := ok_of_bind applied
    rw [ih rest, tables_join here, joinedTables, List.append_assoc]
    rfl

theorem length_joinedTables (position : Nat) (joins : List JoinSpec) : (joinedTables position joins).length = joins.length := by
  induction joins generalizing position with
  | nil => rfl
  | cons j r ih => rw [joinedTables, List.length_cons, List.length_cons, ih]

theorem joinedTables_append (position : Nat) (front rest : List JoinSpec) : joinedTables position (front ++ rest) =
    joinedTables position front ++ joinedTables (position + front.length) rest := by
  induction front generalizing position with
  | nil => rfl
  | cons j r ih =>
    have place : position + 1 + r.length = position + (j :: r).length := Nat.add_right_comm ..
    rw [List.cons_append, joinedTables, joinedTables, ih, place]
    rfl

theorem length_searchTables (table : String) (joins : List JoinSpec) : (searchTables table joins).length = joins.length + 1 := by
  rw [searchTables, List.length_cons, length_joinedTables]

theorem searchTables_split (table : String) (front : List JoinSpec) (j : JoinSpec) (rest : List JoinSpec) :
    searchTables table (front ++ j :: rest) = searchTables table front ++
      (j.table, j.aliasAt (front.length + 1)) :: joinedTables (front.length + 2) rest := by
  rw [searchTables, joinedTables_append, joinedTables, Nat.add_comm 1]
  rfl

theorem tablesAfter_base (table : String) (columns : List String) :
    tablesAfter [] [.table table, .columns columns] = .ok [(table, "t1")] := by
  rw [← first_number]
  rfl

theorem tables_opened {columns : List String} {table : String} {joins : List JoinSpec}
    (applied : tablesAfter [] (openingCalls columns table joins) = .ok next) : next = searchTables table joins := by
  rw [openingCalls, tablesAfter_append, tablesAfter_base] at applied
  exact tables_joins applied

theorem tables_merged {r : Related} (count : tables.length = r.joins.length + 1)
    (applied : tablesAfter tables (mergeCalls r) = .ok next) : next = tables ++ mergeTables r := by
  unfold mergeCalls at applied
  unfold mergeTables
  cases given : r.merge with
  | none =>
    rw [given] at applied
    cases applied
    exact (List.append_nil _).symm
  | some m =>
    rw [given] at applied
    obtain ⟨middle, joined, applied⟩ := ok_of_bind applied
    cases applied
    rw [numbered_of_joinLast joined, numbered, count]
    rfl

end

theorem keepsTables_of_silent {c : Call} (silent : c.scopes = false) : c.keepsTables = true := by
  cases c with
  | table | join | joinLast | tableAlias => cases silent
  | _ => rfl

theorem keepsTables_closingCalls (table : String) (conditions : Conditions) (r : Related) (s : Shape) :
    ∀ c ∈ closingCalls table conditions r s, c.keepsTables = true := by
  intro c member
  rcases List.mem_append.mp member with restricts | shows
  · rcases List.mem_append.mp restricts with filters | subqueries
    · obtain ⟨about, tree, rfl⟩ := filter_of_mem filters
      rfl
    · obtain ⟨e, _, rfl⟩ := List.mem_map.mp subqueries
      rfl
  · exact keepsTables_of_silent (silent_outputCalls s c shows)

theorem tables_of_search {zone : Zone} {columns : List String} {table : String} {conditions : Conditions} {r : Related}
    {s : Shape} {q : Select} (applied : (new zone).applyAll (findCalls columns table conditions r s) = .ok q) :
    q.tables = searchTables table r.joins ++ mergeTables r := by
  have plain := plain_of_steady (steady_findCalls columns table conditions r s)
  have after : tablesAfter [] (findCalls columns table conditions r s) = .ok q.tables := tables_of_applyAll plain applied
  rw [findCalls_eq, tablesAfter_append] at after
  obtain ⟨opened, joined, after⟩ := ok_of_bind after
  rw [tablesAfter_append] at after
  obtain ⟨shaped, kept, after⟩ := ok_of_bind after
  rw [tablesAfter_append] at after
  obtain ⟨merged, linked, closed⟩ := ok_of_bind after
  rw [tablesAfter_kept (fun c member => keepsTables_of_silent (silent_shapeCalls s c member)) kept, tables_opened joined] at linked
  rw [tablesAfter_kept (keepsTables_closingCalls table conditions r s) closed, tables_merged (length_searchTables table r.joins) linked]

end Select

end QueryKit
