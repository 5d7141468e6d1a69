import QueryKit.Proofs.QualifiedColumns
import QueryKit.Proofs.RawFreeRuns

-- What a search says of columns. Aliases are looked up while its query is put together; a table that gets an
-- alias of its own gets it before anything refers to the table, so that none of them is lost later on.

namespace QueryKit
open Lexer

namespace Select

section
variable {q next : Select}

theorem resolved_new (zone : Zone) : (new zone).Resolved := by
  constructor <;> simp [new]

theorem label_of_resolve {name label : String} (found : q.resolve name = .ok label) : label ∈ q.labels := by
  obtain ⟨source, known, rfl, _⟩ := resolve_known found
  exact List.mem_map_of_mem known

theorem Resolved.grown (resolved : q.Resolved) {sources : List Source}
    (labels : ∀ label ∈ q.labels, label ∈ sources.map (·.label))
    (items : ∀ source ∈ sources, ∀ item ∈ source.items, ∃ name, item = .column name none) :
    Resolved { q with sources := sources } := by
  refine ⟨items, ?_, ?_, ?_, resolved.calls⟩
  · intro g known label given
    exact labels label (resolved.tables g known label given)
  · intro g known s given
    obtain ⟨found, correlated⟩ := resolved.outer g known s given
    exact ⟨labels _ found, correlated⟩
  · intro term known
    obtain ⟨table, name, direction, spelled, found⟩ := resolved.order term known
    exact ⟨table, name, direction, spelled, fun label given => labels label (found label given)⟩

theorem Resolved.noteMisuse (resolved : q.Resolved) (fault : QueryFault) : (q.noteMisuse fault).Resolved := by
  unfold Select.noteMisuse
  split
  · exact ⟨resolved.items, resolved.tables, resolved.outer, resolved.order, resolved.calls⟩
  · exact resolved

theorem Resolved.addSource (resolved : q.Resolved) (table label : String) (joins : List Join) :
    Resolved { q with sources := q.sources ++ [⟨table, label, joins, []⟩] } := by
  apply resolved.grown
  · intro label known
    rw [List.map_append]
    exact List.mem_append_left _ known
  · exact List.forall_mem_append.mpr ⟨resolved.items, List.forall_mem_singleton.mpr (by simp)⟩

theorem labels_mapLast {change : Source → Source} (kept : ∀ source, (change source).label = source.label)
    (sources : List Source) : (mapLast change sources).map (·.label) = sources.map (·.label) := by
  have same : (mapLast change sources).map (·.label) = mapLast id (sources.map (·.label)) := map_mapLast kept sources
  rw [same, mapLast_id]

theorem Resolved.addColumns (resolved : q.Resolved) (names : List String) :
    (addItems (names.map fun name => .column name none) q).Resolved := by
  unfold addItems
  split
  · exact resolved
  · split
    · exact resolved.noteMisuse _
    · apply resolved.grown
      · intro label known
        rw [labels_mapLast]
        · exact known
        · intro source
          rfl
      · apply forall_mem_mapLast _ q.sources resolved.items
        intro source own
        refine List.forall_mem_append.mpr ⟨own, ?_⟩
        intro item member
        obtain ⟨name, _, rfl⟩ := List.mem_map.mp member
        exact ⟨name, rfl⟩

theorem Resolved.addGroup (resolved : q.Resolved) {g : Group} {correlated : Bool}
    (still : q.correlated = true → correlated = true) (table : ∀ label, g.table = some label → label ∈ q.labels)
    (outer : ∀ s, g.subquery = some s → s.outerAlias ∈ q.labels ∧ correlated = true) :
    Resolved { q with groups := q.groups ++ [g], correlated := correlated } := by
  refine ⟨resolved.items, ?_, ?_, resolved.order, resolved.calls⟩
  · exact List.forall_mem_append.mpr ⟨resolved.tables, List.forall_mem_singleton.mpr table⟩
  · refine List.forall_mem_append.mpr ⟨?_, List.forall_mem_singleton.mpr outer⟩
    intro g known s given
    obtain ⟨found, before⟩ := resolved.outer g known s given
    exact ⟨found, still before⟩

theorem Resolved.addOrder (resolved : q.Resolved) (table : Option String) (name : String) (direction : Direction)
    (known : ∀ label, table = some label → label ∈ q.labels) : (q.addOrder (.column table name direction)).Resolved := by
  refine ⟨resolved.items, resolved.tables, resolved.outer, ?_, resolved.calls⟩
  exact List.forall_mem_append.mpr
    ⟨resolved.order, List.forall_mem_singleton.mpr ⟨table, name, direction, rfl, known⟩⟩

def Call.keepsAliases : Call → Bool
  | .table .. | .join .. | .joinLast .. | .columns .. | .distinctOn .. | .format .. | .transform .. | .filter ..
  | .filterExists .. | .order .. | .orderOn .. | .limit .. | .offset .. => true
  | _ => false

theorem addSource_of_addJoin {table target : String} {own other : JoinKeys}
    (joined : q.addJoin table own target other = .ok next) : ∃ joins, next = q.addSource table joins := by
  have applied : q.apply (.join table own target other) = .ok next := joined
  cases makes_of_apply applied <;> exact ⟨_, rfl⟩

theorem apply_resolved {c : Call} (keeps : c.keepsAliases = true) (applied : q.apply c = .ok next)
    (resolved : q.Resolved) : next.Resolved := by
  cases makes_of_apply applied with
  | opened | begun | joined | begunLast | joinedLast => exact resolved.addSource ..
  | unjoined => exact resolved.noteMisuse _
  | columns names => exact resolved.addColumns names
  | filtered conditions => exact resolved.addGroup id (by rintro label ⟨⟩) (by rintro s ⟨⟩)
  | filteredOn conditions found =>
    refine resolved.addGroup id ?_ (by rintro s ⟨⟩)
    rintro label ⟨⟩
    exact label_of_resolve found
  | linked checked found =>
    refine resolved.addGroup (fun _ => rfl) ?_ ?_
    · intro label given
      obtain ⟨source, last, rfl⟩ := Option.map_eq_some_iff.mp given
      exact List.mem_map_of_mem (List.mem_of_getLast? last)
    · rintro s ⟨⟩
      exact ⟨label_of_resolve found, rfl⟩
  | ordered column direction => exact resolved.addOrder none column direction (by rintro label ⟨⟩)
  | orderedOn column direction found =>
    refine resolved.addOrder (some _) column direction ?_
    rintro label ⟨⟩
    exact label_of_resolve found
  | distinctOn | format | transform | limit | offset | paginate =>
    exact ⟨resolved.items, resolved.tables, resolved.outer, resolved.order, resolved.calls⟩
  | _ => cases keeps

theorem Resolved.renamed (resolved : q.Resolved) (table label : String) (joins : List Join) :
    ((q.addSource table joins).setAlias label).Resolved := by
  have there : (q.addSource table joins).sources.isEmpty = false := by simp [Select.addSource]
  have renamed := resolved.addSource table label joins
  unfold setAlias
  rw [there]
  simp only [Bool.false_eq_true, if_false, Select.addSource, mapLast_concat]
  exact renamed

inductive Steady : List Call → Prop where
  | nil : Steady []
  | call {c : Call} {r : List Call} (keeps : c.keepsAliases = true) (rest : Steady r) : Steady (c :: r)
  | joined (table : String) (own : JoinKeys) (target : String) (other : JoinKeys) (label : String) {r : List Call}
      (rest : Steady r) : Steady (.join table own target other :: .tableAlias label :: r)

theorem applyAll_resolved {calls : List Call} (steady : Steady calls) {q last : Select}
    (applied : q.applyAll calls = .ok last) (resolved : q.Resolved) : last.Resolved := by
  induction steady generalizing q with
  | nil =>
    cases applied
    exact resolved
  | call keeps rest ih =>
    obtain ⟨next, here, later⟩ := ok_of_bind applied
    exact ih later (apply_resolved keeps here resolved)
  | joined table own target other label rest ih =>
    obtain ⟨middle, joined, applied⟩ := ok_of_bind applied
    obtain ⟨joins, rfl⟩ := addSource_of_addJoin joined
    exact ih applied (resolved.renamed table label joins)

theorem Steady.append {a b : List Call} (first : Steady a) (second : Steady b) : Steady (a ++ b) := by
  induction first with
  | nil => exact second
  | call keeps rest ih => exact .call keeps ih
  | joined table own target other label rest ih => exact .joined table own target other label ih

theorem steady_of_keeps {calls : List Call} (each : ∀ c ∈ calls, c.keepsAliases = true) : Steady calls := by
  induction calls with
  | nil => exact .nil
  | cons c r ih =>
    obtain ⟨here, later⟩ := List.forall_mem_cons.mp each
    exact .call here (ih later)

theorem steady_joinsFrom (position : Nat) (joins : List JoinSpec) : Steady (joinsFrom position joins) := by
  induction joins generalizing position with
  | nil => exact .nil
  | cons j r ih =>
    refine Steady.append (.joined _ _ _ _ _ ?_) (ih _)
    cases j.conditions with
    | none => exact .nil
    | some conditions => exact .call rfl .nil

theorem keeps_shapeCalls (s : Shape) : ∀ c ∈ shapeCalls s, c.keepsAliases = true := by
  simp only [shapeCalls, List.forall_mem_append]
  refine ⟨⟨⟨?_, ?_⟩, ?_⟩, ?_⟩
  · split
    · split <;> simp [Call.keepsAliases]
    · simp
  · cases s.limit <;> simp [Call.keepsAliases]
  · intro c member
    obtain ⟨o, _, rfl⟩ := List.mem_map.mp member
    unfold orderCall
    cases o.table <;> rfl
  · cases s.distinctOn <;> simp [Call.keepsAliases]

theorem keeps_filterCalls (table : String) (r : Related) (conditions : Conditions) :
    ∀ c ∈ filterCalls table r conditions, c.keepsAliases = true := by
  intro c member
  obtain ⟨about, tree, rfl⟩ := filter_of_mem member
  rfl

theorem keeps_existingCalls (table : String) (r : Related) : ∀ c ∈ existingCalls table r, c.keepsAliases = true := by
  intro c member
  obtain ⟨e, _, rfl⟩ := List.mem_map.mp member
  rfl

theorem keeps_outputCalls (s : Shape) : ∀ c ∈ outputCalls s, c.keepsAliases = true := by
  unfold outputCalls
  cases s.transform <;> simp [Call.keepsAliases]

def mergeCalls (r : Related) : List Call :=
  match r.merge with
  | some m => [mergeCall m, .columns m.columns]
  | none => []

def openingCalls (columns : List String) (table : String) (joins : List JoinSpec) : List Call :=
  [.table table, .columns columns] ++ joinsFrom 1 joins

def closingCalls (table : String) (conditions : Conditions) (r : Related) (s : Shape) : List Call :=
  filterCalls table r conditions ++ existingCalls table r ++ outputCalls s

theorem findCalls_eq (columns : List String) (table : String) (conditions : Conditions) (r : Related) (s : Shape) :
    findCalls columns table conditions r s = openingCalls columns table r.joins ++
      (shapeCalls s ++ (mergeCalls r ++ closingCalls table conditions r s)) := by
  have parts : findCalls columns table conditions r s = [Call.table table, .columns columns] ++ joinsFrom 1 r.joins ++
      shapeCalls s ++ mergeCalls r ++ filterCalls table r conditions ++ existingCalls table r ++ outputCalls s := rfl
  simp [parts, openingCalls, closingCalls]

theorem findCalls_parts (columns : List String) (table : String) (conditions : Conditions) (r : Related) (s : Shape) :
    ∃ later, findCalls columns table conditions r s =
        [Call.table table, .columns columns] ++ (joinsFrom 1 r.joins ++ later) ∧ ∀ c ∈ later, c.keepsAliases = true := by
  have keeps : ∀ c ∈ mergeCalls r, c.keepsAliases = true := by
    unfold mergeCalls
    cases r.merge <;> simp [mergeCall, Call.keepsAliases]
  refine ⟨shapeCalls s ++ (mergeCalls r ++ closingCalls table conditions r s), ?_, ?_⟩
  · rw [findCalls_eq, openingCalls, List.append_assoc]
  · simp only [closingCalls, List.forall_mem_append]
    exact ⟨keeps_shapeCalls s, keeps, ⟨keeps_filterCalls table r conditions, keeps_existingCalls table r⟩,
      keeps_outputCalls s⟩

theorem countCalls_parts (table : String) (conditions : Conditions) (r : Related) :
    ∃ later, countCalls table conditions r = Call.table table :: (joinsFrom 1 r.joins ++ later) ∧
      ∀ c ∈ later, c.keepsAliases = true := by
  have keeps : ∀ c ∈ (r.merge.map mergeCall).toList, c.keepsAliases = true := by
    cases r.merge <;> simp [mergeCall, Call.keepsAliases]
  refine ⟨(r.merge.map mergeCall).toList ++ filterCalls table r conditions ++ existingCalls table r, ?_, ?_⟩
  · simp [countCalls]
  · simp only [List.forall_mem_append]
    exact ⟨⟨keeps, keeps_filterCalls table r conditions⟩, keeps_existingCalls table r⟩

theorem steady_findCalls (columns : List String) (table : String) (conditions : Conditions) (r : Related) (s : Shape) :
    Steady (findCalls columns table conditions r s) := by
  obtain ⟨later, parts, keeps⟩ := findCalls_parts columns table conditions r s
  have base : Steady [Call.table table, .columns columns] := .call rfl (.call rfl .nil)
  rw [parts]
  exact base.append ((steady_joinsFrom 1 r.joins).append (steady_of_keeps keeps))

end

theorem inside_statement {q : Select} {part before after : Sql} (rows : q.rowsSql = before ++ part ++ after) :
    ∃ before after, q.statementSql = before ++ part ++ after := by
  unfold statementSql
  split
  · exact ⟨before, after, rows⟩
  · refine ⟨.word "SELECT " :: aggregateSql q.transform ++ .word "::text AS json FROM (" :: before, after ++ [.word ") t"], ?_⟩
    rw [rows]
    simp

theorem fromSql_inside (q : Select) : ∃ before after, q.statementSql = before ++ q.fromSql ++ after := by
  have rows : q.rowsSql = q.headSql ++ [.word " "] ++ q.fromSql ++
      (q.whereSql?.toList.flatMap (fun clause => .word " " :: clause) ++ q.tailSql) := by
    rw [rowsSql_parts, scopeSql, separated_behind]
    simp
  exact inside_statement rows

theorem tight_statement {zone : Zone} {q : Select} (tight : Sql.Tight zone q.rowsSql) : Sql.Tight zone q.statementSql := by
  unfold statementSql
  split
  · exact tight
  · exact tight_json q.transform tight

end Select

namespace Lexer

def Tables.labels : Tables → List String
  | .table _ label => label.toList
  | .join left right _ => left.labels ++ right.labels

end Lexer

namespace Select

theorem labels_tree (aliased : Bool) (sources : List Source) (tree : Tables) :
    (sources.foldl (joinOne aliased) tree).labels = tree.labels ++ if aliased then sources.map (·.label) else [] := by
  induction sources generalizing tree with
  | nil => cases aliased <;> simp
  | cons source r ih =>
    rw [List.foldl_cons, ih]
    cases aliased <;> simp [joinOne, leaf, Tables.labels]

theorem from_labels {q : Select} (chained : Chained q.sources) (filled : q.sources ≠ [])
    (known : ∀ source ∈ q.sources, ∀ join ∈ source.joins, join.own.isRaw = false ∧ join.other.isRaw = false) :
    ∃ tree, readFrom (q.fromSql.text q.zone) = some tree ∧ tree.labels = Sql.aliases q.fromSql := by
  have clauses : Clauses q.zone q.fromSql [(.word "from", q.fromTokens q.zone)] := clauses_from filled known
  obtain ⟨first, later, placed⟩ := List.exists_cons_of_ne_nil filled
  have joined : ∀ source ∈ later, source.joins ≠ [] := by
    intro source member unjoined
    obtain ⟨before, after, rfl⟩ := List.append_of_mem member
    have behind : source.Joined (first :: before) := chained.joined placed
    cases behind.rooted.mp unjoined
  have plain := known
  rw [placed] at plain
  obtain ⟨items, nests, read⟩ := joins_read q.zone q.isAliased later joined (List.forall_mem_cons.mp plain).2
    (nests_table q.isAliased first)
  refine ⟨later.foldl (joinOne q.isAliased) (leaf q.isAliased first), ?_, ?_⟩
  · have spelled : q.fromSql.tokens q.zone = .word "from" :: q.fromTokens q.zone := by simpa using clauses.tokens
    have whole : nest readEnclosed [] [] (q.fromSql.tokens q.zone) = some (.token (.word "from") :: items) := by
      rw [spelled, fromTokens, placed]
      exact nest_of_nests (.token rfl nests)
    rw [readFrom, Sql.lex_text clauses.tight]
    simp [whole, read]
  · rw [aliases_from, labels_tree, printed, labels, placed]
    cases q.isAliased <;> rfl

theorem flush_of_resolved {q : Select} (resolved : q.Resolved) : q.flush = q := by
  rw [flush, resolved.calls]
  rfl

theorem search_written {zone : Zone} {columns : List String} {table : String} {conditions : Conditions} {r : Related}
    {s : Shape} {text : String} (found : findSql zone columns table conditions r s = .ok text) :
    ∃ q, (new zone).applyAll (findCalls columns table conditions r s) = .ok q ∧ text = q.statementSql.text q.zone := by
  obtain ⟨q, applied, written⟩ := ok_of_bind found
  have built : q.build = (.ok text, q.build.2) := Prod.ext written rfl
  obtain ⟨_, _, rendered⟩ := build_parts built
  have resolved := applyAll_resolved (steady_findCalls columns table conditions r s) applied (resolved_new zone)
  rw [flush_of_resolved resolved] at rendered
  exact ⟨q, applied, Sql.text_of_render rendered⟩

theorem targets_known {q : Select} (chained : Chained q.sources) :
    ∀ source ∈ q.sources, ∀ join ∈ source.joins, ∃ target ∈ q.sources, target.label = join.target := by
  intro source member join inside
  obtain ⟨earlier, later, placed⟩ := List.append_of_mem member
  obtain ⟨target, there, same⟩ := ((chained.joined placed).sound join inside).targets
  refine ⟨target, ?_, same⟩
  rw [placed]
  exact List.mem_append_left _ there

end Select

-- The statement of a search consists of words without a point, literals, a caller's own comparisons and columns, and
-- each column, those given to such comparisons too, goes by its name alone or stands behind an alias that the FROM
-- clause prints: by its name alone, then, where that prints none. Where the caller has no SQL of its own, the server
-- finds a point behind nothing but those aliases, and reads them as the aliases of the tables.
theorem columns_qualified (zone : Zone) (columns : List String) (table : String) (conditions : Conditions)
    (r : Related) (s : Shape) {text : String} (found : findSql zone columns table conditions r s = .ok text) :
    ∃ q, (Select.new zone).applyAll (Select.findCalls columns table conditions r s) = .ok q ∧
      text = q.statementSql.text q.zone ∧ (∃ before after, q.statementSql = before ++ q.fromSql ++ after) ∧
      Sql.Bound (Sql.aliases q.fromSql) true q.statementSql ∧
      ((Select.findCalls columns table conditions r s).all Select.Call.isRawFree = true →
        ∃ ts tree, lex text = some ts ∧ Dotted (Sql.aliases q.fromSql) ts ∧
          readFrom (q.fromSql.text q.zone) = some tree ∧ tree.labels = Sql.aliases q.fromSql) := by
  obtain ⟨q, applied, written⟩ := Select.ok_of_bind found
  have built : q.build = (.ok text, q.build.2) := Prod.ext written rfl
  obtain ⟨checked, _, rendered⟩ := Select.build_parts built
  have filled := Select.check_filled checked
  have resolved := Select.applyAll_resolved (Select.steady_findCalls columns table conditions r s) applied
    (Select.resolved_new zone)
  have chained := Select.reached_chained (Select.reached_applyAll _ .start applied)
  have targets := Select.targets_known chained
  rw [Select.flush_of_resolved resolved] at rendered
  have spelled := Sql.text_of_render rendered
  refine ⟨q, applied, spelled, Select.fromSql_inside q, ?_, ?_⟩
  · rw [Select.aliases_from]
    exact Select.bound_statement resolved targets (by rintro ⟨⟩)
  · intro plain
    have free := Select.applyAll_rawFree _ plain applied (Select.new_rawFree zone)
    have linked := Select.applyAll_linked _ applied (Select.new_linked zone)
    have tight : Sql.Tight q.zone q.rowsSql := (Select.rows_split free linked filled).1
    have bound : Sql.Bound (Sql.aliases q.fromSql) false q.statementSql := by
      rw [Select.aliases_from]
      exact Select.bound_statement resolved targets fun _ => free
    obtain ⟨tree, read, labels⟩ := Select.from_labels chained filled free.joins
    refine ⟨q.statementSql.tokens q.zone, tree, ?_, bound.dotted q.zone, read, labels⟩
    rw [spelled]
    exact Sql.lex_text (Select.tight_statement tight)

-- A table with an alias of its own, joined by a second one without, and a correlated filter.
def petVisits : Related :=
  { joins := [⟨"pet", .single (.column "owner"), "person", .single (.column "id"), some "p",
      some (.node [] [("kind", .value (.text "dog"))])⟩]
    merge := some ⟨"visit", .single (.column "pet"), .single (.column "id"), ["day"], some "person", none⟩
    existing := [⟨"fee", .single "payer" "id", .node [] []⟩] }

def ownersByPet : Shape := { order := [⟨"name", .ascending, some "pet"⟩], distinctOn := some ["name"] }

def activePeople : Conditions := .node [] [("active", .value (.bool true))]

def petVisitsFound : String :=
  "SELECT DISTINCT ON (\"t1\".\"name\") \"t1\".\"name\", \"t3\".\"day\" FROM (\"person\" \"t1\" JOIN \"pet\" \"p\" ON " ++
    "\"p\".\"owner\" = \"t1\".\"id\") JOIN \"visit\" \"t3\" ON \"t3\".\"pet\" = \"p\".\"id\" WHERE (\"p\".\"kind\" = 'dog') AND " ++
    "(\"t1\".\"active\" = true) AND (EXISTS (SELECT * FROM \"fee\" WHERE \"payer\" = \"t1\".\"id\")) ORDER BY \"p\".\"name\" ASC"

theorem petVisits_qualified :
    findSql .utc ["name"] "person" activePeople petVisits ownersByPet = .ok petVisitsFound ∧
      ∃ ts, lex petVisitsFound = some ts ∧ Dotted ["t1", "p", "t3"] ts := by
  have written : (findSql .utc ["name"] "person" activePeople petVisits ownersByPet).toOption = some petVisitsFound := by
    decide +kernel
  have found := Select.ok_of_toOption written
  obtain ⟨q, applied, _, _, _, reads⟩ := columns_qualified .utc _ _ _ _ _ found
  obtain ⟨ts, tree, lexed, dotted, _, _⟩ := reads (by decide +kernel)
  have told : ((Select.new .utc).applyAll
      (Select.findCalls ["name"] "person" activePeople petVisits ownersByPet)).toOption.map
      (fun q => Sql.aliases q.fromSql) = some ["t1", "p", "t3"] := by decide +kernel
  rw [applied] at told
  have printed : Sql.aliases q.fromSql = ["t1", "p", "t3"] := Option.some.inj told
  rw [printed] at dotted
  exact ⟨found, ts, lexed, dotted⟩

end QueryKit
