import QueryKit.Driver.Find
import QueryKit.Proofs.SelectRuns

-- What is counted of a query: its tables and filters. The other steps only pick and show rows, and a query
-- that is made with them has the same scope as one without.

namespace QueryKit

namespace Select

def Call.scopes : Call → Bool
  | .table .. | .join .. | .joinLast .. | .tableAlias .. | .filter .. | .filterExists .. => true
  | _ => false

def bare (source : Source) : Source := { source with items := [] }

def scope (q : Select) : Select :=
  { new q.zone with sources := q.sources.map bare, groups := q.groups, correlated := q.correlated, misuse := q.misuse }

theorem scope_new (zone : Zone) : (new zone).scope = new zone := rfl

theorem map_mapLast {α β : Type} {f : α → β} {change : α → α} {other : β → β} (same : ∀ a, f (change a) = other (f a))
    (as : List α) : (mapLast change as).map f = mapLast other (as.map f) := by
  induction as using mapLast.induct with
  | case1 => rfl
  | case2 a => exact congrArg (fun b => [b]) (same a)
  | case3 a b r ih => exact congrArg (f a :: ·) ih

theorem mapLast_id {α : Type} (as : List α) : mapLast id as = as := by
  induction as using mapLast.induct with
  | case1 => rfl
  | case2 a => rfl
  | case3 a b r ih => exact congrArg (a :: ·) ih

theorem scope_mapLast {change : Source → Source} (kept : ∀ source, bare (change source) = bare source) (q : Select) :
    { q with sources := mapLast change q.sources }.scope = q.scope := by
  have bared : (mapLast change q.sources).map bare = mapLast id (q.sources.map bare) := map_mapLast kept q.sources
  rw [mapLast_id] at bared
  simp [scope, bared]

theorem scope_noteMisuse (fault : QueryFault) (q : Select) : (q.noteMisuse fault).scope = q.scope.noteMisuse fault := by
  obtain ⟨zone, sources, groups, order, groupBy, limit, offset, distinctOn, format, transform, correlated, pending,
    misuse⟩ := q
  cases misuse <;> rfl

theorem isEmpty_scope (q : Select) : q.scope.sources.isEmpty = q.sources.isEmpty := List.isEmpty_map

theorem resolve_scope (name : String) (q : Select) : q.scope.resolve name = q.resolve name := by
  simp [resolve, aliasOf?, scope, bare, List.find?_map, Function.comp_def, Option.map_or]

theorem scope_addSource (table : String) (joins : List Join) (q : Select) :
    (q.addSource table joins).scope = q.scope.addSource table joins := by
  simp [addSource, scope, bare]

theorem scope_setAlias (label : String) (q : Select) : (q.setAlias label).scope = q.scope.setAlias label := by
  let renamed (source : Source) : Source := { source with label := label }
  have bared : (mapLast renamed q.sources).map bare = mapLast renamed (q.sources.map bare) := by
    apply map_mapLast
    intro source
    rfl
  unfold setAlias
  rw [isEmpty_scope]
  split
  · exact scope_noteMisuse _ q
  · simp [scope, ← bared, renamed]

theorem scope_addJoin (table : String) (own : JoinKeys) (target : String) (other : JoinKeys) (q : Select) :
    q.scope.addJoin table own target other = (q.addJoin table own target other).map scope := by
  unfold addJoin
  rw [isEmpty_scope, resolve_scope]
  split
  · simp [Except.map, scope_addSource]
  · cases q.resolve target with
    | error fault => rfl
    | ok label =>
      cases own.pair other with
      | error fault => rfl
      | ok pairs => exact congrArg Except.ok (scope_addSource table _ q).symm

theorem scope_addJoinLast (table : String) (own other : JoinKeys) (q : Select) :
    q.scope.addJoinLast table own other = (q.addJoinLast table own other).map scope := by
  have last : q.scope.lastSource? = q.lastSource?.map bare := List.getLast?_map
  unfold addJoinLast
  rw [last]
  cases q.lastSource? with
  | none => exact congrArg Except.ok (scope_addSource table _ q).symm
  | some source =>
    cases own.pair other with
    | error fault => rfl
    | ok pairs => exact congrArg Except.ok (scope_addSource table _ q).symm

theorem scope_addFilter (table : Option String) (conditions : Conditions) (q : Select) :
    q.scope.addFilter table conditions = (q.addFilter table conditions).map scope := by
  cases table with
  | none => rfl
  | some name =>
    unfold addFilter
    simp only [resolve_scope]
    cases q.resolve name <;> rfl

theorem scope_addFilterExists (table tableLink : String) (link : Link) (conditions : Conditions) (q : Select) :
    q.scope.addFilterExists table tableLink link conditions =
      (q.addFilterExists table tableLink link conditions).map scope := by
  have last : q.scope.lastSource?.map (·.label) = q.lastSource?.map (·.label) := by
    have bared : q.scope.lastSource? = q.lastSource?.map bare := List.getLast?_map
    simp [bared, bare, Function.comp_def]
  unfold addFilterExists
  rw [last, resolve_scope]
  cases link.check with
  | error fault => rfl
  | ok checked => cases q.resolve tableLink <;> rfl

theorem scope_apply {c : Call} (telling : c.scopes = true) (q : Select) :
    q.scope.apply c = (q.apply c).map scope := by
  cases c with
  | table name =>
    refine congrArg Except.ok ?_
    unfold addTable
    rw [isEmpty_scope]
    split
    · exact (scope_addSource name [] q).symm
    · exact (scope_noteMisuse _ q).symm
  | join table own target other => exact scope_addJoin table own target other q
  | joinLast table own other => exact scope_addJoinLast table own other q
  | tableAlias name => exact congrArg Except.ok (scope_setAlias name q).symm
  | filter table conditions => exact scope_addFilter table conditions q
  | filterExists table tableLink link conditions => exact scope_addFilterExists table tableLink link conditions q
  | _ => cases telling

theorem misuse_noteMisuse (fault : QueryFault) (q : Select) : (q.noteMisuse fault).misuse ≠ none := by
  unfold noteMisuse
  split
  · exact Option.some_ne_none fault
  case h_2 noted =>
    rw [noted]
    exact Option.some_ne_none _

theorem scope_addItems (items : List SelectItem) {q : Select} (used : (addItems items q).misuse = none) :
    (addItems items q).scope = q.scope := by
  unfold addItems at used ⊢
  by_cases vacuous : items.isEmpty = true
  · rw [if_pos vacuous]
  rw [if_neg vacuous] at used ⊢
  by_cases rootless : q.sources.isEmpty = true
  · rw [if_pos rootless] at used
    exact absurd used (misuse_noteMisuse _ q)
  · rw [if_neg rootless]
    apply scope_mapLast
    intro source
    rfl

-- A step that says nothing about the rows leaves the scope as it was, unless it is misused.
theorem apply_scope {c : Call} (silent : c.scopes = false) {q next : Select} (applied : q.apply c = .ok next)
    (used : next.misuse = none) : next.scope = q.scope := by
  cases makes_of_apply applied with
  | opened | unjoined | begun | joined | begunLast | joinedLast | unaliased | aliased | filtered | filteredOn | linked =>
    cases silent
  | columns | expression | having | called => exact scope_addItems _ used
  | named label =>
    apply scope_mapLast
    intro source
    rfl
  | _ => rfl

-- A misuse is kept, so that a query without any never had one.
theorem misuse_before {c : Call} {q next : Select} (applied : q.apply c = .ok next) (used : next.misuse = none) :
    q.misuse = none := by
  cases makes_of_apply applied with
  | unjoined | unaliased => exact absurd used (misuse_noteMisuse _ q)
  | columns | expression | having | called =>
    have same := scope_addItems _ used
    exact (congrArg misuse same).symm.trans used
  | _ => exact used

theorem misuse_start {q last : Select} (calls : List Call) (applied : q.applyAll calls = .ok last)
    (used : last.misuse = none) : q.misuse = none := by
  induction calls generalizing q with
  | nil =>
    cases applied
    exact used
  | cons c r ih =>
    obtain ⟨next, here, rest⟩ := ok_of_bind applied
    exact misuse_before here (ih rest)

-- So the scope of a query comes about by the steps that say something about it, and no others.
theorem scope_applyAll {q last : Select} (calls : List Call) (applied : q.applyAll calls = .ok last)
    (used : last.misuse = none) : q.scope.applyAll (calls.filter Call.scopes) = .ok last.scope := by
  induction calls generalizing q with
  | nil =>
    cases applied
    rfl
  | cons c r ih =>
    obtain ⟨next, here, rest⟩ := ok_of_bind applied
    have later := ih rest
    cases telling : c.scopes with
    | true =>
      have shadowed := scope_apply telling q
      rw [here] at shadowed
      rw [List.filter_cons_of_pos telling, applyAll, shadowed]
      exact later
    | false =>
      have same := apply_scope telling here (misuse_start r rest used)
      rw [List.filter_cons_of_neg (by simp [telling]), ← same]
      exact later

theorem scopes_joinsFrom (position : Nat) (joins : List JoinSpec) : ∀ c ∈ joinsFrom position joins, c.scopes = true := by
  induction joins generalizing position with
  | nil => simp [joinsFrom]
  | cons j r ih =>
    refine List.forall_mem_append.mpr ⟨?_, ih _⟩
    unfold joinCalls
    cases j.conditions <;> simp [Call.scopes]

theorem filter_of_mem {table : String} {r : Related} {conditions : Conditions} {c : Call}
    (member : c ∈ filterCalls table r conditions) : ∃ about tree, c = .filter about tree := by
  unfold filterCalls mergeFilter at member
  split at member
  · rcases List.mem_append.mp member with own | main
    · split at own
      · split at own
        · cases own
        · exact ⟨_, _, List.mem_singleton.mp own⟩
      · cases own
    · exact ⟨_, _, List.mem_singleton.mp main⟩
  · exact ⟨_, _, List.mem_singleton.mp member⟩

theorem scopes_filterCalls (table : String) (r : Related) (conditions : Conditions) :
    ∀ c ∈ filterCalls table r conditions, c.scopes = true := by
  intro c member
  obtain ⟨about, tree, rfl⟩ := filter_of_mem member
  rfl

theorem scopes_existingCalls (table : String) (r : Related) : ∀ c ∈ existingCalls table r, c.scopes = true := by
  intro c member
  obtain ⟨e, _, rfl⟩ := List.mem_map.mp member
  rfl

theorem silent_shapeCalls (s : Shape) : ∀ c ∈ shapeCalls s, c.scopes = false := by
  unfold shapeCalls
  refine List.forall_mem_append.mpr ⟨List.forall_mem_append.mpr ⟨List.forall_mem_append.mpr ⟨?offset, ?limit⟩, ?order⟩, ?distinct⟩
  case offset =>
    split
    · split <;> simp [Call.scopes]
    · simp
  case limit => cases s.limit <;> simp [Call.scopes]
  case order =>
    intro c member
    obtain ⟨o, _, rfl⟩ := List.mem_map.mp member
    unfold orderCall
    cases o.table <;> rfl
  case distinct => cases s.distinctOn <;> simp [Call.scopes]

theorem silent_outputCalls (s : Shape) : ∀ c ∈ outputCalls s, c.scopes = false := by
  unfold outputCalls
  cases s.transform <;> simp [Call.scopes]

theorem filter_findCalls (columns : List String) (table : String) (conditions : Conditions) (r : Related) (s : Shape) :
    (findCalls columns table conditions r s).filter Call.scopes = countCalls table conditions r := by
  have kept {calls : List Call} (telling : ∀ c ∈ calls, c.scopes = true) : calls.filter Call.scopes = calls :=
    List.filter_eq_self.mpr telling
  have dropped {calls : List Call} (silent : ∀ c ∈ calls, c.scopes = false) : calls.filter Call.scopes = [] :=
    List.filter_eq_nil_iff.mpr fun c member => Bool.eq_false_iff.mp (silent c member)
  have base : [Call.table table, .columns columns].filter Call.scopes = [.table table] := rfl
  unfold findCalls countCalls
  simp only [List.filter_append, base, kept (scopes_joinsFrom 1 r.joins), dropped (silent_shapeCalls s),
    kept (scopes_filterCalls table r conditions), kept (scopes_existingCalls table r), dropped (silent_outputCalls s),
    List.append_nil]
  cases r.merge <;> rfl

theorem isAliased_scope (q : Select) : q.scope.isAliased = q.isAliased := by
  simp [isAliased, scope]

theorem joinedSql_bare (aliased : Bool) (sources : List Source) :
    joinedSql aliased (sources.map bare) = joinedSql aliased sources := by
  induction sources with
  | nil => rfl
  | cons source r ih =>
    rw [List.map_cons, joinedSql, joinedSql, ih, List.isEmpty_map]
    rfl

theorem fromSql_scope (q : Select) : q.scope.fromSql = q.fromSql := by
  have sources : q.scope.sources = q.sources.map bare := rfl
  unfold fromSql
  rw [isAliased_scope, sources]
  cases q.sources with
  | nil => rfl
  | cons first r =>
    rw [List.map_cons]
    simp only [joinedSql_bare, List.length_map]
    rfl

theorem whereSql?_scope (q : Select) : q.scope.whereSql? = q.whereSql? := by
  unfold whereSql?
  rw [isAliased_scope]
  rfl

theorem scope_flush {q : Select} (filled : q.sources ≠ []) : q.flush.scope = q.scope := by
  rcases flush_cases filled with same | ⟨function, wrappers, called⟩
  · rw [same]
  · rw [called]
    refine Eq.trans (scope_mapLast ?_ { q with pending := [] }) rfl
    intro source
    rfl

def scopeSql (q : Select) : Sql := Sql.separated " " (q.fromSql :: q.whereSql?.toList)

def headSql (q : Select) : Sql := .word "SELECT" :: q.distinctOnSql ++ .word " " :: q.listSql

-- The clauses behind the filters, each with a blank in front.
def tailSql (q : Select) : Sql :=
  (q.groupByClause ++ listClause "HAVING " " AND " q.havingColumns ++ listClause "ORDER BY " ", " q.orderTerms ++
    q.limitSql).flatMap fun clause => .word " " :: clause

theorem separated_behind (w : String) (part : Sql) (r : List Sql) :
    Sql.separated w (part :: r) = part ++ r.flatMap fun next => .word w :: next := by
  induction r generalizing part with
  | nil => simp [Sql.separated_singleton]
  | cons next r ih => rw [Sql.separated_cons_cons, ih, List.flatMap_cons, List.cons_append]

theorem rowsSql_parts (q : Select) : q.rowsSql = q.headSql ++ .word " " :: q.scopeSql ++ q.tailSql := by
  have parts : q.clauses = q.headSql :: (q.fromSql :: q.whereSql?.toList) ++ (q.groupByClause ++
      listClause "HAVING " " AND " q.havingColumns ++ listClause "ORDER BY " ", " q.orderTerms ++ q.limitSql) := by
    simp [clauses, headSql]
  rw [rowsSql, parts, List.cons_append, separated_behind, List.flatMap_append, scopeSql, separated_behind, tailSql]
  simp

theorem countSql_parts (q : Select) :
    q.countSql = .word "SELECT COUNT(*) AS " :: .name ["c"] :: .word " " :: q.scopeSql := by
  unfold countSql scopeSql
  rw [List.cons_append, List.singleton_append, Sql.separated_cons_cons]
  rfl

-- What the format of a query puts around its rows.
def wrapped (q : Select) (format : Format) (rows : String) : String :=
  match format with
  | .rows => rows
  | .json => "SELECT " ++ (aggregateSql q.transform).text q.zone ++ "::text AS json FROM (" ++ rows ++ ") t"

theorem rows_of_statement {q : Select} {text : String} (written : q.statementSql.render q.zone = .ok text) :
    q.rowsSql.render q.zone = .ok (q.rowsSql.text q.zone) ∧ text = q.wrapped q.format (q.rowsSql.text q.zone) := by
  unfold statementSql at written
  unfold wrapped
  cases format : q.format with
  | rows =>
    rw [format] at written
    have spelled := Sql.text_of_render written
    exact ⟨spelled ▸ written, spelled⟩
  | json =>
    rw [format] at written
    exact render_rows written

theorem render_count {q : Select} {rows : String} (written : q.rowsSql.render q.zone = .ok rows) :
    q.countSql.render q.zone = .ok ("SELECT COUNT(*) AS \"c\" " ++ q.scopeSql.text q.zone) := by
  have text : q.countSql.text q.zone = "SELECT COUNT(*) AS \"c\" " ++ q.scopeSql.text q.zone := by
    have blank : Sql.path ["c"] = "\"c\"" := by decide +kernel
    rw [countSql_parts]
    simp [Sql.text_cons, Piece.text, blank, ← String.append_assoc]
  unfold Sql.render at written ⊢
  split at written
  case isFalse => cases written
  case isTrue fits =>
    rw [rowsSql_parts] at fits
    simp only [List.all_append, List.all_cons, Bool.and_eq_true] at fits
    have inside : q.countSql.all (Piece.datesFit q.zone) = true := by
      rw [countSql_parts]
      simpa [Piece.datesFit] using fits.1.2.2
    rw [if_pos inside, text]

theorem applyAll_append {q last : Select} (first second : List Call) (applied : q.applyAll (first ++ second) = .ok last) :
    ∃ middle, q.applyAll first = .ok middle ∧ middle.applyAll second = .ok last := by
  induction first generalizing q with
  | nil => exact ⟨q, rfl, applied⟩
  | cons c r ih =>
    obtain ⟨next, here, rest⟩ := ok_of_bind applied
    obtain ⟨middle, before, behind⟩ := ih rest
    refine ⟨middle, ?_, behind⟩
    rw [applyAll, here]
    exact before

theorem format_findCalls {q last : Select} {columns : List String} {table : String} {conditions : Conditions}
    {r : Related} {s : Shape} (applied : q.applyAll (findCalls columns table conditions r s) = .ok last) :
    last.format = s.format := by
  obtain ⟨middle, _, output⟩ := applyAll_append _ _ applied
  unfold outputCalls at output
  split at output <;> cases output <;> rfl

theorem check_unused {kind : StatementKind} {q : Select} (checked : q.check kind = .ok ()) : q.misuse = none := by
  unfold check at checked
  split at checked
  · cases checked
  case h_2 unused => exact unused

theorem check_scope {q : Select} (checked : q.check .select = .ok ()) : q.scope.check .count = .ok () := by
  have unused : q.misuse = none := check_unused checked
  have scopeUnused : q.scope.misuse = none := unused
  have filled : q.scope.sources.isEmpty = false := by
    rw [isEmpty_scope]
    simpa using check_filled checked
  simp [check, scopeUnused, filled]

theorem countSql_scope (q : Select) : q.scope.countSql = q.countSql := by
  rw [countSql, fromSql_scope, whereSql?_scope]
  rfl

theorem build_scope {q next : Select} {text : String} (built : q.build = (.ok text, next)) :
    text = next.wrapped q.format
        (next.headSql.text next.zone ++ " " ++ next.scopeSql.text next.zone ++ next.tailSql.text next.zone) ∧
      q.scope.buildCount = .ok ("SELECT COUNT(*) AS \"c\" " ++ next.scopeSql.text next.zone) := by
  obtain ⟨checked, rfl, written⟩ := build_parts built
  have filled := check_filled checked
  have same : q.flush.scope = q.scope := scope_flush filled
  have shared : q.flush.scope.zone = q.scope.zone := congrArg zone same
  have zoned : q.flush.zone = q.zone := shared
  have formatted : q.flush.format = q.format := (flush_kept filled).1
  rw [← zoned] at written
  obtain ⟨rows, spelled⟩ := rows_of_statement written
  refine ⟨?_, ?_⟩
  · rw [spelled, formatted, rowsSql_parts]
    simp [Sql.text_append, Sql.text_cons, Piece.text, String.append_assoc]
  · have counted : q.scope.countSql = q.flush.countSql := by rw [← same, countSql_scope]
    rw [buildCount, check_scope checked, counted, ← shared]
    exact render_count rows

end Select

-- Whenever a search can be written, so can the count over the same table, conditions, joins, merge and
-- subqueries. Its text goes on, behind what it counts, with the FROM clause and the WHERE clause, if there is
-- one, of the statement of the search, which stands in its wrapper when the format is JSON.
theorem count_matches_search (zone : Zone) (columns : List String) (table : String) (conditions : Conditions)
    (r : Related) (s : Shape) {text : String} (found : findSql zone columns table conditions r s = .ok text) :
    ∃ q next, (Select.new zone).applyAll (Select.findCalls columns table conditions r s) = .ok q ∧
      q.build = (.ok text, next) ∧
      text = next.wrapped s.format
        (next.headSql.text next.zone ++ " " ++ next.scopeSql.text next.zone ++ next.tailSql.text next.zone) ∧
      countSql zone table conditions r = .ok ("SELECT COUNT(*) AS \"c\" " ++ next.scopeSql.text next.zone) := by
  obtain ⟨q, applied, written⟩ := Select.ok_of_bind found
  have built : q.build = (.ok text, q.build.2) := Prod.ext written rfl
  obtain ⟨parts, counted⟩ := Select.build_scope built
  obtain ⟨checked, _, _⟩ := Select.build_parts built
  have shadowed := Select.scope_applyAll _ applied (Select.check_unused checked)
  rw [Select.filter_findCalls, Select.scope_new] at shadowed
  refine ⟨q, q.build.2, applied, built, ?_, ?_⟩
  · rw [← Select.format_findCalls applied]
    exact parts
  · rw [countSql, shadowed]
    exact counted

def adults : Conditions := .node [] [("age", .compare (.gt (.int32 17)))]

def ownedDogs : Related :=
  { joins := [⟨"pet", .single (.column "owner"), "person", .single (.column "id"), none,
      some (.node [] [("kind", .value (.text "dog"))])⟩]
    existing := [⟨"visit", .single "person" "id", .node [] []⟩] }

def lastDogs : Shape := { limit := some 5, order := [⟨"name", .descending, some "pet"⟩], format := .json }

def dogOwners : String :=
  "FROM \"person\" \"t1\" JOIN \"pet\" \"j1\" ON \"j1\".\"owner\" = \"t1\".\"id\" WHERE (\"j1\".\"kind\" = 'dog') AND " ++
    "(\"t1\".\"age\" > 17) AND (EXISTS (SELECT * FROM \"visit\" WHERE \"person\" = \"t1\".\"id\"))"

def dogOwnersFound : String :=
  "SELECT array_to_json(array_agg(t))::text AS json FROM (SELECT \"t1\".\"name\" " ++ dogOwners ++
    " ORDER BY \"j1\".\"name\" DESC LIMIT 5) t"

theorem dogOwners_counted : findSql .utc ["name"] "person" adults ownedDogs lastDogs = .ok dogOwnersFound ∧
    countSql .utc "person" adults ownedDogs = .ok ("SELECT COUNT(*) AS \"c\" " ++ dogOwners) := by
  have written : (findSql .utc ["name"] "person" adults ownedDogs lastDogs).toOption = some dogOwnersFound := by
    decide +kernel
  have found := Select.ok_of_toOption written
  obtain ⟨q, next, applied, built, _, counted⟩ := count_matches_search .utc _ _ _ _ _ found
  have told : ((Select.new .utc).applyAll (Select.findCalls ["name"] "person" adults ownedDogs lastDogs)).toOption.map
      (fun q => q.build.2.scopeSql.text q.build.2.zone) = some dogOwners := by decide +kernel
  rw [applied] at told
  have named : q.build.2.scopeSql.text q.build.2.zone = dogOwners := Option.some.inj told
  rw [built] at named
  exact ⟨found, named ▸ counted⟩

end QueryKit
