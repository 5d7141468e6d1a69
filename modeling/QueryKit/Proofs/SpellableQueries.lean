import QueryKit.Proofs.QueryParts
import QueryKit.Proofs.SpellableFilters

-- What stops a query. When its timestamps can be written, a step or a statement fails only by a fault of what it
-- is told to put together.

namespace QueryKit

namespace JoinSide

def isSpellable (zone : Zone) : JoinSide → Bool
  | .column _ => true
  | .compare c => c.operand.isSpellable zone

end JoinSide

def JoinKeys.isSpellable (zone : Zone) (keys : JoinKeys) : Bool := keys.sides.all (JoinSide.isSpellable zone)

def Argument.isSpellable (zone : Zone) : Argument → Bool
  | .column _ => true
  | .value v => Sql.datesFit zone v

def SelectItem.isSpellable (zone : Zone) : SelectItem → Bool
  | .call _ arguments _ _ => arguments.all (Argument.isSpellable zone)
  | .column .. | .expression .. | .having _ => true

namespace Select

def spellableParts (zone : Zone) : Parts where
  item item := item.isSpellable zone = true
  side side := side.isSpellable zone = true
  filter conditions := conditions.isSpellable zone = true
  term term := ∀ sql, term = .raw sql → Sql.Fits zone sql

def Call.isSpellable (zone : Zone) : Call → Bool
  | .join _ own _ other | .joinLast _ own other => own.isSpellable zone && other.isSpellable zone
  | .apply _ arguments _ => arguments.all (Argument.isSpellable zone)
  | .filter _ conditions | .filterExists _ _ _ conditions => conditions.isSpellable zone
  | .orderRaw _ arguments => arguments.all (Sql.datesFit zone)
  | _ => true

section
variable {zone : Zone} {q next : Select} {fault : Fault}

theorem rename_spellable (label : String) (item : SelectItem) (spellable : item.isSpellable zone = true) :
    (item.rename label).isSpellable zone = true := by
  cases item <;> exact spellable

theorem fits_of_query {sql : String} {arguments : List Value} {fragment : Sql}
    (written : Template.query zone sql arguments = .ok fragment) : Sql.Fits zone fragment := by
  unfold Template.query at written
  dsimp only at written
  split at written
  · rename_i fits
    split at written <;> cases written
    exact List.all_eq_true.mp fits
  · cases written

theorem call_spellable {c : Call} (spellable : c.isSpellable zone = true) : c.MadeOf (spellableParts zone) zone := by
  cases c with
  | join table own target other | joinLast table own other =>
    obtain ⟨first, second⟩ := Bool.and_eq_true_iff.mp spellable
    exact ⟨List.all_eq_true.mp first, List.all_eq_true.mp second⟩
  | apply function arguments label => exact fun _ => spellable
  | filter | filterExists => exact spellable
  | orderRaw sql arguments =>
    intro fragment written sql same
    cases same
    exact fits_of_query written
  | _ => simp [Call.MadeOf, spellableParts, SelectItem.isSpellable]

theorem fault_of_query {sql : String} {arguments : List Value} (spellable : arguments.all (Sql.datesFit zone) = true)
    (failed : Template.query zone sql arguments = .error fault) : fault.isConstruction = true := by
  have null : Sql.Fits zone [.literal .null] := by simp [Sql.datesFit]
  have fits := fits_fill Sql.fits_nil null (Template.ofMarks sql.toList) (List.all_eq_true.mp spellable)
  unfold Template.query at failed
  dsimp only at failed
  rw [if_pos (List.all_eq_true.mpr fits)] at failed
  split at failed <;> cases failed
  rfl

theorem fault_of_resolve {name : String} (failed : q.resolve name = .error fault) : fault.isConstruction = true := by
  unfold resolve at failed
  split at failed <;> cases failed
  rfl

theorem fault_of_pair {own other : JoinKeys} (failed : own.pair other = .error fault) : fault.isConstruction = true := by
  unfold JoinKeys.pair at failed
  cases paired : (JoinKeys.match? own other).bind JoinKeys.checkPairs with
  | ok pairs =>
    rw [paired] at failed
    cases failed
  | error cause =>
    rw [paired] at failed
    cases failed
    rfl

theorem fault_of_check {link : Link} (failed : link.check = .error fault) : fault.isConstruction = true := by
  unfold Link.check at failed
  repeat' split at failed
  all_goals
    cases failed
    try rfl

theorem fault_of_apply {c : Call} (spellable : c.isSpellable q.zone = true) (failed : q.apply c = .error fault) :
    fault.isConstruction = true := by
  cases c with
  | join table own target other =>
    simp only [apply, addJoin] at failed
    split at failed
    · cases failed
    · rcases error_of_bind failed with missing | ⟨label, _, failed⟩
      · exact fault_of_resolve missing
      · rcases error_of_bind failed with unpaired | ⟨pairs, _, failed⟩
        · exact fault_of_pair unpaired
        · cases failed
  | joinLast table own other =>
    simp only [apply, addJoinLast] at failed
    split at failed
    · cases failed
    · rcases error_of_bind failed with unpaired | ⟨pairs, _, failed⟩
      · exact fault_of_pair unpaired
      · cases failed
  | filter table conditions =>
    cases table with
    | none => cases failed
    | some name =>
      rcases error_of_bind failed with missing | ⟨label, _, failed⟩
      · exact fault_of_resolve missing
      · cases failed
  | filterExists table tableLink link conditions =>
    rcases error_of_bind failed with broken | ⟨_, _, failed⟩
    · exact fault_of_check broken
    · rcases error_of_bind failed with missing | ⟨label, _, failed⟩
      · exact fault_of_resolve missing
      · cases failed
  | orderOn table column direction =>
    rcases error_of_bind failed with missing | ⟨label, _, failed⟩
    · exact fault_of_resolve missing
    · cases failed
  | orderRaw sql arguments =>
    rcases error_of_bind failed with unfilled | ⟨fragment, _, failed⟩
    · exact fault_of_query spellable unfilled
    · cases failed
  | _ => cases failed

theorem fault_of_applyAll {calls : List Call} (spellable : ∀ c ∈ calls, c.isSpellable zone = true)
    (made : q.MadeOf (spellableParts zone) zone) (failed : q.applyAll calls = .error fault) :
    fault.isConstruction = true := by
  induction calls generalizing q with
  | nil => cases failed
  | cons c r ih =>
    obtain ⟨first, rest⟩ := List.forall_mem_cons.mp spellable
    rcases error_of_bind failed with here | ⟨next, applied, later⟩
    · exact fault_of_apply (made.zone ▸ first) here
    · exact ih rest (apply_madeOf rename_spellable (call_spellable first) applied made) later

theorem fits_column (table : Option String) (name : String) : Sql.Fits zone (Sql.column table name) := by
  cases table <;> simp [Sql.column]

theorem fits_columnOf (q : Select) (source : Source) (name : String) : (q.columnOf source name).datesFit zone = true := by
  unfold columnOf
  split <;> rfl

theorem fits_withAlias {label : Option String} {sql : Sql} (fits : Sql.Fits zone sql) : Sql.Fits zone (withAlias label sql) := by
  cases label <;> simpa [withAlias] using fits

theorem fits_call {name : String} {arguments : Sql} (fits : Sql.Fits zone arguments) : Sql.Fits zone (callSql name arguments) := by
  simpa [callSql] using fits

theorem fits_wrapped (wrappers : List SqlFunction) {sql : Sql} (fits : Sql.Fits zone sql) :
    Sql.Fits zone (wrappers.foldr (fun w sql => callSql w.name sql) sql) := by
  induction wrappers with
  | nil => exact fits
  | cons w r ih => exact fits_call ih

theorem fits_item {source : Source} {item : SelectItem} (spellable : item.isSpellable zone = true) {sql : Sql}
    (written : q.itemSql? source item = some sql) : Sql.Fits zone sql := by
  cases item with
  | column name label =>
    cases written
    apply fits_withAlias
    simp [fits_columnOf]
  | expression text label =>
    cases written
    apply fits_withAlias
    simp
  | having column => cases written
  | call function arguments label wrappers =>
    cases written
    have each : ∀ part ∈ arguments.map (q.argumentSql source), Sql.Fits zone part := by
      intro part member
      obtain ⟨argument, inside, rfl⟩ := List.mem_map.mp member
      have known := List.all_eq_true.mp spellable argument inside
      cases argument with
      | column name => simp [argumentSql, fits_columnOf]
      | value v =>
        have literal : Sql.datesFit zone v = true := known
        simp [argumentSql, literal]
    apply fits_withAlias
    apply fits_wrapped
    apply fits_call
    split
    · simp
    · exact fits_separated ", " _ each

theorem fits_list (made : q.MadeOf (spellableParts zone) zone) : Sql.Fits zone q.listSql := by
  have each : ∀ sql ∈ distinctTexts q.zone q.expressions, Sql.Fits zone sql := by
    apply forall_mem_distinctTexts
    intro sql member
    obtain ⟨source, known, inside⟩ := List.mem_flatMap.mp member
    obtain ⟨item, present, written⟩ := List.mem_filterMap.mp inside
    exact fits_item (made.items source known item present) written
  unfold listSql
  split
  · simp
  · exact fits_separated ", " _ each

theorem fits_distinctOn (q : Select) : Sql.Fits zone q.distinctOnSql := by
  unfold distinctOnSql
  split
  · exact Sql.fits_nil
  · rename_i columns _
    have each : ∀ label, ∀ part ∈ columns.map (Sql.column label), Sql.Fits zone part := by
      intro label part member
      obtain ⟨name, _, rfl⟩ := List.mem_map.mp member
      exact fits_column label name
    simp [fits_separated ", " _ (each _)]

theorem fits_joinComparison (left : List String) {c : Comparator} (spellable : c.operand.isSpellable zone = true)
    (label : String) : Sql.Fits zone (joinComparison left c label) := by
  obtain ⟨op, operand, _⟩ := c
  cases operand with
  | raw template escapes => exact fits_template spellable _
  | range lower upper => apply fits_range <;> simp [operandColumn]
  | value v | expression v => apply fits_one <;> simp [operandColumn]

theorem fits_join (source : Source) {join : Join}
    (spellable : join.own.isSpellable zone = true ∧ join.other.isSpellable zone = true) :
    Sql.Fits zone (joinSql source join) := by
  obtain ⟨own, target, other⟩ := join
  cases own with
  | compare c => exact fits_joinComparison _ spellable.1 _
  | column name =>
    cases other with
    | compare c => exact fits_joinComparison _ spellable.2 _
    | column against => simp [joinSql]

theorem fits_table (aliased : Bool) (source : Source) : Sql.Fits zone (tableSql aliased source) := by
  cases aliased <;> simp [tableSql]

theorem fits_joined (aliased : Bool) {sources : List Source} (spellable : ∀ source ∈ sources, ∀ join ∈ source.joins,
    join.own.isSpellable zone = true ∧ join.other.isSpellable zone = true) : Sql.Fits zone (joinedSql aliased sources) := by
  induction sources with
  | nil => exact Sql.fits_nil
  | cons source r ih =>
    obtain ⟨first, rest⟩ := List.forall_mem_cons.mp spellable
    have on : ∀ part ∈ source.joins.map (joinSql source), Sql.Fits zone part := by
      intro part member
      obtain ⟨join, inside, rfl⟩ := List.mem_map.mp member
      exact fits_join source (first join inside)
    have closed : Sql.Fits zone (if r = [] then [] else [.word ")"]) := by split <;> simp
    simp [joinedSql, fits_table, fits_separated " AND " _ on, closed, ih rest]

theorem fits_from (made : q.MadeOf (spellableParts zone) zone) : Sql.Fits zone q.fromSql := by
  have joins := made.joins
  unfold fromSql
  split
  · simp
  · rename_i first r placed
    rw [placed] at joins
    simp [fits_table, fits_joined q.isAliased (List.forall_mem_cons.mp joins).2]

theorem fits_listClause (keyword separator : String) {parts : List Sql} (each : ∀ part ∈ parts, Sql.Fits zone part) :
    ∀ clause ∈ listClause keyword separator parts, Sql.Fits zone clause := by
  unfold listClause
  split
  · simp
  · simpa using fits_separated separator parts each

theorem fits_groupBy (q : Select) : ∀ clause ∈ q.groupByClause, Sql.Fits zone clause := by
  unfold groupByClause
  split
  · simp
  · rename_i columns _
    have each : ∀ part ∈ groupByColumns columns, Sql.Fits zone part := by
      intro part member
      obtain ⟨column, _, rfl⟩ := List.mem_map.mp member
      simp
    simpa using fits_separated ", " _ each

theorem fits_having (q : Select) : ∀ part ∈ q.havingColumns, Sql.Fits zone part := by
  intro part member
  obtain ⟨item, _, written⟩ := List.mem_filterMap.mp member
  split at written <;> cases written
  simp

theorem fits_order (made : q.MadeOf (spellableParts zone) zone) : ∀ part ∈ q.orderTerms, Sql.Fits zone part := by
  rw [orderTerms, List.forall_mem_append]
  constructor
  · intro part member
    obtain ⟨column, _, written⟩ := List.mem_filterMap.mp (List.mem_reverse.mp member)
    split at written <;> cases written
    simp
  · intro part member
    obtain ⟨term, known, rfl⟩ := List.mem_map.mp member
    cases term with
    | column table name direction => simp [orderTermSql, fits_column]
    | raw sql => exact made.order (.raw sql) known sql rfl

theorem fits_limit (q : Select) : ∀ clause ∈ q.limitSql, Sql.Fits zone clause := by
  unfold limitSql
  split <;> simp

theorem fits_filters (made : q.MadeOf (spellableParts zone) zone) : ∀ clause ∈ q.whereSql?.toList, Sql.Fits zone clause := by
  intro clause member
  exact fits_where q.isAliased made.groups (Option.mem_toList.mp member)

theorem fits_rows (made : q.MadeOf (spellableParts zone) zone) : Sql.Fits zone q.rowsSql := by
  apply fits_separated
  have selected : Sql.Fits zone (.word "SELECT" :: q.distinctOnSql ++ .word " " :: q.listSql) := by
    simp [fits_distinctOn, fits_list made]
  unfold clauses
  simp only [List.forall_mem_append, List.forall_mem_cons]
  exact ⟨⟨⟨⟨⟨⟨selected, fits_from made, by simp⟩, fits_filters made⟩, fits_groupBy q⟩,
    fits_listClause _ _ (fits_having q)⟩, fits_listClause _ _ (fits_order made)⟩, fits_limit q⟩

theorem fits_aggregate (transform : Option Transform) : Sql.Fits zone (aggregateSql transform) := by
  unfold aggregateSql
  dsimp only
  split
  · simp
  · rename_i t
    cases t.arguments <;> simp [Sql.datesFit]

theorem fits_statement (made : q.MadeOf (spellableParts zone) zone) : Sql.Fits zone q.statementSql := by
  unfold statementSql
  split
  · exact fits_rows made
  · simp [fits_aggregate, fits_rows made]

theorem fits_count (made : q.MadeOf (spellableParts zone) zone) : Sql.Fits zone q.countSql := by
  apply fits_separated
  simp only [List.forall_mem_append, List.forall_mem_cons]
  exact ⟨⟨by simp, fits_from made, by simp⟩, fits_filters made⟩

theorem fault_of_misuse {kind : StatementKind} (failed : q.check kind = .error fault) : fault.isConstruction = true := by
  unfold check at failed
  repeat' split at failed
  all_goals
    cases failed
    try rfl

theorem fault_of_build (made : q.MadeOf (spellableParts zone) zone) (failed : q.build.1 = .error fault) :
    fault.isConstruction = true := by
  unfold build at failed
  cases checked : q.check .select with
  | error cause =>
    rw [checked] at failed
    cases failed
    exact fault_of_misuse checked
  | ok =>
    have filled : q.sources ≠ [] := check_filled checked
    have fits := fits_statement (made.flush filled fun _ _ => rfl)
    rw [checked, made.zone] at failed
    cases (render_of_fits fits).symm.trans failed

theorem fault_of_buildCount (made : q.MadeOf (spellableParts zone) zone) (failed : q.buildCount = .error fault) :
    fault.isConstruction = true := by
  rcases error_of_bind failed with misused | ⟨_, _, failed⟩
  · exact fault_of_misuse misused
  · rw [made.zone] at failed
    cases (render_of_fits (fits_count made)).symm.trans failed

theorem fault_of_written {calls : List Call} (spellable : ∀ c ∈ calls, c.isSpellable zone = true)
    {write : Select → Except Fault String}
    (written : ∀ q, q.MadeOf (spellableParts zone) zone → write q = .error fault → fault.isConstruction = true)
    (failed : ((new zone).applyAll calls >>= write) = .error fault) : fault.isConstruction = true := by
  have start := new_madeOf (spellableParts zone) zone
  rcases error_of_bind failed with stopped | ⟨q, reached, unwritten⟩
  · exact fault_of_applyAll spellable start stopped
  · have brings : ∀ c ∈ calls, c.MadeOf (spellableParts zone) zone := fun c member => call_spellable (spellable c member)
    exact written q (applyAll_madeOf rename_spellable brings reached start) unwritten

end

end Select

end QueryKit
