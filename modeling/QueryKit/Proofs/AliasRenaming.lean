import QueryKit.Proofs.StoredAliases

-- Giving the last table another alias. Its columns, and the conditions of its joins, take the new one;
-- filters, EXISTS links and order terms keep the one that they were stored with.

namespace QueryKit
open Text

namespace Select

-- The columns in each part of a statement, the caller's own expressions and order terms apart, go by their
-- names alone or behind an alias that the FROM clause prints.
structure Covered (q : Select) : Prop where
  items : ∀ source ∈ q.sources, ∀ item ∈ source.items, (∀ sql label, item ≠ .expression sql label) →
    ∀ sql, q.itemSql? source item = some sql → Sql.Bound (Sql.aliases q.fromSql) true sql
  distinct : Sql.Bound (Sql.aliases q.fromSql) true q.distinctOnSql
  tables : Sql.Bound (Sql.aliases q.fromSql) true q.fromSql
  filters : ∀ clause ∈ q.whereSql?.toList, Sql.Bound (Sql.aliases q.fromSql) true clause
  grouped : ∀ clause ∈ q.groupByClause, Sql.Bound (Sql.aliases q.fromSql) true clause
  having : ∀ part ∈ q.havingColumns, Sql.Bound (Sql.aliases q.fromSql) true part
  order : ∀ term ∈ q.order, (∀ sql, term ≠ .raw sql) →
    Sql.Bound (Sql.aliases q.fromSql) true (orderTermSql q.isQualified term)

section
variable {aliases : List String} {own : Bool} {q : Select}

theorem bound_withAlias (label : Option String) {sql : Sql} (bound : Sql.Bound aliases own sql) :
    Sql.Bound aliases own (withAlias label sql) := by
  cases label with
  | none => exact bound
  | some label => exact bound.append (.word (by decide) (bound_column (.plain label)))

theorem bound_call (function : SqlFunction) {arguments : Sql} (bound : Sql.Bound aliases own arguments) :
    Sql.Bound aliases own (callSql function.name arguments) := by
  have closed := bound.append (.word (w := ")") (by decide) .nil)
  refine .word ?_ closed
  cases function <;> decide

theorem bound_wrapped (wrappers : List SqlFunction) {sql : Sql} (bound : Sql.Bound aliases own sql) :
    Sql.Bound aliases own (wrappers.foldr (fun w sql => callSql w.name sql) sql) := by
  induction wrappers with
  | nil => exact bound
  | cons w r ih => exact bound_call w ih

theorem bound_argument {source : Source} (member : source ∈ q.sources) (a : Argument) :
    Sql.Bound q.printed own (q.argumentSql source a) := by
  cases a with
  | column name => exact bound_columnOf member name
  | value v => exact bound_literal v

theorem bound_item {source : Source} (member : source ∈ q.sources) {item : SelectItem}
    (plain : ∀ sql label, item ≠ .expression sql label) {sql : Sql} (written : q.itemSql? source item = some sql) :
    Sql.Bound q.printed own sql := by
  cases item with
  | column name label =>
    cases written
    exact bound_withAlias label (bound_columnOf member name)
  | expression text label => exact absurd rfl (plain text label)
  | call function arguments label wrappers =>
    cases written
    apply bound_withAlias
    apply bound_wrapped
    apply bound_call
    split
    · exact .word (by decide) .nil
    · apply Sql.bound_separated (by decide)
      intro part inside
      obtain ⟨a, _, rfl⟩ := List.mem_map.mp inside
      exact bound_argument member a
  | having column => cases written

end

theorem reached_correlated {zone : Zone} {q : Select} (reached : Reached zone q) :
    ∀ g ∈ q.groups, g.subquery.isSome = true → q.correlated = true := by
  have step {q next : Select} {name : Option String} (stores : Stores q next name)
      (ih : ∀ g ∈ q.groups, g.subquery.isSome = true → q.correlated = true) :
      ∀ g ∈ next.groups, g.subquery.isSome = true → next.correlated = true := by
    intro g member tied
    cases stores with
    | tables groups order correlated =>
      rw [correlated]
      exact ih g (groups ▸ member) tied
    | aliased given =>
      obtain ⟨groups, _, correlated⟩ := kept_setAlias _ q
      rw [given, groups] at member
      rw [given, correlated]
      exact ih g member tied
    | group added sources groups order known correlated =>
      rw [correlated, Bool.or_eq_true]
      rw [groups] at member
      rcases List.mem_append.mp member with before | last
      · exact .inl (ih g before tied)
      · cases List.mem_singleton.mp last
        exact .inr tied
    | term t sources groups order known correlated =>
      rw [correlated]
      exact ih g (groups ▸ member) tied
  induction reached with
  | start =>
    intro g member
    cases member
  | called before applied ih => exact step (apply_stores applied) ih
  | @built q before ih => exact step (build_kept q).2 ih

theorem covered_of_declared {zone : Zone} {q : Select} (reached : Reached zone q) (declared : q.Declared) :
    q.Covered := by
  have targets := targets_known (reached_chained reached)
  have printed : ∀ {label}, q.isAliased = true → label ∈ q.references → label ∈ q.printed := by
    intro label aliased refers
    rw [Select.printed, if_pos aliased]
    exact declared label refers
  have grouped : ∀ {g label}, g ∈ q.groups → g.reference? = some label → label ∈ q.references := by
    intro g label member refers
    exact List.mem_append_left _ (List.mem_filterMap.mpr ⟨g, member, refers⟩)
  constructor
  all_goals rw [aliases_from]
  · intro source member item _ plain sql written
    exact bound_item member plain written
  · exact bound_distinctOn q
  · apply bound_from _ targets (by rintro ⟨⟩)
    intro aliased source member
    exact label_printed aliased member
  · intro clause member
    apply bound_where _ _ (by rintro ⟨⟩) (Option.mem_toList.mp member)
    · intro aliased g member plain label given
      apply printed aliased
      apply grouped member
      rw [Group.reference?, plain]
      exact given
    · intro g member s given
      have tied : g.subquery.isSome = true := by rw [given]; rfl
      have correlated := reached_correlated reached g member tied
      apply printed (by simp [isAliased, correlated])
      apply grouped member
      rw [Group.reference?, given]
  · exact bound_groupBy q
  · exact bound_having q
  · intro term member plain
    cases term with
    | raw sql => exact absurd rfl (plain sql)
    | column table name direction =>
      have column : Sql.Bound q.printed true (Sql.column (if q.isQualified then table else none) name) := by
        apply bound_labelled
        intro label given
        split at given
        · rename_i qualified
          apply printed (isAliased_of_isQualified qualified)
          exact List.mem_append_right _ (List.mem_filterMap.mpr ⟨_, member, given⟩)
        · cases given
      refine column.append (.word ?_ .nil)
      cases direction <;> decide

section
variable {q : Select} {earlier : List Source} {last : Source}

theorem stored_setAlias (placed : q.sources = earlier ++ [last]) (name : String) :
    (q.setAlias name).whereSql? = q.whereSql? ∧ (q.setAlias name).orderTerms = q.orderTerms := by
  rw [setAlias_behind placed]
  simp [whereSql?, orderTerms, isAliased, isQualified, placed]

theorem renamed_behind (placed : q.sources = earlier ++ [last]) (name : String) :
    q.renamed name = { q.setAlias name with
      groups := q.groups.map (Group.relabel last.label name)
      order := q.order.map (OrderTerm.relabel last.label name) } := by
  have found : q.lastSource? = some last := by simp [lastSource?, placed]
  rw [renamed, found]

theorem map_eq_self_iff {α : Type} {f : α → α} {as : List α} : as.map f = as ↔ ∀ a ∈ as, f a = a := by
  have pointwise : as.map f = as.map id ↔ ∀ a ∈ as, f a = id a := List.map_inj_left
  rw [List.map_id] at pointwise
  exact pointwise

theorem setAlias_eq_renamed_iff (placed : q.sources = earlier ++ [last]) {name : String} (fresh : name ∉ q.labels) :
    q.setAlias name = q.renamed name ↔ last.label ∉ q.references := by
  have other : name ≠ last.label := by
    rintro rfl
    rw [labels_behind placed] at fresh
    exact fresh (List.mem_append_right _ List.mem_cons_self)
  have groups : q.groups = q.groups.map (Group.relabel last.label name) ↔
      ∀ g ∈ q.groups, g.reference? ≠ some last.label := by
    rw [eq_comm, map_eq_self_iff]
    simp only [Group.relabel_eq_self_iff other]
  have order : q.order = q.order.map (OrderTerm.relabel last.label name) ↔
      ∀ term ∈ q.order, term.reference? ≠ some last.label := by
    rw [eq_comm, map_eq_self_iff]
    simp only [OrderTerm.relabel_eq_self_iff other]
  have apart : last.label ∉ q.references ↔ (∀ g ∈ q.groups, g.reference? ≠ some last.label) ∧
      ∀ term ∈ q.order, term.reference? ≠ some last.label := by
    simp [references]
  rw [apart, ← groups, ← order, renamed_behind placed, setAlias_behind placed]
  simp

end

end Select

-- The last table of a query gets another alias: filters and order are written as before, under the old one.
-- Only when nothing refers to the table yet is it renamed throughout, and where all that is stored referred
-- to tables, only then does it go on to, unless a table in front has the old alias too. While it does, every
-- column of the statement goes by its name or behind an alias of the FROM clause. All that is stored refers
-- to tables where each alias was given before anything referred to its table.
theorem alias_renames (zone : Zone) {q : Select} (reached : Select.Reached zone q) {earlier : List Source}
    {last : Source} (placed : q.sources = earlier ++ [last]) {name : String} (fresh : name ∉ q.labels) :
    ((q.setAlias name).whereSql? = q.whereSql? ∧ (q.setAlias name).orderTerms = q.orderTerms) ∧
    (q.setAlias name = q.renamed name ↔ last.label ∉ q.references) ∧
    (q.Declared → ((q.setAlias name).Declared ↔ (last.label ∈ q.references → last.label ∈ earlier.map (·.label)))) ∧
    ((q.setAlias name).Declared → (q.setAlias name).Covered) ∧
    (Select.Prompt zone q → q.Declared) := by
  have given : Select.Reached zone (q.setAlias name) := .called (c := .tableAlias name) reached rfl
  refine ⟨Select.stored_setAlias placed name, Select.setAlias_eq_renamed_iff placed fresh, ?_, ?_, ?_⟩
  · exact Select.setAlias_declared_iff placed fresh
  · exact Select.covered_of_declared given
  · exact Select.Prompt.declared

def ownerSource : Source := ⟨"person", "t" ++ natText 1, [], []⟩

def petSource : Source := ⟨"pet", "t" ++ natText 2, [⟨.column "owner", "t" ++ natText 1, .column "id"⟩], []⟩

def ownerSteps : List Select.Call :=
  [.table "person", .join "pet" (.single (.column "owner")) "person" (.single (.column "id")),
    .filter (some "person") activePeople, .orderOn "person" "name" .ascending]

def ownerQuery : Select :=
  { Select.new .utc with
    sources := [ownerSource, petSource]
    groups := [.plain (some ("t" ++ natText 1)) activePeople]
    order := [.column (some ("t" ++ natText 1)) "name" .ascending] }

theorem owners_renamed : ownerQuery.sources = [ownerSource] ++ [petSource] ∧ "p" ∉ ownerQuery.labels ∧
    ownerQuery.setAlias "p" = ownerQuery.renamed "p" ∧ (ownerQuery.setAlias "p").Covered := by
  have run : (Select.new .utc).applyAll ownerSteps = .ok ownerQuery := rfl
  have reached : Select.Reached .utc ownerQuery := Select.reached_applyAll ownerSteps .start run
  have placed : ownerQuery.sources = [ownerSource] ++ [petSource] := rfl
  have fresh : "p" ∉ ownerQuery.labels := by decide +kernel
  have apart : petSource.label ∉ ownerQuery.references := by decide +kernel
  have declared : ownerQuery.Declared := by
    unfold Select.Declared
    decide +kernel
  obtain ⟨_, whole, still, covered, _⟩ := alias_renames .utc reached placed fresh
  refine ⟨placed, fresh, whole.mpr apart, covered ?_⟩
  exact (still declared).mpr fun refers => absurd refers apart

def dogSteps : List Select.Call :=
  [.table "person", .join "pet" (.single (.column "owner")) "person" (.single (.column "id")),
    .filter (some "pet") (.node [] [("species", .value (.text "dog"))])]

def dogQuery : Select :=
  { Select.new .utc with
    sources := [ownerSource, petSource]
    groups := [.plain (some ("t" ++ natText 2)) (.node [] [("species", .value (.text "dog"))])] }

def strayedText : String :=
  "SELECT * FROM \"person\" \"t1\" JOIN \"pet\" \"p\" ON \"p\".\"owner\" = \"t1\".\"id\" WHERE \"t2\".\"species\" = 'dog'"

def renamedText : String :=
  "SELECT * FROM \"person\" \"t1\" JOIN \"pet\" \"p\" ON \"p\".\"owner\" = \"t1\".\"id\" WHERE \"p\".\"species\" = 'dog'"

theorem dogs_strayed : (Select.new .utc).applyAll dogSteps = .ok dogQuery ∧ dogQuery.Declared ∧
    "p" ∉ dogQuery.labels ∧ (∀ source ∈ dogQuery.sources, source.table ≠ "p") ∧
    (dogQuery.setAlias "p").build.1 = .ok strayedText ∧ Sql.aliases (dogQuery.setAlias "p").fromSql = ["t1", "p"] ∧
    (dogQuery.renamed "p").build.1 = .ok renamedText ∧ ¬ (dogQuery.setAlias "p").Declared := by
  have written : (dogQuery.setAlias "p").build.1.toOption = some strayedText := by decide +kernel
  have wanted : (dogQuery.renamed "p").build.1.toOption = some renamedText := by decide +kernel
  have declared : dogQuery.Declared := by
    unfold Select.Declared
    decide +kernel
  have lost : ¬ (dogQuery.setAlias "p").Declared := by
    unfold Select.Declared
    decide +kernel
  refine ⟨rfl, declared, by decide +kernel, by decide +kernel, Select.ok_of_toOption written, by decide +kernel, ?_, lost⟩
  exact Select.ok_of_toOption wanted

end QueryKit
