import QueryKit.Proofs.SearchAliases

-- What filters, EXISTS links and order terms refer to. They hold the alias that a table had when it was looked
-- up; giving the table another one does not reach them.

namespace QueryKit
open Text

-- The columns of an EXISTS are those of its own table: it refers to another one by its link only.
def Group.reference? (g : Group) : Option String :=
  match g.subquery with
  | some s => some s.outerAlias
  | none => g.table

def OrderTerm.reference? : OrderTerm → Option String
  | .column table _ _ => table
  | .raw _ => none

def relabeled (old new label : String) : String := if label = old then new else label

def Group.relabel (old new : String) (g : Group) : Group :=
  match g.subquery with
  | some s => { g with subquery := some { s with outerAlias := relabeled old new s.outerAlias } }
  | none => { g with table := g.table.map (relabeled old new) }

def OrderTerm.relabel (old new : String) : OrderTerm → OrderTerm
  | .column table name direction => .column (table.map (relabeled old new)) name direction
  | .raw sql => .raw sql

theorem relabeled_eq_self_iff {old new : String} (other : new ≠ old) (label : String) :
    relabeled old new label = label ↔ label ≠ old := by
  unfold relabeled
  split
  case isTrue same => simp [same, other]
  case isFalse apart => simp [apart]

theorem map_relabeled_eq_self_iff {old new : String} (other : new ≠ old) (label : Option String) :
    label.map (relabeled old new) = label ↔ label ≠ some old := by
  cases label with
  | none => simp
  | some label => simpa using relabeled_eq_self_iff other label

theorem Group.relabel_eq_self_iff {old new : String} (other : new ≠ old) (g : Group) :
    g.relabel old new = g ↔ g.reference? ≠ some old := by
  obtain ⟨table, conditions, subquery⟩ := g
  cases subquery with
  | none => simpa [relabel, reference?] using map_relabeled_eq_self_iff other table
  | some s =>
    obtain ⟨inner, outer, link⟩ := s
    simpa [relabel, reference?] using relabeled_eq_self_iff other outer

theorem OrderTerm.relabel_eq_self_iff {old new : String} (other : new ≠ old) (term : OrderTerm) :
    term.relabel old new = term ↔ term.reference? ≠ some old := by
  cases term with
  | raw sql => simp [relabel, reference?]
  | column table name direction => simpa [relabel, reference?] using map_relabeled_eq_self_iff other table

namespace Select

-- The aliases that filters and order terms were given, in the order of these.
def references (q : Select) : List String :=
  q.groups.filterMap Group.reference? ++ q.order.filterMap OrderTerm.reference?

-- Every one of them is the alias of a table.
def Declared (q : Select) : Prop := ∀ label ∈ q.references, label ∈ q.labels

-- The last table with another alias, and with it everything that refers to the table.
def renamed (new : String) (q : Select) : Select :=
  match q.lastSource? with
  | none => q
  | some last => { q.setAlias new with
      groups := q.groups.map (Group.relabel last.label new)
      order := q.order.map (OrderTerm.relabel last.label new) }

def Call.alias? : Call → Option String
  | .tableAlias name => some name
  | _ => none

-- What a step without an alias or with one does to what is stored: an alias goes to the last table, and every
-- other step adds a filter, an order term or a table, which is numbered by its place, or none of these. What is
-- added refers to a table.
inductive Stores (q next : Select) : Option String → Prop where
  | tables (groups : next.groups = q.groups) (order : next.order = q.order) (correlated : next.correlated = q.correlated)
      (labels : next.labels = q.labels ∨ next.labels = q.labels ++ ["t" ++ natText (q.labels.length + 1)]) :
      Stores q next none
  | aliased {name : String} (given : next = q.setAlias name) : Stores q next (some name)
  | group (g : Group) (sources : next.sources = q.sources) (groups : next.groups = q.groups ++ [g])
      (order : next.order = q.order) (known : ∀ label, g.reference? = some label → label ∈ q.labels)
      (correlated : next.correlated = (q.correlated || g.subquery.isSome)) : Stores q next none
  | term (t : OrderTerm) (sources : next.sources = q.sources) (groups : next.groups = q.groups)
      (order : next.order = q.order ++ [t]) (known : ∀ label, t.reference? = some label → label ∈ q.labels)
      (correlated : next.correlated = q.correlated) : Stores q next none

section
variable {q next : Select}

theorem first_number : "t" ++ natText 1 = "t1" := by decide +kernel

theorem labels_addSource (table : String) (joins : List Join) (q : Select) :
    (q.addSource table joins).labels = q.labels ++ ["t" ++ natText (q.labels.length + 1)] := by
  simp [addSource, labels]

theorem labels_noteMisuse (fault : QueryFault) (q : Select) : (q.noteMisuse fault).labels = q.labels := by
  rw [labels, labels, sources_noteMisuse]

theorem labels_addItems (items : List SelectItem) (q : Select) : (addItems items q).labels = q.labels := by
  unfold addItems
  split
  · rfl
  · split
    · exact labels_noteMisuse _ q
    · apply labels_mapLast
      intro source
      rfl

theorem setAlias_behind {earlier : List Source} {last : Source} (placed : q.sources = earlier ++ [last]) (name : String) :
    q.setAlias name = { q with sources := earlier ++ [{ last with label := name }] } := by
  have there : q.sources.isEmpty = false := by simp [placed]
  unfold setAlias
  rw [there, placed, mapLast_concat]
  rfl

theorem labels_behind {earlier : List Source} {last : Source} (placed : q.sources = earlier ++ [last]) :
    q.labels = earlier.map (·.label) ++ [last.label] := by
  simp [labels, placed]

theorem labels_setAlias (filled : q.sources ≠ []) (name : String) : (q.setAlias name).labels = q.labels.dropLast ++ [name] := by
  obtain ⟨earlier, last, placed⟩ := List.eq_nil_or_concat q.sources |>.resolve_left filled
  rw [List.concat_eq_append] at placed
  rw [setAlias_behind placed, labels_behind placed]
  simp [labels]

theorem kept_noteMisuse (fault : QueryFault) (q : Select) : (q.noteMisuse fault).groups = q.groups ∧
    (q.noteMisuse fault).order = q.order ∧ (q.noteMisuse fault).correlated = q.correlated := by
  unfold noteMisuse
  split <;> exact ⟨rfl, rfl, rfl⟩

theorem kept_setAlias (name : String) (q : Select) : (q.setAlias name).groups = q.groups ∧
    (q.setAlias name).order = q.order ∧ (q.setAlias name).correlated = q.correlated := by
  unfold setAlias
  split
  · exact kept_noteMisuse _ q
  · exact ⟨rfl, rfl, rfl⟩

theorem stores_noteMisuse (fault : QueryFault) (q : Select) : Stores q (q.noteMisuse fault) none := by
  obtain ⟨groups, order, correlated⟩ := kept_noteMisuse fault q
  exact .tables groups order correlated (.inl (labels_noteMisuse fault q))

theorem stores_addItems (items : List SelectItem) (q : Select) : Stores q (addItems items q) none := by
  have labels := labels_addItems items q
  unfold addItems at labels ⊢
  split
  · exact .tables rfl rfl rfl (.inl rfl)
  · split
    · exact stores_noteMisuse _ q
    · exact .tables rfl rfl rfl (.inl (by simpa [*] using labels))

theorem stores_addSource (table : String) (joins : List Join) (q : Select) : Stores q (q.addSource table joins) none :=
  .tables rfl rfl rfl (.inr (labels_addSource table joins q))

theorem apply_stores {c : Call} (applied : q.apply c = .ok next) : Stores q next c.alias? := by
  cases makes_of_apply applied with
  | opened | begun | joined | begunLast | joinedLast => exact stores_addSource _ _ q
  | unjoined => exact stores_noteMisuse _ q
  | unaliased | aliased => exact .aliased (Except.ok.inj applied).symm
  | columns | expression | having => exact stores_addItems _ q
  | called function arguments label =>
    cases stores_addItems [.call function arguments label q.pending] { q with pending := [] } with
    | tables groups order correlated labels => exact .tables groups order correlated labels
    | group g sources groups order known correlated => exact .group g sources groups order known correlated
    | term t sources groups order known correlated => exact .term t sources groups order known correlated
  | named label =>
    refine .tables rfl rfl rfl (.inl ?_)
    apply labels_mapLast
    intro source
    rfl
  | filtered conditions =>
    refine .group (.plain none conditions) rfl rfl rfl ?_ (by simp [Group.plain])
    rintro label ⟨⟩
  | filteredOn conditions found =>
    refine .group (.plain (some _) conditions) rfl rfl rfl ?_ (by simp [Group.plain])
    rintro label ⟨⟩
    exact label_of_resolve found
  | linked checked found =>
    refine .group _ rfl rfl rfl ?_ (by simp)
    rintro label ⟨⟩
    exact label_of_resolve found
  | ordered column direction =>
    refine .term (.column none column direction) rfl rfl rfl ?_ rfl
    rintro label ⟨⟩
  | orderedOn column direction found =>
    refine .term (.column (some _) column direction) rfl rfl rfl ?_ rfl
    rintro label ⟨⟩
    exact label_of_resolve found
  | @orderedRaw _ _ fragment written =>
    refine .term (.raw fragment) rfl rfl rfl ?_ rfl
    rintro label ⟨⟩
  | _ => exact .tables rfl rfl rfl (.inl rfl)

theorem stores_of_other {c : Call} (applied : q.apply c = .ok next) (other : ∀ name, c ≠ .tableAlias name) :
    Stores q next none := by
  have stores := apply_stores applied
  cases c with
  | tableAlias name => exact absurd rfl (other name)
  | _ => exact stores

theorem Stores.labels (stores : Stores q next none) :
    next.labels = q.labels ∨ next.labels = q.labels ++ ["t" ++ natText (q.labels.length + 1)] := by
  cases stores with
  | tables groups order correlated labels => exact labels
  | group g sources | term t sources => exact .inl (by rw [Select.labels, Select.labels, sources])

theorem build_kept (q : Select) : q.build.2.labels = q.labels ∧ Stores q q.build.2 none := by
  rcases build_cases q with same | ⟨filled, flushed⟩
  · rw [same]
    exact ⟨rfl, .tables rfl rfl rfl (.inl rfl)⟩
  · rw [flushed]
    rcases flush_cases filled with same | ⟨function, wrappers, called⟩
    · rw [same]
      exact ⟨rfl, .tables rfl rfl rfl (.inl rfl)⟩
    · have labels : q.flush.labels = q.labels := by
        rw [called]
        apply labels_mapLast
        intro source
        rfl
      refine ⟨labels, .tables ?_ ?_ ?_ (.inl labels)⟩
      all_goals rw [called]

theorem Stores.references (stores : Stores q next none) : ∀ label ∈ next.references, label ∈ q.references ∨
    next.sources = q.sources ∧ label ∈ q.labels := by
  intro label member
  unfold Select.references at member ⊢
  cases stores with
  | tables groups order =>
    rw [groups, order] at member
    exact .inl member
  | group g sources groups order known =>
    rw [groups, order, List.filterMap_append] at member
    rcases List.mem_append.mp member with front | ordered
    · rcases List.mem_append.mp front with before | added
      · exact .inl (List.mem_append_left _ before)
      · obtain ⟨here, alone, refers⟩ := List.mem_filterMap.mp added
        cases List.mem_singleton.mp alone
        exact .inr ⟨sources, known label refers⟩
    · exact .inl (List.mem_append_right _ ordered)
  | term t sources groups order known =>
    rw [groups, order, List.filterMap_append, ← List.append_assoc] at member
    rcases List.mem_append.mp member with before | added
    · exact .inl before
    · obtain ⟨here, alone, refers⟩ := List.mem_filterMap.mp added
      cases List.mem_singleton.mp alone
      exact .inr ⟨sources, known label refers⟩

theorem references_setAlias (name : String) (q : Select) : (q.setAlias name).references = q.references := by
  obtain ⟨groups, order, _⟩ := kept_setAlias name q
  rw [references, references, groups, order]

-- What is added keeps every alias, so that what refers to one still does.
theorem apply_declared {c : Call} (applied : q.apply c = .ok next) (other : ∀ name, c ≠ .tableAlias name)
    (declared : q.Declared) : next.Declared := by
  have stores := stores_of_other applied other
  have kept : ∀ label ∈ q.labels, label ∈ next.labels := by
    intro label member
    rcases stores.labels with same | added
    · rw [same]
      exact member
    · rw [added]
      exact List.mem_append_left _ member
  intro label member
  rcases stores.references label member with before | ⟨sources, known⟩
  · exact kept label (declared label before)
  · rw [labels, sources]
    exact known

-- Another alias of the last table is lost on all that refers to the table, unless a table in front goes by
-- the old alias too.
theorem setAlias_declared_iff {earlier : List Source} {last : Source} (placed : q.sources = earlier ++ [last])
    {name : String} (fresh : name ∉ q.labels) (declared : q.Declared) :
    (q.setAlias name).Declared ↔ (last.label ∈ q.references → last.label ∈ earlier.map (·.label)) := by
  have before := labels_behind placed
  have after : (q.setAlias name).labels = earlier.map (·.label) ++ [name] := by
    rw [setAlias_behind placed]
    simp [labels]
  unfold Declared
  rw [references_setAlias, after]
  constructor
  · intro still refers
    rcases List.mem_append.mp (still last.label refers) with front | here
    · exact front
    · rw [before, List.mem_append, not_or] at fresh
      exact absurd here (by simpa [eq_comm] using fresh.2)
  · intro held label refers
    have known := declared label refers
    rw [before] at known
    rcases List.mem_append.mp known with front | here
    · exact List.mem_append_left _ front
    · cases List.mem_singleton.mp here
      exact List.mem_append_left _ (held refers)

-- Runs in which a table gets an alias only while nothing refers to it.
inductive Prompt (zone : Zone) : Select → Prop where
  | start : Prompt zone (new zone)
  | called {q next : Select} {c : Call} (before : Prompt zone q) (applied : q.apply c = .ok next)
      (other : ∀ name, c ≠ .tableAlias name) : Prompt zone next
  | aliased {q : Select} (before : Prompt zone q) (name : String)
      (unused : ∀ label, q.labels.getLast? = some label → label ∉ q.references) : Prompt zone (q.setAlias name)
  | built {q : Select} (before : Prompt zone q) : Prompt zone q.build.2

theorem Prompt.declared {zone : Zone} (prompt : Prompt zone q) : q.Declared := by
  induction prompt with
  | start =>
    intro label member
    cases member
  | called before applied other ih => exact apply_declared applied other ih
  | @aliased q before name unused ih =>
    intro label member
    rw [references_setAlias] at member
    have known := ih label member
    rcases List.eq_nil_or_concat q.sources with bare | ⟨earlier, last, placed⟩
    · simp [labels, bare] at known
    · rw [List.concat_eq_append] at placed
      rw [labels_behind placed] at known unused
      rw [setAlias_behind placed]
      rcases List.mem_append.mp known with front | here
      · simpa [labels] using .inl (List.mem_map.mp front)
      · exact absurd member (unused label (by simpa [eq_comm] using here))
  | @built q before ih =>
    obtain ⟨same, stores⟩ := build_kept q
    intro label member
    rw [same]
    rcases stores.references label member with before | ⟨_, known⟩
    · exact ih label before
    · exact known

end

end Select

end QueryKit
