import QueryKit.Proofs.JoinTargets

-- The parts of a query. Whatever is asked of the selected items, the joined columns, the filters and the order
-- holds in every state of a query when it holds of all that the calls bring.

namespace QueryKit

namespace JoinKeys

def sides : JoinKeys → List JoinSide
  | .single side => [side]
  | .many sides => sides

theorem sides_of_pair {own other : JoinKeys} {pairs : List (JoinSide × JoinSide)} (paired : own.pair other = .ok pairs) :
    ∀ p ∈ pairs, p.1 ∈ own.sides ∧ p.2 ∈ other.sides := by
  obtain ⟨matched, _⟩ := pair_matched paired
  cases own with
  | single a =>
    cases other with
    | single b =>
      cases matched
      simp [sides]
    | many bs => cases matched
  | many as =>
    cases other with
    | single b => cases matched
    | many bs =>
      simp only [match?] at matched
      split at matched
      · cases matched
        exact fun p member => List.of_mem_zip member
      · cases matched

end JoinKeys

namespace Select

structure Parts where
  item : SelectItem → Prop
  side : JoinSide → Prop
  filter : Conditions → Prop
  term : OrderTerm → Prop

structure MadeOf (parts : Parts) (zone : Zone) (q : Select) : Prop where
  zone : q.zone = zone
  items : ∀ source ∈ q.sources, ∀ item ∈ source.items, parts.item item
  joins : ∀ source ∈ q.sources, ∀ join ∈ source.joins, parts.side join.own ∧ parts.side join.other
  groups : ∀ g ∈ q.groups, parts.filter g.conditions
  order : ∀ term ∈ q.order, parts.term term

def Call.MadeOf (parts : Parts) (zone : Zone) : Call → Prop
  | .join _ own _ other | .joinLast _ own other => (∀ side ∈ own.sides, parts.side side) ∧ ∀ side ∈ other.sides, parts.side side
  | .columns names => ∀ name ∈ names, parts.item (.column name none)
  | .expression sql => parts.item (.expression sql none)
  | .having column => parts.item (.having column)
  | .apply function arguments label => ∀ wrappers, parts.item (.call function arguments label wrappers)
  | .filter _ conditions | .filterExists _ _ _ conditions => parts.filter conditions
  | .order column direction => parts.term (.column none column direction)
  | .orderOn _ column direction => ∀ label, parts.term (.column (some label) column direction)
  | .orderRaw sql arguments => ∀ fragment, Template.query zone sql arguments = .ok fragment → parts.term (.raw fragment)
  | .table _ | .tableAlias _ | .named _ | .wrap _ | .distinctOn _ | .format _ | .transform .. | .groupBy _ | .limit _
  | .offset _ | .paginate .. => True

section
variable {parts : Parts} {zone : Zone} {q next : Select}

theorem MadeOf.noteMisuse (made : q.MadeOf parts zone) (fault : QueryFault) : (q.noteMisuse fault).MadeOf parts zone := by
  unfold Select.noteMisuse
  split
  · exact ⟨made.zone, made.items, made.joins, made.groups, made.order⟩
  · exact made

theorem MadeOf.addSource (made : q.MadeOf parts zone) (table : String) {joins : List Join}
    (known : ∀ join ∈ joins, parts.side join.own ∧ parts.side join.other) : (q.addSource table joins).MadeOf parts zone := by
  refine ⟨made.zone, ?_, ?_, made.groups, made.order⟩
  · exact List.forall_mem_append.mpr ⟨made.items, List.forall_mem_singleton.mpr (by simp)⟩
  · exact List.forall_mem_append.mpr ⟨made.joins, List.forall_mem_singleton.mpr known⟩

theorem MadeOf.mapLast (made : q.MadeOf parts zone) {change : Source → Source}
    (joins : ∀ source, (change source).joins = source.joins)
    (items : ∀ source, (∀ item ∈ source.items, parts.item item) → ∀ item ∈ (change source).items, parts.item item) :
    MadeOf parts zone { q with sources := Select.mapLast change q.sources } := by
  refine ⟨made.zone, forall_mem_mapLast items q.sources made.items, ?_, made.groups, made.order⟩
  apply forall_mem_mapLast _ q.sources made.joins
  intro source known
  rw [joins]
  exact known

theorem MadeOf.addItems (made : q.MadeOf parts zone) {items : List SelectItem} (known : ∀ item ∈ items, parts.item item) :
    (addItems items q).MadeOf parts zone := by
  unfold Select.addItems
  split
  · exact made
  · split
    · exact made.noteMisuse _
    · apply made.mapLast
      · intro source
        rfl
      · intro source own
        exact List.forall_mem_append.mpr ⟨own, known⟩

theorem MadeOf.addGroup (made : q.MadeOf parts zone) {g : Group} (known : parts.filter g.conditions) :
    MadeOf parts zone { q with groups := q.groups ++ [g] } := by
  refine ⟨made.zone, made.items, made.joins, ?_, made.order⟩
  exact List.forall_mem_append.mpr ⟨made.groups, List.forall_mem_singleton.mpr known⟩

theorem MadeOf.addOrder (made : q.MadeOf parts zone) {term : OrderTerm} (known : parts.term term) :
    (q.addOrder term).MadeOf parts zone := by
  refine ⟨made.zone, made.items, made.joins, made.groups, ?_⟩
  exact List.forall_mem_append.mpr ⟨made.order, List.forall_mem_singleton.mpr known⟩

theorem apply_madeOf (renamed : ∀ label item, parts.item item → parts.item (item.rename label)) {c : Call}
    (brings : c.MadeOf parts zone) (applied : q.apply c = .ok next) (made : q.MadeOf parts zone) :
    next.MadeOf parts zone := by
  have joined {own other : JoinKeys} {pairs : List (JoinSide × JoinSide)} (label : String)
      (known : (∀ side ∈ own.sides, parts.side side) ∧ ∀ side ∈ other.sides, parts.side side)
      (paired : own.pair other = .ok pairs) : ∀ join ∈ joinsTo label pairs, parts.side join.own ∧ parts.side join.other := by
    intro join member
    obtain ⟨p, inside, rfl⟩ := List.mem_map.mp member
    obtain ⟨left, right⟩ := JoinKeys.sides_of_pair paired p inside
    exact ⟨known.1 _ left, known.2 _ right⟩
  cases makes_of_apply applied with
  | opened | begun | begunLast => exact made.addSource _ (by simp)
  | joined tabled found paired => exact made.addSource _ (joined _ brings paired)
  | joinedLast there paired => exact made.addSource _ (joined _ brings paired)
  | unjoined | unaliased => exact made.noteMisuse _
  | aliased => exact made.mapLast (fun _ => rfl) fun _ own => own
  | columns names => exact made.addItems (List.forall_mem_map.mpr brings)
  | expression | having => exact made.addItems (List.forall_mem_singleton.mpr brings)
  | named label =>
    apply made.mapLast
    · intro source
      rfl
    · intro source own
      exact forall_mem_mapLast (fun item known => renamed label item known) source.items own
  | called function arguments label =>
    have taken : MadeOf parts zone { q with pending := [] } :=
      ⟨made.zone, made.items, made.joins, made.groups, made.order⟩
    exact taken.addItems (List.forall_mem_singleton.mpr (brings q.pending))
  | filtered | filteredOn => exact made.addGroup brings
  | @linked table tableLink label link conditions =>
    have added := made.addGroup (g := ⟨q.lastSource?.map (·.label), conditions, some ⟨table, label, link⟩⟩) brings
    exact ⟨added.zone, added.items, added.joins, added.groups, added.order⟩
  | ordered => exact made.addOrder brings
  | orderedOn => exact made.addOrder (brings _)
  | orderedRaw written =>
    rw [made.zone] at written
    exact made.addOrder (brings _ written)
  | _ => exact ⟨made.zone, made.items, made.joins, made.groups, made.order⟩

theorem applyAll_madeOf (renamed : ∀ label item, parts.item item → parts.item (item.rename label)) {calls : List Call}
    (brings : ∀ c ∈ calls, c.MadeOf parts zone) (applied : q.applyAll calls = .ok next) (made : q.MadeOf parts zone) :
    next.MadeOf parts zone := by
  induction calls generalizing q with
  | nil =>
    cases applied
    exact made
  | cons c r ih =>
    obtain ⟨first, rest⟩ := List.forall_mem_cons.mp brings
    obtain ⟨next, here, later⟩ := ok_of_bind applied
    exact ih rest later (apply_madeOf renamed first here made)

theorem new_madeOf (parts : Parts) (zone : Zone) : (new zone).MadeOf parts zone := by
  refine ⟨rfl, ?_, ?_, ?_, ?_⟩ <;> simp [new]

theorem MadeOf.flush (made : q.MadeOf parts zone) (filled : q.sources ≠ [])
    (called : ∀ function wrappers, parts.item (.call function [] none wrappers)) : q.flush.MadeOf parts zone := by
  rcases flush_cases filled with same | ⟨function, wrappers, flushed⟩
  · rwa [same]
  · rw [flushed]
    let change (s : Source) : Source := { s with items := s.items ++ [.call function [] none wrappers] }
    have added : MadeOf parts zone { q with sources := Select.mapLast change q.sources } := made.mapLast (fun _ => rfl)
      fun _ own => List.forall_mem_append.mpr ⟨own, List.forall_mem_singleton.mpr (called function wrappers)⟩
    exact ⟨added.zone, added.items, added.joins, added.groups, added.order⟩

end

end Select

end QueryKit
