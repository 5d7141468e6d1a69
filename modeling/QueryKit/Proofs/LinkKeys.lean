import QueryKit.Proofs.KeptJoins

-- The columns that tie a subquery to a table around it, beside the keys of a join. Both are taken in pairs and
-- have to match in number. A join looks at every name; a link looks at the names of a single pair only.

namespace QueryKit

namespace Link

def columns : Link → List String × List String
  | .single inner outer => ([inner], [outer])
  | .parallel inner outer => (inner, outer)

def keys : Link → JoinKeys × JoinKeys
  | .single inner outer => (.single (.column inner), .single (.column outer))
  | .parallel inner outer => (.ofColumns inner, .ofColumns outer)

def sides (link : Link) : List (JoinSide × JoinSide) := link.pairs.map (Prod.map .column .column)

-- Every column of either side is in a pair, at its place.
structure Whole (link : Link) : Prop where
  inner : link.pairs.map Prod.fst = link.columns.1
  outer : link.pairs.map Prod.snd = link.columns.2
  filled : link.pairs ≠ []

-- No column is without a name.
def Named (link : Link) : Prop := ∀ p ∈ link.pairs, p.1 ≠ "" ∧ p.2 ≠ ""

section
variable {inner outer : List String} {own other : String}

theorem whole_single (own other : String) : (single own other).Whole := ⟨rfl, rfl, List.cons_ne_nil _ _⟩

theorem whole_parallel_iff : (parallel inner outer).Whole ↔ inner.length = outer.length ∧ inner ≠ [] := by
  constructor
  · rintro ⟨front, behind, filled⟩
    have each := congrArg List.length front
    have also := congrArg List.length behind
    rw [List.length_map] at each also
    refine ⟨each.symm.trans also, ?_⟩
    rintro rfl
    exact filled rfl
  · rintro ⟨equal, filled⟩
    refine ⟨List.map_fst_zip (Nat.le_of_eq equal), List.map_snd_zip (Nat.le_of_eq equal.symm), ?_⟩
    intro unpaired
    rcases List.zip_eq_nil_iff.mp unpaired with nothing | nothing
    · exact filled nothing
    · rw [nothing] at equal
      exact filled (List.length_eq_zero_iff.mp equal)

theorem named_single_iff : (single own other).Named ↔ own ≠ "" ∧ other ≠ "" := List.forall_mem_singleton

theorem named_iff {link : Link} (whole : link.Whole) : link.Named ↔ "" ∉ link.columns.1 ∧ "" ∉ link.columns.2 := by
  rw [← whole.inner, ← whole.outer]
  constructor
  · intro named
    constructor
    · intro member
      obtain ⟨p, inside, blank⟩ := List.mem_map.mp member
      exact (named p inside).1 blank
    · intro member
      obtain ⟨p, inside, blank⟩ := List.mem_map.mp member
      exact (named p inside).2 blank
  · rintro ⟨first, second⟩ p member
    constructor
    · intro blank
      exact first (List.mem_map.mpr ⟨p, member, blank⟩)
    · intro blank
      exact second (List.mem_map.mpr ⟨p, member, blank⟩)

theorem check_single_iff : (single own other).check = .ok () ↔ (single own other).Named := by
  rw [named_single_iff, check]
  split
  case isTrue blank => simpa using fun first => blank.resolve_left first
  case isFalse named => simpa using named

theorem check_parallel_iff : (parallel inner outer).check = .ok () ↔ (parallel inner outer).Whole := by
  rw [whole_parallel_iff, check]
  split
  case isTrue unequal => simp [unequal]
  case isFalse equal =>
    split
    case isTrue unpaired => simp [unpaired]
    case isFalse filled => simp [not_not.mp equal, filled]

theorem checked_iff {link : Link} :
    checked inner outer = .ok link ↔ link = .parallel inner outer ∧ (parallel inner outer).check = .ok () := by
  unfold checked
  cases passed : (parallel inner outer).check with
  | ok u => simpa [bind, Except.bind, pure, Except.pure] using eq_comm
  | error fault => simp [bind, Except.bind]

theorem whole_of_check {link : Link} (passed : link.check = .ok ()) : link.Whole := by
  cases link with
  | single own other => exact whole_single own other
  | parallel inner outer => exact check_parallel_iff.mp passed

end

section
variable {link : Link} {pairs : List (JoinSide × JoinSide)}

-- The keys of a link supply its pairs, unless one of its lists is longer than the other.
theorem supply_iff : link.keys.1.Supply link.keys.2 pairs ↔
    link.columns.1.length = link.columns.2.length ∧ pairs = link.sides := by
  rw [← JoinKeys.match?_iff]
  cases link with
  | single own other => simpa [keys, JoinKeys.match?, columns, sides, Link.pairs] using eq_comm
  | parallel inner outer =>
    have zipped : (inner.map JoinSide.column).zip (outer.map JoinSide.column) = (parallel inner outer).sides :=
      List.zip_map
    simp only [keys, JoinKeys.ofColumns, JoinKeys.match?, columns, List.length_map, zipped]
    split
    case isTrue equal => simpa [equal] using eq_comm
    case isFalse unequal => simp [unequal]

theorem joinable_iff : JoinKeys.Joinable link.sides ↔ link.pairs ≠ [] ∧ link.Named := by
  have member {p : String × String} (inside : p ∈ link.pairs) : (.column p.1, .column p.2) ∈ link.sides :=
    List.mem_map.mpr ⟨p, inside, rfl⟩
  constructor
  · rintro ⟨filled, named, _⟩
    refine ⟨fun unpaired => filled (List.map_eq_nil_iff.mpr unpaired), fun p inside => ?_⟩
    simpa using named _ (member inside)
  · rintro ⟨filled, named⟩
    refine ⟨fun unpaired => filled (List.map_eq_nil_iff.mp unpaired), fun side inside => ?_, fun side inside => ?_⟩
    all_goals obtain ⟨p, known, rfl⟩ := List.mem_map.mp inside
    · simpa using named p known
    · exact .inl ⟨p.1, rfl⟩

theorem whole_iff : link.Whole ↔ link.columns.1.length = link.columns.2.length ∧ link.pairs ≠ [] := by
  cases link with
  | single own other => simpa [columns, Link.pairs] using whole_single own other
  | parallel inner outer =>
    constructor
    · intro whole
      exact ⟨(whole_parallel_iff.mp whole).1, whole.filled⟩
    · rintro ⟨equal, filled⟩
      refine whole_parallel_iff.mpr ⟨equal, ?_⟩
      rintro rfl
      exact filled rfl

theorem pair_keys_iff : link.keys.1.pair link.keys.2 = .ok pairs ↔ (link.Whole ∧ link.Named) ∧ pairs = link.sides := by
  rw [JoinKeys.pair_iff, supply_iff, whole_iff]
  constructor
  · rintro ⟨⟨equal, rfl⟩, joinable⟩
    obtain ⟨filled, named⟩ := joinable_iff.mp joinable
    exact ⟨⟨⟨equal, filled⟩, named⟩, rfl⟩
  · rintro ⟨⟨⟨equal, filled⟩, named⟩, rfl⟩
    exact ⟨⟨equal, rfl⟩, joinable_iff.mpr ⟨filled, named⟩⟩

theorem named_or_parallel (passed : link.check = .ok ()) :
    link.Named ∨ ∃ inner outer, link = .parallel inner outer ∧ ("" ∈ inner ∨ "" ∈ outer) := by
  cases link with
  | single own other => exact .inl (check_single_iff.mp passed)
  | parallel inner outer =>
    by_cases named : (parallel inner outer).Named
    · exact .inl named
    · rw [named_iff (check_parallel_iff.mp passed), not_and_or, not_not, not_not] at named
      exact .inr ⟨inner, outer, rfl, named⟩

end

end Link

theorem Select.accepted_link {q next : Select} {table tableLink : String} {link : Link} {conditions : Conditions}
    (accepted : q.apply (.filterExists table tableLink link conditions) = .ok next) :
    link.check = .ok () ∧ ∃ label, q.resolve tableLink = .ok label ∧ next = { q with
      groups := q.groups ++ [⟨q.lastSource?.map (·.label), conditions, some ⟨table, label, link⟩⟩]
      correlated := true } := by
  cases makes_of_apply accepted with
  | linked checked found => exact ⟨checked, _, found, rfl⟩

-- Lists of columns are taken as a link exactly when they match in number and there are some; as the keys of a join
-- they need names besides. So the two agree on all lists but those that match with a blank among them. Where a join
-- takes them, a link gives the same pairs in the same order. About single columns the two always agree. A subquery
-- that a query takes compares every column of its link, and one without a name only for lists with a blank.
theorem link_keys_agree_iff (inner outer : List String) (own other : String) :
    ((∃ link, Link.checked inner outer = .ok link) ↔ inner.length = outer.length ∧ inner ≠ []) ∧
    (((∃ link, Link.checked inner outer = .ok link) ↔ ∃ pairs, (JoinKeys.ofColumns inner).pair (.ofColumns outer) = .ok pairs) ↔
      ¬ (inner.length = outer.length ∧ ("" ∈ inner ∨ "" ∈ outer))) ∧
    (∀ pairs, (JoinKeys.ofColumns inner).pair (.ofColumns outer) = .ok pairs →
      Link.checked inner outer = .ok (.parallel inner outer) ∧ pairs = (Link.parallel inner outer).sides) ∧
    (∀ pairs, (JoinKeys.single (.column own)).pair (.single (.column other)) = .ok pairs ↔
      (Link.single own other).check = .ok () ∧ pairs = (Link.single own other).sides) ∧
    ∀ (q next : Select) (table tableLink : String) (link : Link) (conditions : Conditions),
      q.apply (.filterExists table tableLink link conditions) = .ok next →
        (∃ label outerAlias, next.groups = q.groups ++ [⟨label, conditions, some ⟨table, outerAlias, link⟩⟩]) ∧
        link.Whole ∧ (link.Named ∨ ∃ inner outer, link = .parallel inner outer ∧ ("" ∈ inner ∨ "" ∈ outer)) := by
  have taken : (∃ link, Link.checked inner outer = .ok link) ↔ (Link.parallel inner outer).Whole := by
    simp only [Link.checked_iff, Link.check_parallel_iff, exists_eq_left]
  have paired (pairs : List (JoinSide × JoinSide)) : (JoinKeys.ofColumns inner).pair (.ofColumns outer) = .ok pairs ↔
      ((Link.parallel inner outer).Whole ∧ (Link.parallel inner outer).Named) ∧ pairs = (Link.parallel inner outer).sides :=
    @Link.pair_keys_iff (.parallel inner outer) pairs
  refine ⟨taken.trans Link.whole_parallel_iff, ?_, fun pairs found => ?_, fun pairs => ?_, ?_⟩
  · simp only [taken, paired, exists_eq_right]
    constructor
    · rintro agree ⟨equal, blank⟩
      have whole : (Link.parallel inner outer).Whole := by
        refine Link.whole_parallel_iff.mpr ⟨equal, ?_⟩
        rintro rfl
        rw [List.length_nil, eq_comm, List.length_eq_zero_iff] at equal
        simp [equal] at blank
      obtain ⟨first, second⟩ := (Link.named_iff whole).mp (agree.mp whole).2
      exact blank.elim first second
    · intro unblank
      refine ⟨fun whole => ⟨whole, (Link.named_iff whole).mpr ?_⟩, And.left⟩
      have equal := (Link.whole_parallel_iff.mp whole).1
      exact not_or.mp fun blank => unblank ⟨equal, blank⟩
  · obtain ⟨⟨whole, _⟩, rfl⟩ := (paired pairs).mp found
    exact ⟨Link.checked_iff.mpr ⟨rfl, Link.check_parallel_iff.mpr whole⟩, rfl⟩
  · have single := @Link.pair_keys_iff (.single own other) pairs
    rw [and_iff_right (Link.whole_single own other), ← Link.check_single_iff] at single
    exact single
  · intro q next table tableLink link conditions accepted
    obtain ⟨passed, label, _, rfl⟩ := Select.accepted_link accepted
    exact ⟨⟨_, label, rfl⟩, Link.whole_of_check passed, Link.named_or_parallel passed⟩

def ownedPets : Select.Call :=
  .filterExists "pet" "person" (.parallel ["owner_id", "owner_org"] ["id", "org"]) (.node [] [])

def people : Select := { Select.new .utc with sources := [⟨"person", "t1", [], []⟩] }

theorem ownedPets_agree :
    (∃ pairs, (JoinKeys.ofColumns ["owner_id", "owner_org"]).pair (.ofColumns ["id", "org"]) = .ok pairs ∧
      pairs = [(.column "owner_id", .column "id"), (.column "owner_org", .column "org")]) ∧
    ∃ next, people.apply ownedPets = .ok next ∧
      (Link.parallel ["owner_id", "owner_org"] ["id", "org"]).Whole := by
  obtain ⟨taken, agree, same, _, accepted⟩ := link_keys_agree_iff ["owner_id", "owner_org"] ["id", "org"] "owner" "id"
  constructor
  · obtain ⟨pairs, found⟩ := (agree.mpr (by simp)).mp (taken.mpr (by simp))
    exact ⟨pairs, found, (same pairs found).2⟩
  · exact ⟨_, rfl, (accepted people _ "pet" "person" _ (.node [] []) rfl).2.1⟩

-- A list with a blank is taken as a link, and the subquery compares a column without a name. The same lists are
-- refused as keys of a join, and a single blank is refused as a link.
theorem blank_linked : Link.checked [""] ["id"] = .ok (.parallel [""] ["id"]) ∧
    (JoinKeys.ofColumns [""]).pair (.ofColumns ["id"]) = .error (.malformedJoin .blankColumn) ∧
    (Link.single "" "id").check = .error (.malformedJoin .blankLink) ∧
    ∃ next, people.apply (.filterExists "pet" "person" (.parallel [""] ["id"]) (.node [] [])) = .ok next ∧
      next.build.1 = .ok "SELECT * FROM \"person\" \"t1\" WHERE EXISTS (SELECT * FROM \"pet\" WHERE \"\" = \"t1\".\"id\")" := by
  refine ⟨rfl, rfl, rfl, _, rfl, Select.ok_of_toOption ?_⟩
  decide +kernel

end QueryKit
