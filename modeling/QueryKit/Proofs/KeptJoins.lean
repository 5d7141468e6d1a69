import QueryKit.Proofs.JoinTargets

-- What becomes of a join. A query without tables takes the table as its first one, whatever it is to be joined on.
-- Every later table is refused, or stands in the query with one condition for each pair of its keys.

namespace QueryKit
open Text

namespace JoinSide

theorem isBlank_eq_false_iff (side : JoinSide) : side.isBlank = false ↔ side ≠ .column "" := by
  cases side <;> simp [isBlank]

theorem isComparator_eq_false_iff (side : JoinSide) : side.isComparator = false ↔ ∃ name, side = .column name := by
  cases side <;> simp [isComparator]

end JoinSide

namespace JoinKeys

-- The pairs that two keys supply: one column and one, or lists of the same length taken in order.
inductive Supply : JoinKeys → JoinKeys → List (JoinSide × JoinSide) → Prop where
  | single (own other : JoinSide) : Supply (.single own) (.single other) [(own, other)]
  | many (pairs : List (JoinSide × JoinSide)) : Supply (.many (pairs.map Prod.fst)) (.many (pairs.map Prod.snd)) pairs

structure Joinable (pairs : List (JoinSide × JoinSide)) : Prop where
  filled : pairs ≠ []
  named : ∀ p ∈ pairs, p.1 ≠ .column "" ∧ p.2 ≠ .column ""
  plain : ∀ p ∈ pairs, (∃ name, p.1 = .column name) ∨ ∃ name, p.2 = .column name

section
variable {own other : JoinKeys} {pairs : List (JoinSide × JoinSide)}

theorem match?_iff : match? own other = .ok pairs ↔ own.Supply other pairs := by
  constructor
  · intro matched
    unfold match? at matched
    split at matched
    · cases matched
      exact .single _ _
    · rename_i as bs
      split at matched
      case isTrue equal =>
        cases matched
        have supplied := Supply.many (as.zip bs)
        rwa [List.map_fst_zip (Nat.le_of_eq equal), List.map_snd_zip (Nat.le_of_eq equal.symm)] at supplied
      case isFalse => cases matched
    · cases matched
  · rintro (⟨own, other⟩ | ⟨pairs⟩)
    · rfl
    · rw [match?, if_pos (by rw [List.length_map, List.length_map]), ← List.zip_of_prod rfl rfl]

theorem checkPairs_iff : checkPairs pairs = .ok pairs ↔ Joinable pairs := by
  constructor
  · intro passed
    obtain ⟨-, filled, each⟩ := checkPairs_facts passed
    refine ⟨filled, fun p member => ?_, fun p member => ?_⟩
    · exact (each p member).1.imp (JoinSide.isBlank_eq_false_iff _).mp (JoinSide.isBlank_eq_false_iff _).mp
    · exact (each p member).2.imp (JoinSide.isComparator_eq_false_iff _).mp (JoinSide.isComparator_eq_false_iff _).mp
  · intro joinable
    unfold checkPairs
    split
    case isTrue unpaired => exact absurd (List.isEmpty_iff.mp unpaired) joinable.filled
    case isFalse =>
      split
      case isTrue blank =>
        obtain ⟨p, member, nameless⟩ := List.any_eq_true.mp blank
        obtain ⟨first, second⟩ := joinable.named p member
        rcases Bool.or_eq_true_iff.mp nameless with left | right
        · cases left.symm.trans ((JoinSide.isBlank_eq_false_iff _).mpr first)
        · cases right.symm.trans ((JoinSide.isBlank_eq_false_iff _).mpr second)
      case isFalse =>
        split
        case isTrue both =>
          obtain ⟨p, member, compared⟩ := List.any_eq_true.mp both
          obtain ⟨first, second⟩ := Bool.and_eq_true_iff.mp compared
          rcases joinable.plain p member with column | column
          · cases first.symm.trans ((JoinSide.isComparator_eq_false_iff _).mpr column)
          · cases second.symm.trans ((JoinSide.isComparator_eq_false_iff _).mpr column)
        case isFalse => rfl

theorem pair_iff : own.pair other = .ok pairs ↔ own.Supply other pairs ∧ Joinable pairs := by
  constructor
  · intro paired
    obtain ⟨matched, checked⟩ := pair_matched paired
    exact ⟨match?_iff.mp matched, checkPairs_iff.mp checked⟩
  · rintro ⟨supplied, joinable⟩
    simp only [pair, match?_iff.mpr supplied, Except.bind, checkPairs_iff.mpr joinable]
    rfl

theorem pair_fault {fault : Fault} (failed : own.pair other = .error fault) : ∃ cause, fault = .malformedJoin cause := by
  unfold pair at failed
  cases outcome : (match? own other).bind checkPairs with
  | error cause =>
    rw [outcome] at failed
    cases failed
    exact ⟨cause, rfl⟩
  | ok pairs =>
    rw [outcome] at failed
    cases failed

end

end JoinKeys

namespace Select

def Registers (q : Select) (name : String) : Prop := ∃ source ∈ q.sources, source.table = name ∨ source.label = name

-- The query with one more table, which has one condition for each of the pairs, in their order.
def joinedOn (q : Select) (table label : String) (pairs : List (JoinSide × JoinSide)) : Select :=
  { q with sources := q.sources ++
      [⟨table, "t" ++ natText (q.sources.length + 1), pairs.map fun p => ⟨p.1, label, p.2⟩, []⟩] }

-- What becomes of a join to the table with an alias: it is there on all the pairs of its keys, or there are none
-- that it could be made on.
def Joins (q : Select) (table label : String) (own other : JoinKeys) : Except Fault Select → Prop
  | .ok next => ∃ pairs, own.Supply other pairs ∧ JoinKeys.Joinable pairs ∧ next = q.joinedOn table label pairs
  | .error fault => (∃ cause, fault = .malformedJoin cause) ∧ ∀ pairs, own.Supply other pairs → ¬ JoinKeys.Joinable pairs

section
variable {q : Select} {target : String}

theorem joins_paired (q : Select) (table label : String) (own other : JoinKeys) :
    q.Joins table label own other ((own.pair other).map fun pairs => q.addSource table (joinsTo label pairs)) := by
  cases paired : own.pair other with
  | ok pairs =>
    obtain ⟨supplied, joinable⟩ := JoinKeys.pair_iff.mp paired
    exact ⟨pairs, supplied, joinable, rfl⟩
  | error fault =>
    refine ⟨JoinKeys.pair_fault paired, fun pairs supplied joinable => ?_⟩
    cases paired.symm.trans (JoinKeys.pair_iff.mpr ⟨supplied, joinable⟩)

theorem registers_iff : q.Registers target ↔ ∃ label, q.resolve target = .ok label := by
  constructor
  · rintro ⟨source, member, called⟩
    unfold resolve
    cases found : aliasOf? target q.sources with
    | some label => exact ⟨label, rfl⟩
    | none =>
      simp only [aliasOf?, Option.map_eq_none_iff, Option.or_eq_none_iff, List.find?_eq_none] at found
      rcases called with named | aliased
      · exact absurd (beq_iff_eq.mpr named) (found.1 source member)
      · exact absurd (beq_iff_eq.mpr aliased) (found.2 source member)
  · rintro ⟨label, found⟩
    obtain ⟨source, member, _, called⟩ := resolve_known found
    exact ⟨source, member, called⟩

theorem resolve_unknown (unknown : ¬ q.Registers target) : q.resolve target = .error (.unknownTable target) := by
  cases found : aliasOf? target q.sources with
  | none => rw [resolve, found]
  | some label => exact absurd (registers_iff.mpr ⟨label, by rw [resolve, found]⟩) unknown

end

-- A join to a query with tables is refused for a table that there is not, else for keys that cannot be paired, or
-- else is made on every pair, with all that was there before left as it is. A query without tables only starts with
-- the table, as its first one never has conditions: neither the keys nor the other table are looked at.
theorem joins_kept (q : Select) (table target : String) (own other : JoinKeys) :
    (q.Registers target → ∃ source ∈ q.sources, (source.table = target ∨ source.label = target) ∧
      q.Joins table source.label own other (q.apply (.join table own target other))) ∧
    (q.sources ≠ [] → ¬ q.Registers target → q.apply (.join table own target other) = .error (.unknownTable target)) ∧
    (∀ last, q.sources.getLast? = some last →
      q.Joins table last.label own other (q.apply (.joinLast table own other))) ∧
    (q.sources = [] → q.apply (.join table own target other) = .ok (q.joinedOn table "" []) ∧
      q.apply (.joinLast table own other) = .ok (q.joinedOn table "" [])) := by
  refine ⟨fun known => ?_, fun filled unknown => ?_, fun last there => ?_, fun bare => ?_⟩
  · obtain ⟨label, found⟩ := registers_iff.mp known
    obtain ⟨source, member, rfl, called⟩ := resolve_known found
    refine ⟨source, member, called, ?_⟩
    have started : ¬ q.sources.isEmpty = true := fun bare => List.ne_nil_of_mem member (List.isEmpty_iff.mp bare)
    have joined := joins_paired q table source.label own other
    rw [apply, addJoin, if_neg started, found]
    exact joined
  · have started : ¬ q.sources.isEmpty = true := fun bare => filled (List.isEmpty_iff.mp bare)
    rw [apply, addJoin, if_neg started, resolve_unknown unknown]
    rfl
  · have joined := joins_paired q table last.label own other
    rw [apply, addJoinLast, lastSource?, there]
    exact joined
  · constructor
    · rw [apply, addJoin, if_pos (List.isEmpty_iff.mpr bare)]
      rfl
    · rw [apply, addJoinLast, lastSource?, bare]
      rfl

def aliasedPerson : Select := { new .utc with sources := [⟨"person", "p", [], []⟩] }

theorem petJoin_kept : ∃ source ∈ aliasedPerson.sources, (source.table = "p" ∨ source.label = "p") ∧
    aliasedPerson.Joins "pet" source.label (.single (.column "owner")) (.single (.column "id"))
      (aliasedPerson.apply (.join "pet" (.single (.column "owner")) "p" (.single (.column "id")))) := by
  have known : aliasedPerson.Registers "p" := ⟨_, List.mem_singleton_self _, .inr rfl⟩
  exact (joins_kept aliasedPerson "pet" "p" _ _).1 known

-- So the pair that a join supplies is left out when there is no table before it.
theorem petJoin_dropped : Reached .utc (new .utc) ∧ ¬ (new .utc).Registers "person" ∧
    JoinKeys.Supply (.single (.column "owner")) (.single (.column "id")) [(.column "owner", .column "id")] ∧
    ∃ next, (new .utc).apply (.join "pet" (.single (.column "owner")) "person" (.single (.column "id"))) = .ok next ∧
      next.sources.map (·.joins.length) = [0] := by
  refine ⟨.start, ?_, .single _ _, _, rfl, rfl⟩
  rintro ⟨source, member, _⟩
  exact absurd member List.not_mem_nil

end Select

end QueryKit
