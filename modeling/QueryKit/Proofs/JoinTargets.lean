import QueryKit.Proofs.SelectRuns

-- The joins of a query in every state: only the first table has none, and each of them compares a named
-- column with a table that stands in front of its own, by the alias which that table has now.

namespace QueryKit

namespace JoinKeys

theorem checkPairs_facts {pairs checked : List (JoinSide × JoinSide)} (passed : checkPairs pairs = .ok checked) :
    checked = pairs ∧ pairs ≠ [] ∧ ∀ p ∈ pairs, (p.1.isBlank = false ∧ p.2.isBlank = false) ∧
      (p.1.isComparator = false ∨ p.2.isComparator = false) := by
  unfold checkPairs at passed
  split at passed
  · cases passed
  case isFalse filled =>
    split at passed
    · cases passed
    case isFalse named =>
      split at passed
      · cases passed
      case isFalse plain =>
        cases passed
        refine ⟨rfl, by simpa using filled, fun p member => ⟨?_, ?_⟩⟩
        · have here : ¬(p.1.isBlank || p.2.isBlank) = true := fun blank => named (List.any_eq_true.mpr ⟨p, member, blank⟩)
          simpa using here
        · have here : ¬(p.1.isComparator && p.2.isComparator) = true := fun both =>
            plain (List.any_eq_true.mpr ⟨p, member, both⟩)
          exact Bool.and_eq_false_iff.mp (Bool.eq_false_iff.mpr here)

theorem pair_matched {own other : JoinKeys} {pairs : List (JoinSide × JoinSide)} (paired : own.pair other = .ok pairs) :
    match? own other = .ok pairs ∧ checkPairs pairs = .ok pairs := by
  unfold pair at paired
  cases matched : match? own other with
  | error fault =>
    rw [matched] at paired
    cases paired
  | ok pairing =>
    rw [matched] at paired
    cases passed : checkPairs pairing with
    | error fault =>
      simp only [Except.bind, passed] at paired
      cases paired
    | ok checked =>
      simp only [Except.bind, passed] at paired
      cases paired
      obtain ⟨rfl, _⟩ := checkPairs_facts passed
      exact ⟨rfl, passed⟩

theorem pair_facts {own other : JoinKeys} {pairs : List (JoinSide × JoinSide)} (paired : own.pair other = .ok pairs) :
    pairs ≠ [] ∧ ∀ p ∈ pairs, (p.1.isBlank = false ∧ p.2.isBlank = false) ∧
      (p.1.isComparator = false ∨ p.2.isComparator = false) :=
  (checkPairs_facts (pair_matched paired).2).2

theorem pair_columns {own other : List String} {pairs : List (JoinSide × JoinSide)}
    (paired : (ofColumns own).pair (.ofColumns other) = .ok pairs) :
    pairs = (own.zip other).map (Prod.map .column .column) := by
  obtain ⟨matched, _⟩ := pair_matched paired
  unfold match? ofColumns at matched
  simp only at matched
  split at matched
  · cases matched
    exact List.zip_map
  · cases matched

end JoinKeys

namespace JoinSide

theorem column_of_plain {side : JoinSide} (plain : side.isComparator = false) : ∃ name, side = .column name := by
  cases side with
  | column name => exact ⟨name, rfl⟩
  | compare c => cases plain

theorem named_of_filled {side : JoinSide} (filled : side.isBlank = false) {name : String}
    (found : side = .column name) : name ≠ "" := by
  rintro rfl
  rw [found] at filled
  cases filled

end JoinSide

structure Join.Sound (earlier : List Source) (join : Join) : Prop where
  plain : (∃ name, join.own = .column name) ∨ ∃ name, join.other = .column name
  named : ∀ name, join.own = .column name ∨ join.other = .column name → name ≠ ""
  targets : ∃ source ∈ earlier, source.label = join.target

structure Source.Joined (earlier : List Source) (source : Source) : Prop where
  rooted : source.joins = [] ↔ earlier = []
  sound : ∀ join ∈ source.joins, join.Sound earlier

namespace Select

inductive Chained : List Source → Prop where
  | nil : Chained []
  | behind {earlier : List Source} {source : Source} (chained : Chained earlier) (joined : source.Joined earlier) :
      Chained (earlier ++ [source])

theorem mapLast_concat {α : Type} (change : α → α) (as : List α) (a : α) :
    mapLast change (as ++ [a]) = as ++ [change a] := by
  induction as with
  | nil => rfl
  | cons b r ih =>
    cases r with
    | nil => rfl
    | cons c s => exact congrArg (b :: ·) ih

theorem sound_joinsTo {earlier : List Source} {target : Source} {own other : JoinKeys}
    {pairs : List (JoinSide × JoinSide)} (known : target ∈ earlier) (paired : own.pair other = .ok pairs) :
    joinsTo target.label pairs ≠ [] ∧ ∀ join ∈ joinsTo target.label pairs, join.Sound earlier := by
  obtain ⟨filled, each⟩ := JoinKeys.pair_facts paired
  refine ⟨by simpa [joinsTo] using filled, fun join member => ?_⟩
  obtain ⟨p, inside, rfl⟩ := List.mem_map.mp member
  obtain ⟨⟨first, second⟩, plain⟩ := each p inside
  refine ⟨plain.imp JoinSide.column_of_plain JoinSide.column_of_plain, fun name column => ?_, target, known, rfl⟩
  rcases column with own | other
  · exact JoinSide.named_of_filled first own
  · exact JoinSide.named_of_filled second other

theorem grows_chained {sources next : List Source} (grows : Grows sources next) (chained : Chained sources) :
    Chained next := by
  cases grows with
  | same => exact chained
  | changed change kept =>
    cases chained with
    | nil => exact .nil
    | behind before joined =>
      rw [mapLast_concat]
      refine .behind before ⟨?_, ?_⟩
      · rw [kept]
        exact joined.rooted
      · rw [kept]
        exact joined.sound
  | first table label bare =>
    have alone : Source.Joined [] ⟨table, label, [], []⟩ := ⟨by simp, by simp⟩
    show Chained ([] ++ [⟨table, label, [], []⟩])
    exact .behind .nil alone
  | joined table label known paired =>
    obtain ⟨filled, sound⟩ := sound_joinsTo known paired
    exact .behind chained ⟨⟨fun unjoined => absurd unjoined filled, fun unjoined => by rw [unjoined] at known; cases known⟩, sound⟩

theorem reached_chained {zone : Zone} {q : Select} (reached : Reached zone q) : Chained q.sources :=
  reached_sources .nil (fun _ _ => grows_chained) reached

theorem Chained.joined {sources : List Source} (chained : Chained sources) {earlier later : List Source}
    {source : Source} (placed : sources = earlier ++ source :: later) : source.Joined earlier := by
  induction chained generalizing later with
  | nil => cases earlier <;> cases placed
  | @behind before last chained joined ih =>
    rcases List.eq_nil_or_concat later with rfl | ⟨middle, final, rfl⟩
    · obtain ⟨rfl, same⟩ := List.append_inj' placed rfl
      cases same
      exact joined
    · rw [List.concat_eq_append, ← List.cons_append, ← List.append_assoc] at placed
      exact ih (List.append_inj' placed rfl).1

end Select

-- In every state of a query only its first table is without conditions of a join. Each condition has a
-- plain column on one side at least, and none of its columns is blank; it is about an alias that a table
-- in front of its own has at present, whatever aliases were given in the meantime.
theorem joins_target_earlier (zone : Zone) {q : Select} (reached : Select.Reached zone q)
    {earlier later : List Source} {source : Source} (placed : q.sources = earlier ++ source :: later) :
    (source.joins = [] ↔ earlier = []) ∧ ∀ join ∈ source.joins,
      ((∃ name, join.own = .column name) ∨ ∃ name, join.other = .column name) ∧
      (∀ name, join.own = .column name ∨ join.other = .column name → name ≠ "") ∧
      ∃ target ∈ earlier, target.label = join.target := by
  obtain ⟨rooted, sound⟩ := (Select.reached_chained reached).joined placed
  exact ⟨rooted, fun join member => ⟨(sound join member).plain, (sound join member).named, (sound join member).targets⟩⟩

def visitSteps : List Select.Call :=
  [.table "person", .join "pet" (.single (.column "owner")) "person" (.single (.column "id")), .tableAlias "p",
    .joinLast "visit" (.single (.compare (.gte (.text "since")))) (.single (.column "born")), .tableAlias "v"]

def petSources : List Source :=
  [⟨"person", "t" ++ Text.natText 1, [], []⟩, ⟨"pet", "p", [⟨.column "owner", "t" ++ Text.natText 1, .column "id"⟩], []⟩]

def visitSource : Source := ⟨"visit", "v", [⟨.compare (.gte (.text "since")), "p", .column "born"⟩], []⟩

def visitQuery : Select := { Select.new .utc with sources := petSources ++ [visitSource] }

theorem visit_targets_pet : visitQuery.sources = petSources ++ visitSource :: [] ∧
    ∀ join ∈ visitSource.joins, ∃ target ∈ petSources, target.label = join.target := by
  have run : (Select.new .utc).applyAll visitSteps = .ok visitQuery := rfl
  have reached : Select.Reached .utc visitQuery := Select.reached_applyAll visitSteps .start run
  have placed : visitQuery.sources = petSources ++ visitSource :: [] := rfl
  exact ⟨placed, fun join member => ((joins_target_earlier .utc reached placed).2 join member).2.2⟩

end QueryKit
