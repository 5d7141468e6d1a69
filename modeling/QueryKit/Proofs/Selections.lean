import QueryKit.Proofs.BuildOutcomes
import QueryKit.Proofs.CountScope

-- What a query is told to select, by the calls alone: the items of each table in the order in which they came, and the
-- functions that wait. A query that was never misused holds just that.

namespace QueryKit

def SelectItem.labelled (label : String) : SelectItem → SelectItem
  | .column name _ => .column name (some label)
  | .expression sql _ => .expression sql (some label)
  | .call function arguments _ wrappers => .call function arguments (some label) wrappers
  | .having name => .having name

namespace Select

structure Selection where
  lists : List (List SelectItem)
  waiting : List SqlFunction

namespace Selection

def nothing : Selection := ⟨[], []⟩

def amend (s : Selection) (change : List SelectItem → List SelectItem) : Selection :=
  { s with lists := s.lists.dropLast ++ (s.lists.getLast?.map change).toList }

def told (s : Selection) : Call → Selection
  | .table _ | .join .. | .joinLast .. => { s with lists := s.lists ++ [[]] }
  | .columns names => s.amend (· ++ names.map fun name => .column name none)
  | .expression sql => s.amend (· ++ [.expression sql none])
  | .having column => s.amend (· ++ [.having column])
  | .named label => s.amend fun items => items.dropLast ++ (items.getLast?.map (SelectItem.labelled label)).toList
  | .apply function arguments label => { s.amend (· ++ [.call function arguments label s.waiting]) with waiting := [] }
  | .wrap function => { s with waiting := s.waiting ++ [function] }
  | _ => s

-- A statement calls the last function that waits, of all rows and within the others.
def stated (s : Selection) : Selection :=
  match s.waiting.getLast? with
  | some function =>
    if s.lists.isEmpty then s else { s.amend (· ++ [.call function [] none s.waiting.dropLast]) with waiting := [] }
  | none => s

-- A call that is refused selects nothing.
def after (s : Selection) (q : Select) : Turn → Selection
  | .call c => if (q.apply c).isOk then s.told c else s
  | .build => s.stated

def run (s : Selection) (q : Select) : List Turn → Selection
  | [] => s
  | turn :: r => (s.after q turn).run (q.after turn) r

end Selection

-- The items of every table.
def lists (q : Select) : List (List SelectItem) := q.sources.map (·.items)

def selection (q : Select) : Selection := ⟨q.lists, q.pending⟩

theorem mapLast_eq {α : Type} (change : α → α) (as : List α) :
    mapLast change as = as.dropLast ++ (as.getLast?.map change).toList := by
  rcases List.eq_nil_or_concat as with rfl | ⟨front, last, rfl⟩
  · rfl
  · rw [List.concat_eq_append, mapLast_concat]
    simp

theorem amend_eq (s : Selection) (change : List SelectItem → List SelectItem) :
    s.amend change = { s with lists := mapLast change s.lists } := by
  rw [Selection.amend, mapLast_eq]

theorem rename_eq (label : String) : SelectItem.rename label = SelectItem.labelled label := by
  funext item
  cases item <;> rfl

section
variable {q next : Select} {c : Call}

theorem lists_mapLast {change : Source → Source} {other : List SelectItem → List SelectItem}
    (same : ∀ source, (change source).items = other source.items) (q : Select) :
    { q with sources := mapLast change q.sources }.lists = mapLast other q.lists :=
  map_mapLast same q.sources

theorem selection_addSource (table : String) (joins : List Join) (q : Select) :
    (q.addSource table joins).selection = { q.selection with lists := q.selection.lists ++ [[]] } := by
  simp [selection, lists, addSource]

theorem amend_nil (s : Selection) : s.amend (· ++ []) = s := by
  have still : (fun items : List SelectItem => items ++ []) = id := funext List.append_nil
  rw [amend_eq, still, mapLast_id]

theorem pending_noteMisuse (fault : QueryFault) (q : Select) : (q.noteMisuse fault).pending = q.pending := by
  unfold noteMisuse
  split <;> rfl

theorem selection_noteMisuse (fault : QueryFault) (q : Select) : (q.noteMisuse fault).selection = q.selection := by
  rw [selection, selection, lists, lists, sources_noteMisuse, pending_noteMisuse]

theorem selection_addItems (items : List SelectItem) (q : Select) :
    (addItems items q).selection = q.selection.amend (· ++ items) := by
  unfold addItems
  split
  case isTrue bare => rw [List.isEmpty_iff.mp bare, amend_nil]
  case isFalse =>
    split
    case isTrue rootless =>
      have untabled : q.lists = [] := List.map_eq_nil_iff.mpr (List.isEmpty_iff.mp rootless)
      rw [selection_noteMisuse]
      simp [Selection.amend, selection, untabled]
    case isFalse =>
      rw [amend_eq]
      refine congrArg (Selection.mk · q.pending) (lists_mapLast ?_ q)
      intro source
      rfl

theorem told_named (s : Selection) (label : String) :
    s.told (.named label) = { s with lists := mapLast (mapLast (SelectItem.rename label)) s.lists } := by
  have renamed : mapLast (SelectItem.rename label) =
      fun items => items.dropLast ++ (items.getLast?.map (SelectItem.labelled label)).toList := by
    rw [rename_eq]
    exact funext (mapLast_eq _)
  rw [renamed, ← amend_eq]
  rfl

-- A second table without a join is not added, and the next statement reports it.
theorem selection_apply (applied : q.apply c = .ok next) : next.selection = q.selection.told c ∨
    (∃ name, c = .table name) ∧ next.misuse ≠ none ∧ next.selection = q.selection := by
  cases makes_of_apply applied with
  | unjoined name => exact .inr ⟨⟨name, rfl⟩, misuse_noteMisuse _ q, selection_noteMisuse _ q⟩
  | opened | begun | joined | begunLast | joinedLast => exact .inl (selection_addSource _ _ q)
  | unaliased => exact .inl (selection_noteMisuse _ q)
  | aliased label tabled =>
    have same : { q with sources := mapLast (fun s => { s with label := label }) q.sources }.lists = q.lists := by
      refine Eq.trans (lists_mapLast ?_ q) (mapLast_id _)
      intro source
      rfl
    rw [selection, same]
    exact .inl rfl
  | columns | expression | having => exact .inl (selection_addItems _ q)
  | called function arguments label =>
    rw [selection_addItems]
    exact .inl rfl
  | named label =>
    rw [told_named]
    refine .inl (congrArg (Selection.mk · q.pending) (lists_mapLast ?_ q))
    intro source
    rfl
  | _ => exact .inl rfl

theorem selection_told (applied : q.apply c = .ok next) (used : next.misuse = none) :
    next.selection = q.selection.told c := by
  rcases selection_apply applied with told | ⟨_, misused, _⟩
  · exact told
  · exact absurd used misused

theorem stated_done {s : Selection} (done : s.waiting.getLast? = none) : s.stated = s := by
  rw [Selection.stated, done]

theorem stated_bare {s : Selection} (bare : s.lists = []) : s.stated = s := by
  unfold Selection.stated
  split
  · exact if_pos (List.isEmpty_iff.mpr bare)
  · rfl

theorem stated_waiting {s : Selection} {function : SqlFunction} (tabled : s.lists ≠ [])
    (last : s.waiting.getLast? = some function) :
    s.stated = { s.amend (· ++ [.call function [] none s.waiting.dropLast]) with waiting := [] } := by
  rw [Selection.stated, last]
  exact if_neg (List.isEmpty_iff.not.mpr tabled)

theorem selection_flush (filled : q.sources ≠ []) : q.flush.selection = q.selection.stated := by
  have tabled : q.selection.lists ≠ [] := List.map_eq_nil_iff.not.mpr filled
  cases last : q.pending.getLast? with
  | none =>
    rw [stated_done last, flush, last]
  | some function =>
    rw [stated_waiting tabled last, flush, last]
    exact selection_addItems [.call function [] none q.pending.dropLast] { q with pending := [] }

theorem selection_stated (used : q.misuse = none) : q.build.2.selection = q.selection.stated := by
  by_cases filled : q.sources = []
  · have refused : q.check .select = .error (.query (.noTable .select)) := by simp [check, used, filled]
    have bare : q.selection.lists = [] := List.map_eq_nil_iff.mpr filled
    rw [build, refused, stated_bare bare]
  · have allowed : q.check .select = .ok () := by simp [check, used, filled]
    rw [build, allowed]
    exact selection_flush filled

theorem misuse_run {turns : List Turn} (used : (q.run turns).misuse = none) : q.misuse = none := by
  have told := (run_accounts q turns).told
  rw [told?, used, Option.map_none] at told
  exact Option.map_eq_none_iff.mp (Option.or_eq_none_iff.mp told.symm).1

theorem selection_run (q : Select) (turns : List Turn) (used : (q.run turns).misuse = none) :
    (q.run turns).selection = q.selection.run q turns := by
  induction turns generalizing q with
  | nil => rfl
  | cons turn r ih =>
    have stepped : (q.after turn).selection = q.selection.after q turn := by
      have unused : (q.after turn).misuse = none := misuse_run used
      cases turn with
      | build => exact selection_stated (misuse_run used)
      | call c =>
        show _ = if (q.apply c).isOk then q.selection.told c else q.selection
        cases applied : q.apply c with
        | error fault =>
          rw [(after_failed applied).1]
          rfl
        | ok next =>
          rw [(after_made applied).1] at unused ⊢
          exact selection_told applied unused
    rw [Selection.run, ← stepped]
    exact ih (q.after turn) used

end

end Select

end QueryKit
