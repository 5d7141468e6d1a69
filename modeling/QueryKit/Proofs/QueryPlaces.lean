import Mathlib.Order.Bounds.Basic
import QueryKit.Proofs.Tokens
import QueryKit.Sql.Template

-- A query with places for names and values. Its places are those of the runs of question marks in its text, numbered
-- from the left, and each takes the argument of its number: nothing else of the text changes, and what the arguments
-- bring is not looked at.

namespace QueryKit.Template

-- A name for each two question marks of a run, and a value for one that is left over.
def places (marks : Nat) : List Slot := List.replicate (marks / 2) .name ++ List.replicate (marks % 2) .value

-- A text by its runs of question marks: the length of the one in front, and each other character with the length of
-- the one behind it. Where there are no marks, a run is empty.
structure Marked where
  first : Nat
  later : List (Char × Nat)

namespace Marked

def text (m : Marked) : List Char :=
  List.replicate m.first '?' ++ m.later.flatMap fun p => p.1 :: List.replicate p.2 '?'

-- No run goes on in the next one.
def Maximal (m : Marked) : Prop := ∀ p ∈ m.later, p.1 ≠ '?'

def slots (m : Marked) : List Slot := places m.first ++ m.later.flatMap fun p => .char p.1 :: places p.2

def ofText : List Char → Marked
  | [] => ⟨0, []⟩
  | c :: r =>
    let m := ofText r
    if c = '?' then ⟨m.first + 1, m.later⟩ else ⟨0, (c, m.first) :: m.later⟩

theorem text_ofText (cs : List Char) : (ofText cs).text = cs := by
  induction cs with
  | nil => rfl
  | cons c r ih =>
    unfold ofText
    split
    case isTrue mark =>
      rw [mark]
      exact congrArg (List.cons '?') ih
    case isFalse => exact congrArg (List.cons c) ih

theorem maximal_ofText (cs : List Char) : (ofText cs).Maximal := by
  induction cs with
  | nil => exact List.forall_mem_nil _
  | cons c r ih =>
    unfold ofText
    split
    case isTrue => exact ih
    case isFalse other => exact List.forall_mem_cons.mpr ⟨other, ih⟩

end Marked

theorem ofMarks_run (marks : Nat) {r : List Char} (ended : r.head? ≠ some '?') :
    ofMarks (List.replicate marks '?' ++ r) = places marks ++ ofMarks r := by
  induction marks using Nat.twoStepInduction with
  | zero => rfl
  | one =>
    show ofMarks ('?' :: r) = .value :: ofMarks r
    rw [ofMarks]
    · rfl
    · rintro s - rfl
      exact ended rfl
  | more marks ih _ =>
    have two : places (marks + 2) = .name :: places marks := by
      rw [places, Nat.add_div_right _ (by decide), Nat.add_mod_right]
      rfl
    rw [two, List.cons_append, ← ih]
    rfl

theorem ofMarks_other {c : Char} (other : c ≠ '?') (r : List Char) : ofMarks (c :: r) = .char c :: ofMarks r := by
  rw [ofMarks, if_neg other]
  rintro s rfl
  exact absurd rfl other

theorem ofMarks_text {m : Marked} (maximal : m.Maximal) : ofMarks m.text = m.slots := by
  obtain ⟨first, later⟩ := m
  have behind : ∀ later : List (Char × Nat), (∀ p ∈ later, p.1 ≠ '?') →
      (later.flatMap fun p => p.1 :: List.replicate p.2 '?').head? ≠ some '?' := by
    intro later apart
    cases later with
    | nil => simp
    | cons p r => simpa using apart p List.mem_cons_self
  show ofMarks (List.replicate first '?' ++ _) = places first ++ _
  rw [ofMarks_run first (behind later maximal)]
  congr 1
  induction later with
  | nil => rfl
  | cons p r ih =>
    obtain ⟨other, apart⟩ := List.forall_mem_cons.mp maximal
    rw [List.flatMap_cons, List.flatMap_cons, List.cons_append, ofMarks_other other, ofMarks_run _ (behind r apart),
      ih apart, List.cons_append]

-- Each place with the number of places in front of it; a character has the number of the place that comes next.
def numbered (i : Nat) : List Slot → List (Slot × Nat)
  | [] => []
  | .char c :: r => (.char c, i) :: numbered i r
  | place :: r => (place, i) :: numbered (i + 1) r

def shown (zone : Zone) (arguments : List Value) : Slot × Nat → String
  | (.char c, _) => String.singleton c
  | (.name, i) => arguments[i]?.elim "" fun v => Sql.identifier v.nameText
  | (.value, i) => Sql.literal zone (arguments[i]?.getD .null)

def answered (zone : Zone) (arguments : List Value) (slots : List Slot) : String :=
  String.join ((numbered 0 slots).map (shown zone arguments))

def unnamed (arguments : List Value) (i : Nat) (slots : List Slot) : Set Nat :=
  {position | ∃ j, position = j + 1 ∧ (.name, j) ∈ numbered i slots ∧ arguments[j]? = none}

-- The calendar holds every timestamp that goes into a value.
def Writable (zone : Zone) (arguments : List Value) (i : Nat) (slots : List Slot) : Prop :=
  ∀ j v, (.value, j) ∈ numbered i slots → arguments[j]? = some v → Sql.datesFit zone v = true

-- What a query and its arguments ask for: the first name that has no argument is told, and with none the text has
-- all of its places filled.
def Answers (zone : Zone) (query : String) (arguments : List Value) (result : Except Fault String) : Prop :=
  let slots := (Marked.ofText query.toList).slots
  (∀ position, IsLeast (unnamed arguments 0 slots) position →
    result = .error (.query (.missingIdentifier position query))) ∧
  (unnamed arguments 0 slots = ∅ → result = .ok (answered zone arguments slots))

theorem le_of_mem_numbered {i j : Nat} {slot : Slot} {slots : List Slot} (member : (slot, j) ∈ numbered i slots) :
    i ≤ j := by
  induction slots generalizing i with
  | nil => cases member
  | cons first r ih =>
    cases first with
    | char c =>
      rcases List.mem_cons.mp member with same | later
      · cases same
        exact Nat.le_refl _
      · exact ih later
    | name | value =>
      rcases List.mem_cons.mp member with same | later
      · cases same
        exact Nat.le_refl _
      · exact Nat.le_of_succ_le (ih later)

section
variable (zone : Zone) (arguments : List Value)

theorem text_fill_numbered (i : Nat) (slots : List Slot) :
    Sql.text zone (fill [] [.literal .null] (arguments.drop i) slots) =
      String.join ((numbered i slots).map (shown zone arguments)) := by
  induction slots generalizing i with
  | nil =>
    rw [fill]
    rfl
  | cons slot r ih =>
    cases slot with
    | char c =>
      rw [fill, Sql.text_cons, ih, numbered, List.map_cons, String.join_cons]
      rfl
    | name =>
      rw [fill_name, Sql.text_append, ih]
      cases given : arguments[i]? <;> simp [numbered, shown, given, Sql.text, Piece.text, Sql.path]
    | value =>
      rw [fill_value, Sql.text_append, ih]
      cases given : arguments[i]? <;> simp [numbered, shown, given, Sql.text, Piece.text]

theorem fits_fill_numbered_iff (i : Nat) (slots : List Slot) :
    List.all (fill [] [.literal .null] (arguments.drop i) slots) (Piece.datesFit zone) = true ↔
      Writable zone arguments i slots := by
  induction slots generalizing i with
  | nil => simp [fill, Writable, numbered]
  | cons slot r ih =>
    cases slot with
    | char c =>
      rw [fill, List.all_cons, Bool.and_eq_true, ih]
      simp [Writable, numbered, Piece.datesFit]
    | name =>
      rw [fill_name, List.all_append, Bool.and_eq_true, ih]
      cases arguments[i]? <;> simp [Writable, numbered, Piece.datesFit]
    | value =>
      have first : List.all (arguments[i]?.elim [.literal .null] fun v => [.literal v]) (Piece.datesFit zone) = true ↔
          ∀ v, arguments[i]? = some v → Sql.datesFit zone v = true := by
        cases arguments[i]? <;> simp [Piece.datesFit, Sql.datesFit]
      rw [fill_value, List.all_append, Bool.and_eq_true, ih, first]
      constructor
      · rintro ⟨here, later⟩ j v member given
        rcases List.mem_cons.mp member with same | behind
        · cases same
          exact here v given
        · exact later j v behind given
      · intro all
        exact ⟨fun v => all i v List.mem_cons_self, fun j v behind => all j v (List.mem_cons_of_mem _ behind)⟩

end

-- The numbers go up, so that the first name without an argument is the least.
theorem unfilledName?_least (arguments : List Value) (i : Nat) (slots : List Slot) :
    match unfilledName? arguments.length i slots with
    | some position => IsLeast (unnamed arguments i slots) position
    | none => unnamed arguments i slots = ∅ := by
  induction slots generalizing i with
  | nil => simp [unfilledName?, unnamed, numbered]
  | cons slot r ih =>
    cases slot with
    | char c =>
      have same : unnamed arguments i (.char c :: r) = unnamed arguments i r := by simp [unnamed, numbered]
      rw [unfilledName?, same]
      exact ih i
    | value =>
      have same : unnamed arguments i (.value :: r) = unnamed arguments (i + 1) r := by simp [unnamed, numbered]
      rw [unfilledName?, same]
      exact ih (i + 1)
    | name =>
      rw [unfilledName?]
      by_cases given : i < arguments.length
      · have same : unnamed arguments i (.name :: r) = unnamed arguments (i + 1) r := by
          ext position
          constructor
          · rintro ⟨j, rfl, member, missing⟩
            rcases List.mem_cons.mp member with here | behind
            · cases here
              exact absurd given (Nat.not_lt.mpr (List.getElem?_eq_none_iff.mp missing))
            · exact ⟨j, rfl, behind, missing⟩
          · rintro ⟨j, rfl, behind, missing⟩
            exact ⟨j, rfl, List.mem_cons_of_mem _ behind, missing⟩
        rw [if_pos given, same]
        exact ih (i + 1)
      · rw [if_neg given]
        have missing : arguments[i]? = none := List.getElem?_eq_none (Nat.le_of_not_lt given)
        refine ⟨⟨i, rfl, List.mem_cons_self, missing⟩, ?_⟩
        rintro position ⟨j, rfl, member, -⟩
        exact Nat.succ_le_succ (le_of_mem_numbered member)

section
variable {zone : Zone} {text : String} {arguments : List Value} {slots : List Slot}

theorem queryText_writable (read : ofMarks text.toList = slots) (fits : Writable zone arguments 0 slots) :
    queryText zone text arguments =
      match unfilledName? arguments.length 0 slots with
      | some position => .error (.query (.missingIdentifier position text))
      | none => .ok (answered zone arguments slots) := by
  have written := (fits_fill_numbered_iff zone arguments 0 slots).mpr fits
  have spelled := text_fill_numbered zone arguments 0 slots
  rw [List.drop_zero] at written spelled
  rw [queryText, query, read, if_pos written]
  cases unfilledName? arguments.length 0 slots with
  | some position => rfl
  | none => exact congrArg Except.ok spelled

theorem queryText_unwritable (read : ofMarks text.toList = slots) (outside : ¬ Writable zone arguments 0 slots) :
    queryText zone text arguments = .error .dateOutOfRange := by
  have unwritten := (not_congr (fits_fill_numbered_iff zone arguments 0 slots)).mpr outside
  rw [List.drop_zero] at unwritten
  rw [queryText, query, read, if_neg unwritten]
  rfl

end

-- A query is answered as its runs of question marks ask when the calendar holds every timestamp that its values
-- bring, as the zone writes it, and only then; otherwise it has no answer, whatever else it asks for.
theorem query_answered_iff (zone : Zone) (text : String) (arguments : List Value) :
    (Marked.ofText text.toList).text = text.toList ∧ (Marked.ofText text.toList).Maximal ∧
    (Answers zone text arguments (queryText zone text arguments) ↔
      Writable zone arguments 0 (Marked.ofText text.toList).slots) ∧
    (¬ Writable zone arguments 0 (Marked.ofText text.toList).slots →
      queryText zone text arguments = .error .dateOutOfRange) := by
  have spelled := Marked.text_ofText text.toList
  have maximal := Marked.maximal_ofText text.toList
  have read : ofMarks text.toList = (Marked.ofText text.toList).slots := by
    rw [← ofMarks_text maximal, spelled]
  have least := unfilledName?_least arguments 0 (Marked.ofText text.toList).slots
  refine ⟨spelled, maximal, ⟨fun answers => ?_, fun fits => ?_⟩, queryText_unwritable read⟩
  · by_contra outside
    rw [queryText_unwritable read outside] at answers
    cases found : unfilledName? arguments.length 0 (Marked.ofText text.toList).slots with
    | some position =>
      rw [found] at least
      cases answers.1 position least
    | none =>
      rw [found] at least
      cases answers.2 least
  · rw [queryText_writable read fits]
    cases found : unfilledName? arguments.length 0 (Marked.ofText text.toList).slots with
    | some position =>
      rw [found] at least
      refine ⟨fun other first => ?_, fun unasked => ?_⟩
      · rw [least.unique first]
      · exact absurd least.1 (unasked ▸ Set.notMem_empty position)
    | none =>
      rw [found] at least
      refine ⟨fun other first => ?_, fun _ => rfl⟩
      exact absurd first.1 (least ▸ Set.notMem_empty other)

-- An odd run, a value without an argument, and marks that an argument brings.
example : queryText .utc "??? = ?" [.text "a?", .text "??"] = .ok "\"a?\"'??' = NULL" := by
  rfl

-- The last second of the calendar cannot be written two hours east of UTC, so that nobody is told of the name that
-- is missing behind it.
def eastZone : Zone := { Zone.utc with setting := .offset 120 }

theorem lastSecond_unanswered :
    IsLeast (unnamed [.instant ⟨Calendar.Instant.latest, 0⟩] 0 (Marked.ofText "? ??".toList).slots) 2 ∧
    queryText eastZone "? ??" [.instant ⟨Calendar.Instant.latest, 0⟩] = .error .dateOutOfRange ∧
    ¬ Answers eastZone "? ??" [.instant ⟨Calendar.Instant.latest, 0⟩]
      (queryText eastZone "? ??" [.instant ⟨Calendar.Instant.latest, 0⟩]) := by
  have least : IsLeast (unnamed [.instant ⟨Calendar.Instant.latest, 0⟩] 0 (Marked.ofText "? ??".toList).slots) 2 :=
    unfilledName?_least [.instant ⟨Calendar.Instant.latest, 0⟩] 0 [.value, .char ' ', .name]
  have unanswered : queryText eastZone "? ??" [.instant ⟨Calendar.Instant.latest, 0⟩] = .error .dateOutOfRange :=
    rfl
  refine ⟨least, unanswered, fun answers => ?_⟩
  rw [unanswered] at answers
  cases answers.1 2 least

end QueryKit.Template
