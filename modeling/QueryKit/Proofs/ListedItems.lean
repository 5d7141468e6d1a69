import QueryKit.Proofs.Selections

-- What is selected, table by table. A call puts its items behind all those of the last table, and from then on they
-- keep their place; only the last of all may still get a name. Functions wait until an item takes all of them.

namespace QueryKit

namespace SelectItem

-- The functions of an item, outermost first.
def functions : SelectItem → List SqlFunction
  | .call function _ _ wrappers => wrappers ++ [function]
  | _ => []

def unnamed : SelectItem → SelectItem
  | .column name _ => .column name none
  | .expression sql _ => .expression sql none
  | .call function arguments _ wrappers => .call function arguments none wrappers
  | .having name => .having name

theorem functions_rename (label : String) (item : SelectItem) : (item.rename label).functions = item.functions := by
  cases item <;> rfl

theorem unnamed_rename (label : String) (item : SelectItem) : (item.rename label).unnamed = item.unnamed := by
  cases item <;> rfl

end SelectItem

namespace Select

def Call.selected (waiting : List SqlFunction) : Call → List SelectItem
  | .columns names => names.map fun name => .column name none
  | .expression sql => [.expression sql none]
  | .having column => [.having column]
  | .apply function arguments label => [.call function arguments label waiting]
  | _ => []

def Call.waits (waiting : List SqlFunction) : Call → List SqlFunction
  | .wrap function => waiting ++ [function]
  | .apply .. => []
  | _ => waiting

-- What a statement selects besides: the last function that waits, of all rows, within the others.
def waitingItems (q : Select) : List SelectItem :=
  (q.pending.getLast?.map fun function => .call function [] none q.pending.dropLast).toList

-- How the items of the tables change when some are added. Without a table there is nothing to add to.
inductive Lists (before : List (List SelectItem)) : List SelectItem → List (List SelectItem) → Prop where
  | same : Lists before [] before
  | table : Lists before [] (before ++ [[]])
  | named (label : String) : Lists before [] (mapLast (mapLast (SelectItem.rename label)) before)
  | added (items : List SelectItem) : Lists before items (mapLast (· ++ items) before)

structure Selects (q : Select) (items : List SelectItem) (waiting : List SqlFunction) (next : Select) : Prop where
  lists : Lists q.lists items next.lists
  pending : next.pending = waiting

section
variable {q next : Select} {c : Call}

theorem lists_told (s : Selection) (c : Call) : Lists s.lists (c.selected s.waiting) (s.told c).lists := by
  cases c with
  | table | join | joinLast => exact .table
  | columns | expression | having | apply =>
    simp only [Selection.told, amend_eq]
    exact .added _
  | named label =>
    rw [told_named]
    exact .named label
  | _ => exact .same

theorem waiting_told (s : Selection) (c : Call) : (s.told c).waiting = c.waits s.waiting := by
  cases c <;> rfl

theorem apply_selects (applied : q.apply c = .ok next) : Selects q (c.selected q.pending) (c.waits q.pending) next := by
  rcases selection_apply applied with told | ⟨⟨name, rfl⟩, _, same⟩
  · have lists : next.lists = (q.selection.told c).lists := congrArg Selection.lists told
    have waiting : next.pending = (q.selection.told c).waiting := congrArg Selection.waiting told
    exact ⟨lists ▸ lists_told q.selection c, waiting.trans (waiting_told q.selection c)⟩
  · have lists : next.lists = q.lists := congrArg Selection.lists same
    exact ⟨lists ▸ .same, congrArg Selection.waiting same⟩

-- A statement that can be written makes an item of the functions that wait.
theorem flush_selects (filled : q.sources ≠ []) : Selects q q.waitingItems [] q.flush := by
  refine ⟨?_, pending_flush filled⟩
  have stated : q.flush.lists = q.selection.stated.lists := congrArg Selection.lists (selection_flush filled)
  have tabled : q.selection.lists ≠ [] := List.map_eq_nil_iff.not.mpr filled
  rw [stated, waitingItems]
  cases last : q.pending.getLast? with
  | none =>
    rw [stated_done last]
    exact .same
  | some function =>
    rw [stated_waiting tabled last, amend_eq]
    exact .added _

end

def itemAt? (place position : Nat) (lists : List (List SelectItem)) : Option SelectItem :=
  lists[place]?.bind (·[position]?)

-- Items that are where they were, with whatever names.
def Kept (before behind : List (List SelectItem)) : Prop :=
  ∀ place position item, itemAt? place position before = some item →
    ∃ other, itemAt? place position behind = some other ∧ other.unnamed = item.unnamed

theorem getElem?_mapLast {α : Type} (change : α → α) (as : List α) (i : Nat) :
    (mapLast change as)[i]? = as[i]?.map fun a => if i + 1 = as.length then change a else a := by
  induction as using mapLast.induct generalizing i with
  | case1 => rfl
  | case2 a => cases i <;> simp [mapLast]
  | case3 a b r ih =>
    cases i with
    | zero => simp [mapLast]
    | succ i =>
      rw [mapLast, List.getElem?_cons_succ, List.getElem?_cons_succ, ih]
      simp

section
variable {before behind last : List (List SelectItem)} {items : List SelectItem}

theorem Kept.refl (lists : List (List SelectItem)) : Kept lists lists := fun _ _ item there => ⟨item, there, rfl⟩

theorem Kept.trans (first : Kept before behind) (second : Kept behind last) : Kept before last := by
  intro place position item there
  obtain ⟨other, moved, same⟩ := first place position item there
  obtain ⟨final, still, alike⟩ := second place position other moved
  exact ⟨final, still, alike.trans same⟩

-- Whatever a change of the last table does, the items that it had keep their place.
theorem kept_mapLast {change : List SelectItem → List SelectItem}
    (each : ∀ (list : List SelectItem) (position : Nat) (item : SelectItem), list[position]? = some item →
      ∃ other, (change list)[position]? = some other ∧ other.unnamed = item.unnamed) (lists : List (List SelectItem)) :
    Kept lists (mapLast change lists) := by
  intro place position item there
  obtain ⟨list, known, inside⟩ := Option.bind_eq_some_iff.mp there
  rw [itemAt?, getElem?_mapLast, known]
  show ∃ other : SelectItem, (if place + 1 = lists.length then change list else list)[position]? = some other ∧ _
  split
  · exact each list position item inside
  · exact ⟨item, inside, rfl⟩

theorem Lists.kept (listed : Lists before items behind) : Kept before behind := by
  cases listed with
  | same => exact .refl before
  | table =>
    intro place position item there
    obtain ⟨list, known, inside⟩ := Option.bind_eq_some_iff.mp there
    have still : (before ++ [[]])[place]? = some list :=
      (List.getElem?_append_left (List.getElem?_eq_some_iff.mp known).1).trans known
    exact ⟨item, Option.bind_eq_some_iff.mpr ⟨list, still, inside⟩, rfl⟩
  | named label =>
    apply kept_mapLast
    intro list position item there
    rw [getElem?_mapLast, there]
    refine ⟨_, rfl, ?_⟩
    split
    · exact item.unnamed_rename label
    · rfl
  | added =>
    apply kept_mapLast
    intro list position item there
    exact ⟨item, (List.getElem?_append_left (List.getElem?_eq_some_iff.mp there).1).trans there, rfl⟩

theorem flatMap_mapLast {α β : Type} {change : α → α} {f : α → List β} (same : ∀ a, f (change a) = f a) (as : List α) :
    (mapLast change as).flatMap f = as.flatMap f := by
  have mapped : (mapLast change as).map f = mapLast id (as.map f) := map_mapLast same as
  rw [List.flatMap_def, mapped, mapLast_id, List.flatMap_def]

-- Behind the items of the last table there are no others, so that what is added comes last of all.
theorem Lists.functions (filled : before ≠ []) (listed : Lists before items behind) :
    behind.flatten.flatMap SelectItem.functions =
      before.flatten.flatMap SelectItem.functions ++ items.flatMap SelectItem.functions := by
  cases listed with
  | same => simp
  | table => simp
  | named label =>
    have same (list : List SelectItem) : (mapLast (SelectItem.rename label) list).flatMap SelectItem.functions =
        list.flatMap SelectItem.functions := flatMap_mapLast (SelectItem.functions_rename label) list
    rw [List.flatten_eq_flatMap, List.flatten_eq_flatMap, List.flatMap_assoc, List.flatMap_assoc]
    simpa using flatMap_mapLast same before
  | added =>
    obtain ⟨front, list, rfl⟩ := List.eq_nil_or_concat before |>.resolve_left filled
    rw [List.concat_eq_append, mapLast_concat]
    simp

theorem Lists.filled (filled : before ≠ []) (listed : Lists before items behind) : behind ≠ [] := by
  cases listed with
  | same => exact filled
  | table => simp
  | named | added => exact mapLast_ne_nil _ filled

end

def Call.functions : Call → List SqlFunction
  | .wrap function | .apply function _ _ => [function]
  | _ => []

def functions (q : Select) : List SqlFunction := q.lists.flatten.flatMap SelectItem.functions ++ q.pending

section
variable {q next : Select} {c : Call} {items : List SelectItem} {waiting : List SqlFunction}

theorem lists_ne_nil : q.lists ≠ [] ↔ q.sources ≠ [] := not_congr List.map_eq_nil_iff

theorem Selects.filled (selects : Selects q items waiting next) (filled : q.sources ≠ []) : next.sources ≠ [] :=
  lists_ne_nil.mp (selects.lists.filled (lists_ne_nil.mpr filled))

theorem Selects.functions (filled : q.sources ≠ []) (selects : Selects q items waiting next) : next.functions =
    q.lists.flatten.flatMap SelectItem.functions ++ (items.flatMap SelectItem.functions ++ waiting) := by
  rw [Select.functions, selects.lists.functions (lists_ne_nil.mpr filled), selects.pending, List.append_assoc]

theorem functions_selected (c : Call) (waiting : List SqlFunction) :
    (c.selected waiting).flatMap SelectItem.functions ++ c.waits waiting = waiting ++ c.functions := by
  cases c with
  | columns names => simp [Call.selected, Call.waits, Call.functions, SelectItem.functions, List.flatMap_map]
  | _ => simp [Call.selected, Call.waits, Call.functions, SelectItem.functions]

theorem apply_functions (filled : q.sources ≠ []) (applied : q.apply c = .ok next) :
    next.functions = q.functions ++ c.functions := by
  rw [(apply_selects applied).functions filled, functions_selected, ← List.append_assoc]
  rfl

theorem flush_functions (filled : q.sources ≠ []) : q.flush.functions = q.functions := by
  have waited : q.waitingItems.flatMap SelectItem.functions = q.pending := by
    unfold waitingItems
    cases given : q.pending.getLast? with
    | none => simp [List.getLast?_eq_none_iff.mp given]
    | some function =>
      obtain ⟨front, same⟩ := List.getLast?_eq_some_iff.mp given
      simp [same, SelectItem.functions]
  rw [(flush_selects filled).functions filled, waited, List.append_nil]
  rfl

theorem run_kept (q : Select) (turns : List Turn) : Kept q.lists (q.run turns).lists :=
  run_keeps (p := fun next => Kept q.lists next.lists) (.refl _)
    (fun _ _ _ _ applied kept => kept.trans (apply_selects applied).lists.kept)
    fun _ filled kept => kept.trans (flush_selects filled).lists.kept

-- So every function that was ever called is in one item or waits, in the order of the calls.
theorem run_functions (filled : q.sources ≠ []) (turns : List Turn) :
    (q.run turns).functions = q.functions ++ (made q turns).flatMap Call.functions := by
  induction turns generalizing q with
  | nil => simp [run, made]
  | cons turn r ih =>
    cases turn with
    | build =>
      show (q.build.2.run r).functions = q.functions ++ (made q.build.2 r).flatMap Call.functions
      rcases build_cases q with same | ⟨_, flushed⟩
      · rw [same, ih filled]
      · rw [flushed, ih (flush_ne_nil filled), flush_functions filled]
    | call c =>
      show ((q.after (.call c)).run r).functions = _
      rw [made]
      cases applied : q.apply c with
      | error fault =>
        obtain ⟨kept, unmade⟩ := after_failed applied
        rw [kept, unmade, ih filled]
        rfl
      | ok next =>
        obtain ⟨stepped, known⟩ := after_made applied
        rw [stepped, known, ih ((apply_selects applied).filled filled), apply_functions filled applied]
        simp

end

end Select

end QueryKit
