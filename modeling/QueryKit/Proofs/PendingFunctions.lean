import QueryKit.Proofs.LinkKeys
import QueryKit.Proofs.SelectList

-- Functions that wait. The next call of a function takes all of them around itself, and so does a statement, with the
-- last of them as the call; until then nothing else touches them, and afterwards none is left.

namespace QueryKit

namespace Select

def argumentsText (zone : Zone) (q : Select) (source : Source) (arguments : List Argument) : String :=
  if arguments = [] then "*" else ", ".intercalate (arguments.map fun a => Sql.text zone (q.argumentSql source a))

section
variable {q next : Select} {source : Source} {zone : Zone}

theorem argumentsText_eq (zone : Zone) (q : Select) (source : Source) (arguments : List Argument) :
    argumentsText zone q source arguments = Argument.listText zone (qualifier q.labels source.label) arguments := by
  cases arguments with
  | nil => rfl
  | cons a r =>
    rw [argumentsText, if_neg (List.cons_ne_nil a r), funext (text_argument zone q source)]
    rfl

theorem text_call (zone : Zone) (q : Select) (source : Source) (g : SqlFunction) (arguments : List Argument)
    (label : Option String) (wrappers : List SqlFunction) :
    (q.itemSql? source (.call g arguments label wrappers)).map (Sql.text zone) =
      some (withName label (nested wrappers (g.name ++ "(" ++ argumentsText zone q source arguments ++ ")"))) := by
  rw [text_item, SelectItem.text?, nested_concat, argumentsText_eq]

def Call.isApply : Call → Bool
  | .apply .. => true
  | _ => false

theorem waits_of_other {c : Call} (other : c.isApply = false) (waiting : List SqlFunction) :
    c.waits waiting = waiting ++ c.functions := by
  cases c with
  | apply => cases other
  | _ => simp [Call.waits, Call.functions]

theorem run_pending {calls : List Call} (other : ∀ c ∈ calls, c.isApply = false) (q : Select) :
    (q.run (calls.map .call)).pending = q.pending ++ calls.flatMap Call.functions := by
  induction calls generalizing q with
  | nil => simp [run]
  | cons c r ih =>
    obtain ⟨here, later⟩ := List.forall_mem_cons.mp other
    show ((q.after (.call c)).run (r.map .call)).pending = _
    rw [ih later, List.flatMap_cons, ← List.append_assoc]
    congr 1
    cases applied : q.apply c with
    | error fault =>
      have unqueued : c.functions = [] := by
        cases c with
        | wrap function => cases applied
        | apply => cases here
        | _ => rfl
      rw [(after_failed applied).1, unqueued, List.append_nil]
    | ok next => rw [(after_made applied).1, (apply_selects applied).pending, waits_of_other here]

theorem run_filled (filled : q.sources ≠ []) (turns : List Turn) : (q.run turns).sources ≠ [] :=
  run_keeps (p := fun q => q.sources ≠ []) filled
    (fun _ _ _ _ applied there => (apply_selects applied).filled there) fun _ there _ => flush_ne_nil there

-- One more item of the last table, no function that waits, and all else as before.
def Gains (q : Select) (item : SelectItem) (next : Select) : Prop :=
  ∃ earlier last, q.sources = earlier ++ [last] ∧
    next = { q with pending := [], sources := earlier ++ [{ last with items := last.items ++ [item] }] }

theorem gains_addItems (filled : q.sources ≠ []) (item : SelectItem) : Gains q item (addItems [item] { q with pending := [] }) := by
  obtain ⟨earlier, last, placed⟩ := List.eq_nil_or_concat q.sources |>.resolve_left filled
  rw [List.concat_eq_append] at placed
  refine ⟨earlier, last, placed, ?_⟩
  simp [addItems, placed, mapLast_concat]

theorem apply_gains (filled : q.sources ≠ []) (g : SqlFunction) (arguments : List Argument) (label : Option String) :
    ∃ next, q.apply (.apply g arguments label) = .ok next ∧ Gains q (.call g arguments label q.pending) next :=
  ⟨_, rfl, gains_addItems filled _⟩

theorem flush_gains (filled : q.sources ≠ []) {wrappers : List SqlFunction} {g : SqlFunction}
    (waiting : q.pending = wrappers ++ [g]) : Gains q (.call g [] none wrappers) q.flush := by
  have called : q.flush = addItems [.call g [] none wrappers] { q with pending := [] } := by
    simp [flush, waiting, addCall]
  rw [called]
  exact gains_addItems filled _

end

end Select

-- Functions that are queued one after another, with other calls between them, wait in this order. The next call of a
-- function makes one item, in which it is the innermost. A statement makes one of them all, of all rows, unless none
-- waits. Every function is in just one item in the end, or still waits, whatever is called; counting leaves those that
-- wait alone and does not need them.
theorem pending_functions_nested {q : Select} (filled : q.sources ≠ []) (idle : q.pending = []) {calls : List Select.Call}
    (other : ∀ c ∈ calls, c.isApply = false) :
    (q.run (calls.map .call)).pending = calls.flatMap Select.Call.functions ∧
    (∀ g arguments label, ∃ next item, (q.run (calls.map .call)).apply (.apply g arguments label) = .ok next ∧
      Select.Gains (q.run (calls.map .call)) item next ∧
      ∀ (r : Select) (source : Source) (zone : Zone), (r.itemSql? source item).map (Sql.text zone) =
        some (Select.withName label (Select.nested (calls.flatMap Select.Call.functions)
          (g.name ++ "(" ++ Select.argumentsText zone r source arguments ++ ")")))) ∧
    (∀ text next, (q.run (calls.map .call)).build = (.ok text, next) →
      (calls.flatMap Select.Call.functions = [] ∧ next = q.run (calls.map .call)) ∨
      (calls.flatMap Select.Call.functions ≠ [] ∧ ∃ item, Select.Gains (q.run (calls.map .call)) item next ∧
        ∀ (r : Select) (source : Source) (zone : Zone), (r.itemSql? source item).map (Sql.text zone) =
          some (Select.nested (calls.flatMap Select.Call.functions) "*"))) ∧
    (∀ turns, (q.run turns).functions = q.functions ++ (Select.made q turns).flatMap Select.Call.functions) ∧
    ∀ (r : Select) (waiting : List SqlFunction), { r with pending := waiting }.buildCount = r.buildCount := by
  have there := Select.run_filled filled (calls.map .call)
  have waiting : (q.run (calls.map .call)).pending = calls.flatMap Select.Call.functions := by
    rw [Select.run_pending other, idle, List.nil_append]
  refine ⟨waiting, ?called, ?built, Select.run_functions filled, fun r waiting => rfl⟩
  case called =>
    intro g arguments label
    obtain ⟨next, applied, gains⟩ := Select.apply_gains there g arguments label
    refine ⟨next, _, applied, gains, fun r source zone => ?_⟩
    rw [Select.text_call, waiting]
  case built =>
    intro text next built
    obtain ⟨_, rfl, _⟩ := Select.build_parts built
    rcases List.eq_nil_or_concat (calls.flatMap Select.Call.functions) with nothing | ⟨wrappers, g, last⟩
    · refine .inl ⟨nothing, ?_⟩
      rw [nothing] at waiting
      simp [Select.flush, waiting]
    · rw [List.concat_eq_append] at last
      rw [last] at waiting ⊢
      refine .inr ⟨by simp, _, Select.flush_gains there waiting, fun r source zone => ?_⟩
      rw [Select.text_call, Select.nested_concat]
      rfl

-- Two functions that wait with a limit between them, and a third one that takes them.
def roundedTotal : List Select.Call := [.wrap .abs, .limit 3, .wrap .round]

theorem roundedTotal_nested :
    (∃ next item, (people.run (roundedTotal.map .call)).apply (.apply .sum [.column "age"] (some "total")) = .ok next ∧
      Select.Gains (people.run (roundedTotal.map .call)) item next ∧
      (next.itemSql? ⟨"person", "t1", [], []⟩ item).map (Sql.text .utc) =
        some "ABS(ROUND(SUM(\"age\"))) AS \"total\"") ∧
    ∃ next item, (people.run (roundedTotal.map .call)).build = (.ok "SELECT ABS(ROUND(*)) FROM \"person\" LIMIT 3", next) ∧
      Select.Gains (people.run (roundedTotal.map .call)) item next ∧ next.functions = [.abs, .round] := by
  have filled : people.sources ≠ [] := List.cons_ne_nil _ _
  have other : ∀ c ∈ roundedTotal, c.isApply = false := by simp [roundedTotal, Select.Call.isApply]
  obtain ⟨_, called, built, kept, _⟩ := pending_functions_nested filled rfl other
  constructor
  · obtain ⟨next, item, applied, gains, reads⟩ := called .sum [.column "age"] (some "total")
    cases applied
    exact ⟨_, item, rfl, gains, (reads _ _ _).trans (by decide +kernel)⟩
  · have written : (people.run (roundedTotal.map .call)).build.1.toOption =
        some "SELECT ABS(ROUND(*)) FROM \"person\" LIMIT 3" := by decide +kernel
    have spelled : (people.run (roundedTotal.map .call)).build = (.ok "SELECT ABS(ROUND(*)) FROM \"person\" LIMIT 3",
        (people.run (roundedTotal.map .call)).build.2) := Prod.ext (Select.ok_of_toOption written) rfl
    rcases built _ _ spelled with ⟨unqueued, _⟩ | ⟨_, item, gains, _⟩
    · cases unqueued
    · have used := kept (roundedTotal.map .call ++ [.build])
      rw [Select.run_append] at used
      exact ⟨_, item, spelled, gains, used⟩

end QueryKit
