import QueryKit.Proofs.QueryParts

-- Queries without SQL of the caller's own: what is put together by calls that have none has none.

namespace QueryKit

namespace JoinKeys

def isRawFree : JoinKeys → Bool
  | .single side => !side.isRaw
  | .many sides => sides.all (!·.isRaw)

theorem sides_rawFree {keys : JoinKeys} (plain : keys.isRawFree = true) : ∀ side ∈ keys.sides, side.isRaw = false := by
  cases keys <;> simpa [isRawFree, sides] using plain

end JoinKeys

namespace Select

def Call.isRawFree : Call → Bool
  | .expression _ | .orderRaw .. => false
  | .join _ own _ other | .joinLast _ own other => own.isRawFree && other.isRawFree
  | .filter _ conditions | .filterExists _ _ _ conditions => conditions.every (!·.isRaw)
  | _ => true

def rawFreeParts : Parts where
  item item := ∀ sql label, item ≠ .expression sql label
  side side := side.isRaw = false
  filter conditions := conditions.every (!·.isRaw) = true
  term term := ∀ sql, term ≠ .raw sql

theorem rename_expression (label : String) (item : SelectItem) (plain : ∀ sql l, item ≠ .expression sql l) :
    ∀ sql l, item.rename label ≠ .expression sql l := by
  intro sql l same
  cases item with
  | expression text given => exact plain text given rfl
  | column | call | having => cases same

theorem call_rawFree {c : Call} (plain : c.isRawFree = true) (zone : Zone) : c.MadeOf rawFreeParts zone := by
  cases c with
  | join table own target other | joinLast table own other =>
    obtain ⟨first, second⟩ := Bool.and_eq_true_iff.mp plain
    exact ⟨JoinKeys.sides_rawFree first, JoinKeys.sides_rawFree second⟩
  | filter | filterExists => exact plain
  | expression | orderRaw => cases plain
  | _ => simp [Call.MadeOf, rawFreeParts]

theorem applyAll_rawFree {q last : Select} (calls : List Call) (plain : calls.all Call.isRawFree = true)
    (applied : q.applyAll calls = .ok last) (free : q.RawFree) : last.RawFree := by
  have made : q.MadeOf rawFreeParts q.zone := ⟨rfl, free.items, free.joins, free.groups, free.order⟩
  have brings : ∀ c ∈ calls, c.MadeOf rawFreeParts q.zone := fun c member =>
    call_rawFree (List.all_eq_true.mp plain c member) q.zone
  have whole := applyAll_madeOf rename_expression brings applied made
  exact ⟨whole.items, whole.joins, whole.groups, whole.order⟩

theorem new_rawFree (zone : Zone) : (new zone).RawFree := by
  constructor <;> simp [new]

end Select

end QueryKit
