-- Cutting text at separators.

namespace QueryKit.Text

def splitWhere (isSeparator : Char → Bool) : List Char → List (List Char)
  | [] => [[]]
  | c :: r =>
    if isSeparator c then [] :: splitWhere isSeparator r
    else match splitWhere isSeparator r with
      | [] => [[c]]
      | part :: parts => (c :: part) :: parts

theorem splitWhere_ne_nil (isSeparator : Char → Bool) (cs : List Char) : splitWhere isSeparator cs ≠ [] := by
  cases cs with
  | nil => simp [splitWhere]
  | cons c r =>
    simp only [splitWhere]
    split
    · simp
    · split <;> simp

theorem splitWhere_eq_singleton (isSeparator : Char → Bool) (cs : List Char)
    (plain : ∀ c ∈ cs, isSeparator c = false) : splitWhere isSeparator cs = [cs] := by
  induction cs with
  | nil => rfl
  | cons c r ih =>
    have here := plain c List.mem_cons_self
    simp [splitWhere, here, ih fun d member => plain d (List.mem_cons_of_mem _ member)]

theorem parted_run (keeps : Char → Bool) {cs r : List Char} (kept : ∀ c ∈ cs, keeps c = true)
    (stops : ∀ c s, r = c :: s → keeps c = false) : (cs ++ r).takeWhile keeps = cs ∧ (cs ++ r).dropWhile keeps = r := by
  rw [List.takeWhile_append_of_pos kept, List.dropWhile_append_of_pos kept]
  cases r with
  | nil => exact ⟨List.append_nil cs, rfl⟩
  | cons c s =>
    have held : ¬ keeps c = true := Bool.eq_false_iff.mp (stops c s rfl)
    rw [List.takeWhile_cons_of_neg held, List.dropWhile_cons_of_neg held, List.append_nil]
    exact ⟨rfl, rfl⟩

theorem parted_at (keeps : Char → Bool) {cs : List Char} (c : Char) (r : List Char)
    (kept : ∀ d ∈ cs, keeps d = true) (stop : keeps c = false) :
    (cs ++ c :: r).takeWhile keeps = cs ∧ (cs ++ c :: r).dropWhile keeps = c :: r :=
  parted_run keeps kept fun d s same => by
    cases same
    exact stop

end QueryKit.Text
