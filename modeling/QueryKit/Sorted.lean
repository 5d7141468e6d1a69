-- Named values in ascending order of their names, one per name. The order is that of code
-- points, which is the order of the UTF-8 octets too.

namespace QueryKit

abbrev Sorted (α : Type) := List (String × α)

namespace Sorted
variable {α : Type}

def insert (name : String) (value : α) : Sorted α → Sorted α
  | [] => [(name, value)]
  | (n, v) :: r =>
    if name < n then (name, value) :: (n, v) :: r
    else if name = n then (name, value) :: r
    else (n, v) :: insert name value r

def ofPairs (pairs : List (String × α)) : Sorted α :=
  pairs.foldl (fun done p => insert p.1 p.2 done) []

def get? (name : String) : Sorted α → Option α
  | [] => none
  | (n, v) :: r => if n = name then some v else get? name r

def names (values : Sorted α) : List String := values.map (·.1)

theorem get?_insert (name other : String) (value : α) (values : Sorted α) :
    get? other (insert name value values) = if name = other then some value else get? other values := by
  induction values with
  | nil => simp [insert, get?]
  | cons p r ih =>
    obtain ⟨n, v⟩ := p
    by_cases before : name < n
    · simp [insert, get?, before]
    · by_cases same : name = n
      · subst same
        by_cases hit : name = other <;> simp [insert, get?, hit]
      · by_cases hit : n = other
        · subst hit; simp [insert, get?, before, same]
        · simp [insert, get?, before, same, hit, ih]

theorem mem_insert (name : String) (value : α) (values : Sorted α) (p : String × α)
    (member : p ∈ insert name value values) : p = (name, value) ∨ p ∈ values := by
  induction values with
  | nil => exact .inl (by simpa [insert] using member)
  | cons q r ih =>
    obtain ⟨n, v⟩ := q
    simp only [insert] at member
    split at member
    · rcases List.mem_cons.mp member with here | later
      · exact .inl here
      · exact .inr later
    · split at member
      · rcases List.mem_cons.mp member with here | later
        · exact .inl here
        · exact .inr (List.mem_cons_of_mem _ later)
      · rcases List.mem_cons.mp member with here | later
        · exact .inr (here ▸ List.mem_cons_self)
        · exact (ih later).imp id (List.mem_cons_of_mem _)

theorem get?_eq_none_iff (name : String) (values : Sorted α) : get? name values = none ↔ name ∉ names values := by
  induction values with
  | nil => simp [get?, names]
  | cons p r ih =>
    obtain ⟨n, v⟩ := p
    simp only [names] at ih
    by_cases same : n = name
    · simp [get?, names, same]
    · simp [get?, names, same, Ne.symm same, ih]

theorem mem_names_insert (name other : String) (value : α) (values : Sorted α) :
    other ∈ names (insert name value values) ↔ other = name ∨ other ∈ names values := by
  rw [← Decidable.not_iff_not, not_or, ← get?_eq_none_iff, ← get?_eq_none_iff, get?_insert]
  by_cases same : name = other
  · simp [same]
  · simp [same, Ne.symm same]

theorem insert_above {name : String} (value : α) {values : Sorted α} (above : ∀ n ∈ names values, n < name) :
    insert name value values = values ++ [(name, value)] := by
  induction values with
  | nil => rfl
  | cons p r ih =>
    obtain ⟨n, v⟩ := p
    obtain ⟨first, rest⟩ := List.forall_mem_cons.mp above
    have notBefore : ¬ name < n := Std.not_gt_of_lt first
    have other : name ≠ n := by
      rintro rfl
      exact String.lt_irrefl _ first
    rw [insert, if_neg notBefore, if_neg other, ih rest]
    rfl

theorem insert_comm_before {first second : String} (before : first < second) (a b : α) (values : Sorted α) :
    insert first a (insert second b values) = insert second b (insert first a values) := by
  have after : ¬ second < first := Std.not_gt_of_lt before
  have apart : second ≠ first := fun same => String.lt_irrefl _ (same ▸ before)
  induction values with
  | nil => simp [insert, before, after, apart]
  | cons p r ih =>
    obtain ⟨n, v⟩ := p
    rcases Std.lt_trichotomy second n with early | same | late
    · have front : first < n := String.lt_trans before early
      simp [insert, before, after, apart, early, front]
    · subst same
      simp [insert, before, after, apart]
    · have behind : ¬ second < n := Std.not_gt_of_lt late
      have other : second ≠ n := fun same => String.lt_irrefl _ (same ▸ late)
      by_cases front : first < n
      · simp [insert, apart, after, front, behind, other]
      · by_cases hit : first = n
        · subst hit
          simp [insert, behind, other]
        · simp [insert, front, hit, behind, other, ih]

theorem insert_comm {first second : String} (apart : first ≠ second) (a b : α) (values : Sorted α) :
    insert first a (insert second b values) = insert second b (insert first a values) := by
  rcases Std.lt_trichotomy first second with before | same | behind
  · exact insert_comm_before before a b values
  · exact absurd same apart
  · exact (insert_comm_before behind b a values).symm

theorem ascending_insert (name : String) (value : α) (values : Sorted α) (ascending : (names values).Pairwise (· < ·)) :
    (names (insert name value values)).Pairwise (· < ·) := by
  induction values with
  | nil => exact List.pairwise_singleton _ _
  | cons p r ih =>
    obtain ⟨n, v⟩ := p
    obtain ⟨least, rest⟩ := List.pairwise_cons.mp ascending
    unfold insert
    split
    case isTrue before =>
      refine List.pairwise_cons.mpr ⟨?_, ascending⟩
      intro other member
      rcases List.mem_cons.mp member with rfl | later
      · exact before
      · exact String.lt_trans before (least other later)
    case isFalse =>
      split
      case isTrue same =>
        subst same
        exact ascending
      case isFalse notBefore other =>
        have behind : n < name := ((Std.lt_trichotomy name n).resolve_left notBefore).resolve_left other
        refine List.pairwise_cons.mpr ⟨?_, ih rest⟩
        intro next member
        rcases (mem_names_insert name next value r).mp member with rfl | later
        · exact behind
        · exact least next later

theorem ascending_ofPairs (pairs : List (String × α)) : (names (ofPairs pairs)).Pairwise (· < ·) := by
  suffices general : ∀ values : Sorted α, (names values).Pairwise (· < ·) →
      (names (pairs.foldl (fun done p => insert p.1 p.2 done) values)).Pairwise (· < ·) from general [] .nil
  induction pairs with
  | nil => exact fun _ ascending => ascending
  | cons p r ih => exact fun values ascending => ih _ (ascending_insert p.1 p.2 values ascending)

theorem mem_of_mem_ofPairs {pairs : List (String × α)} {p : String × α} (member : p ∈ ofPairs pairs) : p ∈ pairs := by
  suffices general : ∀ done : Sorted α, p ∈ pairs.foldl (fun done p => insert p.1 p.2 done) done → p ∈ done ∨ p ∈ pairs from
    (general [] member).resolve_left List.not_mem_nil
  clear member
  induction pairs with
  | nil => exact fun _ here => .inl here
  | cons q r ih =>
    intro done here
    rcases ih _ here with earlier | later
    · rcases mem_insert q.1 q.2 done p earlier with rfl | before
      · exact .inr List.mem_cons_self
      · exact .inl before
    · exact .inr (List.mem_cons_of_mem _ later)

theorem ofPairs_of_ascending {pairs : List (String × α)} (ascending : (names pairs).Pairwise (· < ·)) :
    ofPairs pairs = pairs := by
  suffices general : ∀ done : Sorted α, (names (done ++ pairs)).Pairwise (· < ·) →
      pairs.foldl (fun done p => insert p.1 p.2 done) done = done ++ pairs from general [] ascending
  clear ascending
  induction pairs with
  | nil => simp
  | cons p r ih =>
    intro done ascending
    have above : ∀ n ∈ names done, n < p.1 := by
      rw [names, List.map_append, List.pairwise_append] at ascending
      exact fun n member => ascending.2.2 n member p.1 List.mem_cons_self
    rw [List.foldl_cons, insert_above p.2 above, ih]
    · simp
    · simpa using ascending

theorem mem_names_ofPairs (name : String) (pairs : List (String × α)) :
    name ∈ names (ofPairs pairs) ↔ ∃ p ∈ pairs, p.1 = name := by
  suffices general : ∀ values : Sorted α,
      name ∈ names (pairs.foldl (fun done p => insert p.1 p.2 done) values) ↔
        name ∈ names values ∨ ∃ p ∈ pairs, p.1 = name by
    have absent : name ∉ names ([] : Sorted α) := List.not_mem_nil
    exact (general []).trans (or_iff_right absent)
  induction pairs with
  | nil => simp
  | cons p r ih =>
    intro values
    rw [List.foldl_cons, ih, mem_names_insert]
    simp only [List.mem_cons, exists_eq_or_imp, eq_comm (a := name)]
    rw [or_assoc, or_left_comm]

end Sorted

end QueryKit
