import QueryKit.Proofs.SpellableQueries
import QueryKit.Driver.Find

-- What stops a search, a count or a look for associated rows, told as records: the calls that they stand for bring
-- no timestamps but their own.

namespace QueryKit

section
variable (zone : Zone)

def JoinSpec.isSpellable (j : JoinSpec) : Bool :=
  j.keys.isSpellable zone && j.targetKeys.isSpellable zone && j.conditions.all (Conditions.isSpellable zone)

def Merge.isSpellable (m : Merge) : Bool :=
  m.keys.isSpellable zone && m.targetKeys.isSpellable zone && m.filter.all fun (_, conditions) => conditions.isSpellable zone

def Related.isSpellable (r : Related) : Bool :=
  r.joins.all (JoinSpec.isSpellable zone) && r.merge.all (Merge.isSpellable zone) &&
    r.existing.all fun e => e.conditions.isSpellable zone

end

namespace Select
variable {zone : Zone}

theorem spellable_joinsFrom {joins : List JoinSpec} (spellable : joins.all (JoinSpec.isSpellable zone) = true)
    (position : Nat) : ∀ c ∈ joinsFrom position joins, c.isSpellable zone = true := by
  induction joins generalizing position with
  | nil => simp [joinsFrom]
  | cons j r ih =>
    rw [List.all_cons, Bool.and_eq_true] at spellable
    have rest := ih spellable.2 (position + 1)
    obtain ⟨keys, conditions⟩ := Bool.and_eq_true_iff.mp spellable.1
    rw [joinsFrom, joinCalls, List.forall_mem_append]
    refine ⟨?_, rest⟩
    cases given : j.conditions with
    | none => exact List.forall_mem_cons.mpr ⟨keys, List.forall_mem_singleton.mpr rfl⟩
    | some c =>
      rw [given] at conditions
      exact List.forall_mem_cons.mpr ⟨keys, List.forall_mem_cons.mpr ⟨rfl, List.forall_mem_singleton.mpr conditions⟩⟩

theorem spellable_mergeCall {m : Merge} (spellable : m.isSpellable zone = true) :
    (mergeCall m).isSpellable zone = true := by
  obtain ⟨keys, _⟩ := Bool.and_eq_true_iff.mp spellable
  exact keys

theorem spellable_filterCalls (table : String) {r : Related} {conditions : Conditions}
    (about : conditions.isSpellable zone = true) (related : r.isSpellable zone = true) :
    ∀ c ∈ filterCalls table r conditions, c.isSpellable zone = true := by
  have filtered : ∀ label, (Call.filter label conditions).isSpellable zone = true := fun _ => about
  obtain ⟨others, _⟩ := Bool.and_eq_true_iff.mp related
  obtain ⟨_, merged⟩ := Bool.and_eq_true_iff.mp others
  unfold filterCalls
  cases found : r.merge with
  | none => simp [filtered]
  | some m =>
    rw [found] at merged
    obtain ⟨_, filter⟩ := Bool.and_eq_true_iff.mp merged
    have nested : ∀ c ∈ mergeFilter m, c.isSpellable zone = true := by
      unfold mergeFilter
      cases given : m.filter with
      | none => simp
      | some f =>
        rw [given] at filter
        have own : ∀ label, (Call.filter label f.2).isSpellable zone = true := fun _ => filter
        dsimp only
        split <;> simp [own]
    exact List.forall_mem_append.mpr ⟨nested, List.forall_mem_singleton.mpr (filtered m.subject)⟩

theorem spellable_existingCalls (table : String) {r : Related} (related : r.isSpellable zone = true) :
    ∀ c ∈ existingCalls table r, c.isSpellable zone = true := by
  obtain ⟨_, existing⟩ := Bool.and_eq_true_iff.mp related
  intro c member
  obtain ⟨e, known, rfl⟩ := List.mem_map.mp member
  exact List.all_eq_true.mp existing e known

theorem spellable_shapeCalls (s : Shape) : ∀ c ∈ shapeCalls s, c.isSpellable zone = true := by
  have ordered : ∀ o : OrderSpec, (orderCall o).isSpellable zone = true := by
    intro o
    unfold orderCall
    split <;> rfl
  unfold shapeCalls
  simp only [List.forall_mem_append]
  refine ⟨⟨⟨?_, ?_⟩, ?_⟩, ?_⟩
  · split
    · split <;> simp [Call.isSpellable]
    · simp
  · split <;> simp [Call.isSpellable]
  · simp [ordered]
  · split <;> simp [Call.isSpellable]

theorem spellable_outputCalls (s : Shape) : ∀ c ∈ outputCalls s, c.isSpellable zone = true := by
  unfold outputCalls
  split <;> simp [Call.isSpellable]

theorem spellable_findCalls (columns : List String) (table : String) {conditions : Conditions} {r : Related} (s : Shape)
    (about : conditions.isSpellable zone = true) (related : r.isSpellable zone = true) :
    ∀ c ∈ findCalls columns table conditions r s, c.isSpellable zone = true := by
  obtain ⟨others, _⟩ := Bool.and_eq_true_iff.mp related
  obtain ⟨joins, merged⟩ := Bool.and_eq_true_iff.mp others
  unfold findCalls
  simp only [List.forall_mem_append]
  refine ⟨⟨⟨⟨⟨⟨?_, spellable_joinsFrom joins 1⟩, spellable_shapeCalls s⟩, ?_⟩, spellable_filterCalls table about related⟩,
    spellable_existingCalls table related⟩, spellable_outputCalls s⟩
  · exact List.forall_mem_cons.mpr ⟨rfl, List.forall_mem_singleton.mpr rfl⟩
  · cases found : r.merge with
    | none => simp
    | some m =>
      rw [found] at merged
      exact List.forall_mem_cons.mpr ⟨spellable_mergeCall merged, List.forall_mem_singleton.mpr rfl⟩

theorem spellable_countCalls (table : String) {conditions : Conditions} {r : Related}
    (about : conditions.isSpellable zone = true) (related : r.isSpellable zone = true) :
    ∀ c ∈ countCalls table conditions r, c.isSpellable zone = true := by
  obtain ⟨others, _⟩ := Bool.and_eq_true_iff.mp related
  obtain ⟨joins, merged⟩ := Bool.and_eq_true_iff.mp others
  have linked : ∀ c ∈ (r.merge.map mergeCall).toList, c.isSpellable zone = true := by
    cases found : r.merge with
    | none => simp
    | some m =>
      rw [found] at merged
      exact List.forall_mem_singleton.mpr (spellable_mergeCall merged)
  unfold countCalls
  simp only [List.cons_append, List.forall_mem_cons, List.forall_mem_append]
  exact ⟨rfl, ⟨⟨spellable_joinsFrom joins 1, linked⟩, spellable_filterCalls table about related⟩,
    spellable_existingCalls table related⟩

theorem spellable_associatedCalls (a : Association) (columns : List String) {parents : List Value}
    (spellable : Sql.datesFit zone (.array parents) = true) :
    ∀ c ∈ associatedCalls a columns parents, c.isSpellable zone = true := by
  have keys : ∀ names : List String, (JoinKeys.ofColumns names).isSpellable zone = true := by
    simp [JoinKeys.ofColumns, JoinKeys.isSpellable, JoinKeys.sides, JoinSide.isSpellable]
  have filtered : (Conditions.empty.eq a.parentColumn (.array parents)).isSpellable zone = true := by
    simpa [Conditions.isSpellable, Conditions.empty, Conditions.eq, Conditions.set, Columns.set, Conditions.every,
      Conditions.combinatorsEvery, Test.isSpellable] using spellable
  simp [associatedCalls, Call.isSpellable, keys, filtered]

end Select

section
variable {zone : Zone} {conditions : Conditions} {r : Related} {fault : Fault}

theorem fault_of_findSql {columns : List String} {table : String} {s : Shape}
    (about : conditions.isSpellable zone = true) (related : r.isSpellable zone = true)
    (failed : findSql zone columns table conditions r s = .error fault) : fault.isConstruction = true :=
  Select.fault_of_written (Select.spellable_findCalls columns table s about related)
    (fun _ made unwritten => Select.fault_of_build made unwritten) failed

theorem fault_of_countSql {table : String} (about : conditions.isSpellable zone = true)
    (related : r.isSpellable zone = true) (failed : countSql zone table conditions r = .error fault) :
    fault.isConstruction = true :=
  Select.fault_of_written (Select.spellable_countCalls table about related)
    (fun _ made unwritten => Select.fault_of_buildCount made unwritten) failed

theorem fault_of_associatedSql {a : Association} {columns : List String} {parents : List Value}
    (spellable : Sql.datesFit zone (.array parents) = true) (failed : associatedSql zone a columns parents = .error fault) :
    fault.isConstruction = true :=
  Select.fault_of_written (Select.spellable_associatedCalls a columns spellable)
    (fun _ made unwritten => Select.fault_of_build made unwritten) failed

end

end QueryKit
