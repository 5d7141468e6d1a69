import Mathlib.Data.List.Perm.Subperm
import Mathlib.Logic.Relation
import QueryKit.Proofs.AdapterOverrides

-- What a name stands for. A walk from alias to target that remembers the names it has left ends for all aliases
-- there can be: at a name that is none, or back at a name that it has left.

namespace QueryKit
namespace Adapters

-- A walk on its way: the names that it has left, and the one that it is at.
structure Walk where
  left : List String
  here : String

-- One name leads to another along any number of aliases, none included.
def Leads (aliases : Sorted String) : String → String → Prop :=
  Relation.ReflTransGen fun name target => Sorted.get? name aliases = some target

namespace Walk

def turn (aliases : Sorted String) (asked : String) (w : Walk) : Walk ⊕ Except Fault String :=
  match Sorted.get? w.here aliases with
  | none => .inr (.ok w.here)
  | some target =>
    if w.here ∈ w.left then .inr (.error (.aliasCycle asked)) else .inl ⟨w.here :: w.left, target⟩

def run (aliases : Sorted String) (asked : String) : Nat → Walk → Option (Except Fault String)
  | 0, _ => none
  | n + 1, w =>
    match w.turn aliases asked with
    | .inl next => run aliases asked n next
    | .inr result => some result

end Walk

inductive Answers (aliases : Sorted String) (asked : String) : Except Fault String → Prop where
  | canonical {name : String} (leads : Leads aliases asked name) (last : Sorted.get? name aliases = none) :
      Answers aliases asked (.ok name)
  | circular (endless : ∀ name, Leads aliases asked name → Sorted.get? name aliases ≠ none) :
      Answers aliases asked (.error (.aliasCycle asked))

-- Every name that was left is an alias, and its target was left too or is where the walk is.
structure Walk.Sound (aliases : Sorted String) (asked : String) (w : Walk) : Prop where
  came : Leads aliases asked w.here
  started : asked = w.here ∨ asked ∈ w.left
  onward : ∀ name ∈ w.left, ∃ target, Sorted.get? name aliases = some target ∧ (target = w.here ∨ target ∈ w.left)
  distinct : w.left.Nodup

section
variable {aliases : Sorted String} {asked name other : String} {w next : Walk} {result : Except Fault String} {n : Nat}

theorem leads_unique (first : Leads aliases asked name) (second : Leads aliases asked other)
    (last : Sorted.get? name aliases = none) (final : Sorted.get? other aliases = none) : name = other := by
  have determined : Relator.RightUnique fun name target => Sorted.get? name aliases = some target := by
    intro name target again here there
    exact Option.some.inj (here.symm.trans there)
  have stops {name other : String} (last : Sorted.get? name aliases = none) (leads : Leads aliases name other) :
      name = other := by
    rcases leads.cases_head with same | ⟨target, found, _⟩
    · exact same
    · cases last.symm.trans found
  rcases first.total_of_right_unique determined second with forth | back
  · exact stops last forth
  · exact (stops final back).symm

theorem answers_unique {again : Except Fault String} (first : Answers aliases asked result)
    (second : Answers aliases asked again) : result = again := by
  cases first with
  | canonical leads last =>
    cases second with
    | canonical reaches final => exact congrArg Except.ok (leads_unique leads reaches last final)
    | circular endless => exact absurd last (endless _ leads)
  | circular endless =>
    cases second with
    | canonical reaches final => exact absurd final (endless _ reaches)
    | circular => rfl

namespace Walk

theorem sound_start (aliases : Sorted String) (asked : String) : Sound aliases asked ⟨[], asked⟩ :=
  ⟨.refl, .inl rfl, by simp, List.nodup_nil⟩

theorem turn_cases (aliases : Sorted String) (asked : String) (w : Walk) :
    (Sorted.get? w.here aliases = none ∧ w.turn aliases asked = .inr (.ok w.here)) ∨
    ∃ target, Sorted.get? w.here aliases = some target ∧
      ((w.here ∈ w.left ∧ w.turn aliases asked = .inr (.error (.aliasCycle asked))) ∨
        (w.here ∉ w.left ∧ w.turn aliases asked = .inl ⟨w.here :: w.left, target⟩)) := by
  unfold turn
  cases Sorted.get? w.here aliases with
  | none => exact .inl ⟨rfl, rfl⟩
  | some target =>
    by_cases again : w.here ∈ w.left
    · exact .inr ⟨target, rfl, .inl ⟨again, if_pos again⟩⟩
    · exact .inr ⟨target, rfl, .inr ⟨again, if_neg again⟩⟩

theorem sound_turn (sound : w.Sound aliases asked) (went : w.turn aliases asked = .inl next) :
    next.Sound aliases asked ∧ next.left.length = w.left.length + 1 := by
  rcases turn_cases aliases asked w with ⟨_, ended⟩ | ⟨target, found, ⟨_, ended⟩ | ⟨fresh, moved⟩⟩
  · cases ended.symm.trans went
  · cases ended.symm.trans went
  · cases moved.symm.trans went
    refine ⟨⟨sound.came.tail found, ?_, ?_, List.nodup_cons.mpr ⟨fresh, sound.distinct⟩⟩, rfl⟩
    · rcases sound.started with same | before
      · exact .inr (same ▸ List.mem_cons_self)
      · exact .inr (List.mem_cons_of_mem _ before)
    · refine List.forall_mem_cons.mpr ⟨⟨target, found, .inl rfl⟩, ?_⟩
      intro name before
      obtain ⟨later, leads, place⟩ := sound.onward name before
      exact ⟨later, leads, .inr (List.mem_cons.mpr place)⟩

theorem endless_of_return (sound : w.Sound aliases asked) (again : w.here ∈ w.left) :
    ∀ name, Leads aliases asked name → Sorted.get? name aliases ≠ none := by
  have inside : ∀ name, Leads aliases asked name → name ∈ w.left := by
    intro name leads
    induction leads with
    | refl => exact sound.started.elim (fun same => same ▸ again) id
    | tail _ found before =>
      obtain ⟨target, leads, place⟩ := sound.onward _ before
      cases leads.symm.trans found
      exact place.elim (fun same => same ▸ again) id
  intro name leads last
  obtain ⟨target, found, _⟩ := sound.onward name (inside name leads)
  cases last.symm.trans found

theorem answers_turn (sound : w.Sound aliases asked) (ended : w.turn aliases asked = .inr result) :
    Answers aliases asked result := by
  rcases turn_cases aliases asked w with ⟨last, stopped⟩ | ⟨target, found, ⟨again, stopped⟩ | ⟨_, moved⟩⟩
  · cases stopped.symm.trans ended
    exact .canonical sound.came last
  · cases stopped.symm.trans ended
    exact .circular (endless_of_return sound again)
  · cases moved.symm.trans ended

theorem left_le (sound : w.Sound aliases asked) : w.left.length ≤ aliases.length := by
  have known : w.left ⊆ Sorted.names aliases := by
    intro name before
    obtain ⟨target, found, _⟩ := sound.onward name before
    refine Decidable.not_not.mp fun absent => ?_
    cases ((Sorted.get?_eq_none_iff name aliases).mpr absent).symm.trans found
  have bound := (List.subperm_of_subset sound.distinct known).length_le
  simpa [Sorted.names] using bound

theorem run_answers (sound : w.Sound aliases asked) (enough : aliases.length < w.left.length + n) :
    ∃ result, run aliases asked n w = some result ∧ Answers aliases asked result := by
  induction n generalizing w with
  | zero => exact absurd enough (Nat.not_lt.mpr (left_le sound))
  | succ n ih =>
    cases turned : w.turn aliases asked with
    | inl next =>
      obtain ⟨still, longer⟩ := sound_turn sound turned
      obtain ⟨result, ends, answers⟩ := ih still (by omega)
      exact ⟨result, by rw [run, turned]; exact ends, answers⟩
    | inr result => exact ⟨result, by rw [run, turned], answers_turn sound turned⟩

end Walk

theorem leads_of_follow (ends : follow aliases n name = some other) : Leads aliases name other := by
  induction n generalizing name with
  | zero => cases ends
  | succ n ih =>
    unfold follow at ends
    split at ends
    · cases ends
      exact .refl
    case h_2 target found => exact .head found (ih ends)

theorem follow_of_run (ended : w.run aliases asked n = some (.ok name)) : follow aliases n w.here = some name := by
  induction n generalizing w with
  | zero => cases ended
  | succ n ih =>
    rcases Walk.turn_cases aliases asked w with ⟨last, stopped⟩ | ⟨target, found, ⟨_, stopped⟩ | ⟨_, moved⟩⟩
    · rw [Walk.run, stopped] at ended
      cases ended
      rw [follow, last]
    · rw [Walk.run, stopped] at ended
      cases ended
    · rw [Walk.run, moved] at ended
      rw [follow, found]
      exact ih ended

end

theorem answers_resolve (a : Adapters) (name : String) : Answers a.aliases name (a.resolve name) := by
  obtain ⟨result, ended, answers⟩ := Walk.run_answers (n := a.aliases.length + 1) (Walk.sound_start a.aliases name) (by simp)
  unfold resolve
  cases answers with
  | canonical leads last =>
    rw [follow_of_run ended]
    exact .canonical leads last
  | circular endless =>
    cases reached : follow a.aliases (a.aliases.length + 1) name with
    | none => exact .circular endless
    | some canonical => exact absurd (not_alias_of_follow reached) (endless canonical (leads_of_follow reached))

-- Whatever the aliases are, a walk ends with no more turns than there are aliases and one, and what it comes to is
-- what the name stands for: the name behind its aliases that is none, or, just when every name behind them is one,
-- the fault of the name that was asked for.
theorem resolve_ends (a : Adapters) (name : String) :
    (∀ more, Walk.run a.aliases name (a.aliases.length + 1 + more) ⟨[], name⟩ = some (a.resolve name)) ∧
    (∀ canonical, a.resolve name = .ok canonical ↔ Leads a.aliases name canonical ∧ ¬ a.IsAlias canonical) ∧
    ∀ fault, a.resolve name = .error fault ↔
      fault = .aliasCycle name ∧ ∀ other, Leads a.aliases name other → a.IsAlias other := by
  have own := a.answers_resolve name
  refine ⟨fun more => ?_, fun canonical => ⟨fun named => ?_, fun ⟨leads, last⟩ => ?_⟩,
    fun fault => ⟨fun failed => ?_, fun ⟨same, endless⟩ => ?_⟩⟩
  · obtain ⟨result, ended, answers⟩ := Walk.run_answers (n := a.aliases.length + 1 + more)
      (Walk.sound_start a.aliases name) (by simp; omega)
    rw [ended, answers_unique answers own]
  · rw [named] at own
    cases own with
    | canonical leads last => exact ⟨leads, not_not_intro last⟩
  · exact answers_unique own (.canonical leads (not_not.mp last))
  · rw [failed] at own
    cases own with
    | circular endless => exact ⟨rfl, endless⟩
  · rw [same]
    exact answers_unique own (.circular endless)

-- A name in front of a circle that does not come back to it.
example : (((empty.addAlias "a" "b").addAlias "b" "a").addAlias "c" "a").resolve "c" = .error (.aliasCycle "c") := rfl

end Adapters
end QueryKit
