import QueryKit.Proofs.AdapterRuns

-- What an adapter overrides when it is added. It is kept under the name as it was given, and asking for a name
-- follows the aliases first.

namespace QueryKit
namespace Adapters

theorem not_alias_of_follow {aliases : Sorted String} {n : Nat} {name canonical : String}
    (ends : follow aliases n name = some canonical) : Sorted.get? canonical aliases = none := by
  induction n generalizing name with
  | zero => cases ends
  | succ n ih =>
    cases found : Sorted.get? name aliases with
    | none =>
      rw [follow, found] at ends
      cases ends
      exact found
    | some target =>
      rw [follow, found] at ends
      exact ih ends

theorem not_alias_of_resolve {a : Adapters} {name canonical : String} (named : a.resolve name = .ok canonical) :
    ¬ a.IsAlias canonical := by
  unfold resolve at named
  split at named
  · cases named
    rename_i ends
    exact not_not_intro (not_alias_of_follow ends)
  · cases named

theorem resolve_self_iff (a : Adapters) (name : String) : a.resolve name = .ok name ↔ ¬ a.IsAlias name :=
  ⟨not_alias_of_resolve, resolve_canonical⟩

def given (a : Adapters) (name : String) : Except Fault Adapter := (a.get name).map (·.1)

theorem given_add_of_stands {a : Adapters} {name other : String} (stands : a.resolve other = .ok name)
    (adapter : Adapter) : (a.add name adapter).given other = .ok adapter := by
  have same : (a.add name adapter).resolve other = .ok name := stands
  have there : Sorted.get? name (a.add name adapter).known = some adapter := by
    rw [add, Sorted.get?_insert, if_pos rfl]
  simp [given, get, same, there, bind, Except.bind, Except.map]

theorem given_add_of_not {a : Adapters} {name other : String} (apart : a.resolve other ≠ .ok name)
    (adapter : Adapter) : (a.add name adapter).given other = a.given other := by
  have same : (a.add name adapter).resolve other = a.resolve other := rfl
  have count : (a.add name adapter).built = a.built := rfl
  cases named : a.resolve other with
  | error fault => simp [given, get, same, named, bind, Except.bind]
  | ok canonical =>
    have differ : name ≠ canonical := by
      rintro rfl
      exact apart named
    have known : Sorted.get? canonical (a.add name adapter).known = Sorted.get? canonical a.known := by
      rw [add, Sorted.get?_insert, if_neg differ]
    have loaders : Sorted.get? canonical (a.add name adapter).loaders = Sorted.get? canonical a.loaders := by
      rw [add, get?_without, if_neg differ]
    simp only [given, get, same, named, known, loaders, count, bind, Except.bind]
    cases Sorted.get? canonical a.known with
    | some kept => rfl
    | none => cases Sorted.get? canonical a.loaders <;> rfl

def custom : Adapter := { Adapter.postgres with name := "custom" }

-- In every run an added adapter is what every name gives that stands for the name it was added under, and no other
-- name gives anything else than before. So it overrides what its own name gave, whatever was registered, built or
-- kept there, exactly when the name was never made an alias.
theorem override_iff (calls : List AdapterCall) (name : String) :
    (∀ adapter other, ((empty.run calls).resolve other = .ok name →
        ((empty.run calls).add name adapter).given other = .ok adapter) ∧
      ((empty.run calls).resolve other ≠ .ok name →
        ((empty.run calls).add name adapter).given other = (empty.run calls).given other)) ∧
    ((∀ adapter, ((empty.run calls).add name adapter).given name = .ok adapter) ↔
      ∀ target, .addAlias name target ∉ calls) := by
  refine ⟨fun adapter other => ⟨(given_add_of_stands · adapter), (given_add_of_not · adapter)⟩, ?_⟩
  have never : (∀ target, .addAlias name target ∉ calls) ↔ (empty.run calls).resolve name = .ok name := by
    rw [resolve_self_iff, isAlias_of_run, not_exists]
  rw [never]
  constructor
  · intro overrides
    refine Classical.byContradiction fun aliased => ?_
    have first := given_add_of_not aliased custom
    have second := given_add_of_not aliased .postgres
    rw [overrides] at first second
    have same := congrArg (Except.map Adapter.name) (first.trans second.symm)
    simp [Except.map, custom, Adapter.postgres] at same
  · exact given_add_of_stands

-- The default registration, its adapter made and then overridden.
theorem postgres_overridden :
    (∀ target, .addAlias "postgres" target ∉
      [.addLoader "postgres" fun _ => .postgres, .addAlias "pg" "postgres", AdapterCall.get "pg"]) ∧
    ((empty.run [.addLoader "postgres" fun _ => .postgres, .addAlias "pg" "postgres", .get "pg"]).add
      "postgres" custom).given "postgres" = .ok custom ∧
    ((empty.run [.addLoader "postgres" fun _ => .postgres, .addAlias "pg" "postgres", .get "pg"]).add
      "postgres" custom).given "pg" = .ok custom :=
  have never : ∀ target, .addAlias "postgres" target ∉
      [.addLoader "postgres" fun _ => .postgres, .addAlias "pg" "postgres", AdapterCall.get "pg"] := by simp
  have overrides := override_iff [.addLoader "postgres" fun _ => .postgres, .addAlias "pg" "postgres", .get "pg"] "postgres"
  ⟨never, overrides.2.mpr never custom, (overrides.1 custom "pg").1 rfl⟩

-- Nothing overrides the adapter behind a default alias under the alias.
theorem pg_kept : (defaults.add "pg" custom).given "pg" = .ok .postgres ∧
    (defaults.add "pg" custom).given "pg" ≠ .ok custom := by
  have kept : (defaults.add "pg" custom).given "pg" = .ok .postgres := rfl
  refine ⟨kept, ?_⟩
  intro overridden
  have same := congrArg (Except.map Adapter.name) (kept.symm.trans overridden)
  simp [Except.map, Adapter.postgres, custom] at same

end Adapters
end QueryKit
