import QueryKit.Adapters

-- Adapters by the calls that led to them. What a name gives is what was registered under it last. A loader runs
-- when its adapter is first asked for, and what it makes is kept until something else is registered.

namespace QueryKit

inductive AdapterCall where
  | add (name : String) (adapter : Adapter)
  | addLoader (name : String) (loader : Loader)
  | addAlias (name target : String)
  | get (name : String)

def AdapterCall.registers? : AdapterCall → Option String
  | .add name _ | .addLoader name _ => some name
  | .addAlias .. | .get _ => none

namespace Adapters

def perform (a : Adapters) : AdapterCall → Adapters
  | .add name adapter => a.add name adapter
  | .addLoader name loader => a.addLoader name loader
  | .addAlias name target => a.addAlias name target
  | .get name =>
    match a.get name with
    | .ok (_, after) => after
    | .error _ => a

def run (a : Adapters) (calls : List AdapterCall) : Adapters := calls.foldl perform a

-- The loader that a call runs, by the name it is registered under and the number of adapters built before. A
-- loader has run when there is one more of them.
def loads (a : Adapters) : AdapterCall → List (String × Nat)
  | .get name =>
    if (a.perform (.get name)).built.length = a.built.length then []
    else match a.resolve name with
      | .ok canonical => [(canonical, a.built.length)]
      | .error _ => []
  | _ => []

def loadsAll (a : Adapters) : List AdapterCall → List (String × Nat)
  | [] => []
  | c :: r => a.loads c ++ (a.perform c).loadsAll r

inductive Finds (a : Adapters) (name : String) : Except Fault (Adapter × Adapters) → Prop where
  | circular {fault : Fault} (lost : a.resolve name = .error fault) : Finds a name (.error fault)
  | known {canonical : String} {adapter : Adapter} (named : a.resolve name = .ok canonical)
      (there : Sorted.get? canonical a.known = some adapter) : Finds a name (.ok (adapter, a))
  | built {canonical : String} {loader : Loader} (named : a.resolve name = .ok canonical)
      (missing : Sorted.get? canonical a.known = none) (there : Sorted.get? canonical a.loaders = some loader) :
      Finds a name (.ok (loader a.built.length, { a with
        known := Sorted.insert canonical (loader a.built.length) a.known
        built := a.built ++ [loader a.built.length] }))
  | unknown {canonical : String} (named : a.resolve name = .ok canonical)
      (missing : Sorted.get? canonical a.known = none) (unloaded : Sorted.get? canonical a.loaders = none) :
      Finds a name (.error (.unknownAdapter name))

theorem get_finds (a : Adapters) (name : String) : a.Finds name (a.get name) := by
  unfold get
  cases named : a.resolve name with
  | error fault => exact .circular named
  | ok canonical =>
    cases there : Sorted.get? canonical a.known with
    | some adapter => simpa [bind, Except.bind, there] using Finds.known named there
    | none =>
      cases loaded : Sorted.get? canonical a.loaders with
      | some loader => simpa [bind, Except.bind, there, loaded] using Finds.built named there loaded
      | none => simpa [bind, Except.bind, there, loaded] using Finds.unknown named there loaded

inductive Step (a : Adapters) : AdapterCall → List (String × Nat) → Adapters → Prop where
  | added (name : String) (adapter : Adapter) : Step a (.add name adapter) [] (a.add name adapter)
  | registered (name : String) (loader : Loader) : Step a (.addLoader name loader) [] (a.addLoader name loader)
  | aliased (name target : String) : Step a (.addAlias name target) [] (a.addAlias name target)
  | kept (name : String) : Step a (.get name) [] a
  | built (name : String) {canonical : String} {loader : Loader} (missing : Sorted.get? canonical a.known = none)
      (there : Sorted.get? canonical a.loaders = some loader) :
      Step a (.get name) [(canonical, a.built.length)] { a with
        known := Sorted.insert canonical (loader a.built.length) a.known
        built := a.built ++ [loader a.built.length] }

theorem perform_step (a : Adapters) (c : AdapterCall) : a.Step c (a.loads c) (a.perform c) := by
  cases c with
  | add name adapter => exact .added name adapter
  | addLoader name loader => exact .registered name loader
  | addAlias name target => exact .aliased name target
  | get name =>
    have finds := a.get_finds name
    generalize given : a.get name = result at finds
    cases finds with
    | circular | known | unknown => simpa [loads, perform, given] using Step.kept (a := a) name
    | built named missing there => simpa [loads, perform, given, named] using Step.built name missing there

def under (name : String) (ran : List (String × Nat)) : List Nat := (ran.filter (·.1 == name)).map (·.2)

theorem under_append (name : String) (before after : List (String × Nat)) :
    under name (before ++ after) = under name before ++ under name after := by
  simp [under]

section
variable {a b : Adapters} {c : AdapterCall} {name : String} {loader : Loader} {ran loaded : List (String × Nat)}

theorem loaders_of_step (step : a.Step c loaded b) (other : c.registers? ≠ some name) :
    Sorted.get? name b.loaders = Sorted.get? name a.loaders := by
  cases step with
  | added n adapter =>
    have apart : n ≠ name := fun same => other (congrArg some same)
    rw [add, get?_without, if_neg apart]
  | registered n loader =>
    have apart : n ≠ name := fun same => other (congrArg some same)
    rw [addLoader, Sorted.get?_insert, if_neg apart]
  | aliased | kept | built => rfl

theorem known_of_step (step : a.Step c loaded b) (other : c.registers? ≠ some name) (quiet : under name loaded = []) :
    Sorted.get? name b.known = Sorted.get? name a.known := by
  cases step with
  | added n adapter =>
    have apart : n ≠ name := fun same => other (congrArg some same)
    rw [add, Sorted.get?_insert, if_neg apart]
  | registered n loader =>
    have apart : n ≠ name := fun same => other (congrArg some same)
    rw [addLoader, get?_without, if_neg apart]
  | aliased | kept => rfl
  | @built _ canonical =>
    have apart : canonical ≠ name := by
      rintro rfl
      simp [under] at quiet
    rw [Sorted.get?_insert, if_neg apart]

theorem kept_of_step {adapter : Adapter} (step : a.Step c loaded b) (other : c.registers? ≠ some name)
    (there : Sorted.get? name a.known = some adapter) : Sorted.get? name b.known = some adapter := by
  by_cases quiet : under name loaded = []
  · rw [known_of_step step other quiet, there]
  · cases step with
    | added | registered | aliased | kept => exact absurd rfl quiet
    | @built _ canonical _ missing =>
      have apart : canonical ≠ name := by
        rintro rfl
        cases missing.symm.trans there
      simp [under, apart] at quiet

def Knows (name : String) (a : Adapters) : Prop :=
  Sorted.get? name a.known ≠ none ∨ Sorted.get? name a.loaders ≠ none

theorem knows_of_step (name : String) (step : a.Step c loaded b) :
    b.Knows name ↔ a.Knows name ∨ c.registers? = some name := by
  unfold Knows
  cases step with
  | added n adapter => by_cases same : n = name <;> simp [add, Sorted.get?_insert, get?_without, AdapterCall.registers?, same]
  | registered n loader =>
    by_cases same : n = name <;> simp [addLoader, Sorted.get?_insert, get?_without, AdapterCall.registers?, same]
  | aliased n target => simp [addAlias, AdapterCall.registers?]
  | kept n => simp [AdapterCall.registers?]
  | @built n canonical _ missing there =>
    by_cases same : canonical = name
    · subst same
      simp [Sorted.get?_insert, there, AdapterCall.registers?]
    · simp [Sorted.get?_insert, same, AdapterCall.registers?]

def IsAlias (name : String) (a : Adapters) : Prop := Sorted.get? name a.aliases ≠ none

theorem isAlias_of_step (name : String) (step : a.Step c loaded b) :
    b.IsAlias name ↔ a.IsAlias name ∨ ∃ target, c = .addAlias name target := by
  unfold IsAlias
  cases step with
  | aliased n target => by_cases same : n = name <;> simp [addAlias, Sorted.get?_insert, same]
  | added | registered | kept | built => simp [add, addLoader]

theorem built_of_step (step : a.Step c loaded b) :
    b.built.length = a.built.length + loaded.length ∧ loaded.map (·.2) = List.range' a.built.length loaded.length := by
  cases step with
  | added | registered | aliased | kept => exact ⟨rfl, rfl⟩
  | built => exact ⟨List.length_append, rfl⟩

-- What became of a loader since it was registered under a name, by the loaders that ran since. While the name
-- has one, it is this one, and what is kept under the name was made by its only run.
structure Since (name : String) (loader : Loader) (ran : List (String × Nat)) (a : Adapters) : Prop where
  own : ∀ other, Sorted.get? name a.loaders = some other → other = loader ∧
    ∀ adapter, Sorted.get? name a.known = some adapter → ∃ number, adapter = loader number ∧ under name ran = [number]
  fresh : Sorted.get? name a.known = none → under name ran = []
  once : (under name ran).length ≤ 1

theorem since_registered (name : String) (loader : Loader) (a : Adapters) : (a.addLoader name loader).Since name loader [] := by
  have gone : Sorted.get? name (a.addLoader name loader).known = none := by
    rw [addLoader, get?_without, if_pos rfl]
  refine ⟨?_, fun _ => rfl, Nat.zero_le 1⟩
  intro other there
  rw [addLoader, Sorted.get?_insert, if_pos rfl] at there
  refine ⟨(Option.some.inj there).symm, ?_⟩
  intro adapter kept
  cases gone.symm.trans kept

theorem Since.step (since : a.Since name loader ran) (step : a.Step c loaded b) (last : ∀ other, c ≠ .addLoader name other) :
    b.Since name loader (ran ++ loaded) := by
  by_cases own : c.registers? = some name
  · -- An adapter in the place of the loader.
    cases step with
    | added n adapter =>
      cases own
      refine ⟨?_, ?_, ?_⟩
      · intro other there
        rw [add, get?_without, if_pos rfl] at there
        cases there
      · intro missing
        rw [add, Sorted.get?_insert, if_pos rfl] at missing
        cases missing
      · rw [List.append_nil]
        exact since.once
    | registered n other =>
      cases own
      exact absurd rfl (last other)
    | aliased | kept | built => cases own
  · by_cases quiet : under name loaded = []
    · have same : under name (ran ++ loaded) = under name ran := by rw [under_append, quiet, List.append_nil]
      refine ⟨?_, ?_, ?_⟩
      · rw [loaders_of_step step own, known_of_step step own quiet, same]
        exact since.own
      · rw [known_of_step step own quiet, same]
        exact since.fresh
      · rw [same]
        exact since.once
    · cases step with
      | added | registered | aliased | kept => exact absurd rfl quiet
      | @built _ canonical runner missing there =>
        have same : canonical = name := Decidable.byContradiction fun apart => quiet (by simp [under, apart])
        subst same
        obtain ⟨rfl, _⟩ := since.own runner there
        have alone : under canonical (ran ++ [(canonical, a.built.length)]) = [a.built.length] := by
          rw [under_append, since.fresh missing]
          simp [under]
        refine ⟨?_, ?_, ?_⟩
        · intro other again
          cases there.symm.trans again
          refine ⟨rfl, ?_⟩
          intro adapter kept
          rw [Sorted.get?_insert, if_pos rfl] at kept
          exact ⟨_, (Option.some.inj kept).symm, alone⟩
        · intro gone
          rw [Sorted.get?_insert, if_pos rfl] at gone
          cases gone
        · rw [alone]
          exact Nat.le_refl 1

end

theorem run_cons (a : Adapters) (c : AdapterCall) (r : List AdapterCall) : a.run (c :: r) = (a.perform c).run r := rfl

theorem run_append (a : Adapters) (first second : List AdapterCall) : a.run (first ++ second) = (a.run first).run second :=
  List.foldl_append

theorem run_iff {p : Adapters → Prop} {q : AdapterCall → Prop} (step : ∀ a c, p (a.perform c) ↔ p a ∨ q c)
    (a : Adapters) (calls : List AdapterCall) : p (a.run calls) ↔ p a ∨ ∃ c ∈ calls, q c := by
  induction calls generalizing a with
  | nil => simp [run]
  | cons c r ih =>
    rw [run_cons, ih, step, or_assoc]
    simp

theorem run_kept {p : Adapters → Prop} {calls : List AdapterCall} (step : ∀ a, ∀ c ∈ calls, p a → p (a.perform c))
    {a : Adapters} (start : p a) : p (a.run calls) := by
  induction calls generalizing a with
  | nil => exact start
  | cons c r ih =>
    exact ih (fun a c member => step a c (List.mem_cons_of_mem _ member)) (step a c List.mem_cons_self start)

theorem loadsAll_append (a : Adapters) (first second : List AdapterCall) :
    a.loadsAll (first ++ second) = a.loadsAll first ++ (a.run first).loadsAll second := by
  induction first generalizing a with
  | nil => rfl
  | cons c r ih => rw [List.cons_append, loadsAll, ih, loadsAll, List.append_assoc, run_cons]

theorem Since.run {a : Adapters} {name : String} {loader : Loader} {ran : List (String × Nat)}
    (since : a.Since name loader ran) {calls : List AdapterCall}
    (last : ∀ c ∈ calls, ∀ other, c ≠ .addLoader name other) : (a.run calls).Since name loader (ran ++ a.loadsAll calls) := by
  induction calls generalizing a ran with
  | nil =>
    rw [loadsAll, List.append_nil]
    exact since
  | cons c r ih =>
    have first := since.step (a.perform_step c) (last c List.mem_cons_self)
    rw [loadsAll, ← List.append_assoc]
    exact ih first fun c member => last c (List.mem_cons_of_mem _ member)

theorem built_of_run (a : Adapters) (calls : List AdapterCall) :
    (a.run calls).built.length = a.built.length + (a.loadsAll calls).length ∧
      (a.loadsAll calls).map (·.2) = List.range' a.built.length (a.loadsAll calls).length := by
  induction calls generalizing a with
  | nil => exact ⟨rfl, rfl⟩
  | cons c r ih =>
    obtain ⟨count, numbers⟩ := built_of_step (a.perform_step c)
    obtain ⟨rest, later⟩ := ih (a.perform c)
    rw [run_cons, loadsAll, rest, count, List.map_append, numbers, later, List.length_append, count]
    exact ⟨Nat.add_assoc _ _ _, List.range'_append_1⟩

theorem resolve_canonical {a : Adapters} {name : String} (canonical : ¬ a.IsAlias name) : a.resolve name = .ok name := by
  have last : Sorted.get? name a.aliases = none := Decidable.not_not.mp canonical
  simp [resolve, follow, last]

theorem get_of_knows {a : Adapters} {name : String} (canonical : ¬ a.IsAlias name) (knows : a.Knows name) :
    ∃ adapter after, a.get name = .ok (adapter, after) ∧ Sorted.get? name after.known = some adapter := by
  have finds := a.get_finds name
  have named := resolve_canonical canonical
  generalize given : a.get name = result at finds
  cases finds with
  | circular lost => cases named.symm.trans lost
  | known stands there =>
    cases named.symm.trans stands
    exact ⟨_, _, rfl, there⟩
  | built stands missing there =>
    cases named.symm.trans stands
    exact ⟨_, _, rfl, by rw [Sorted.get?_insert, if_pos rfl]⟩
  | unknown stands missing unloaded =>
    cases named.symm.trans stands
    rcases knows with known | loader
    · exact absurd missing known
    · exact absurd unloaded loader

theorem Since.given {a : Adapters} {name : String} {loader : Loader} {ran : List (String × Nat)}
    (since : a.Since name loader ran) (there : Sorted.get? name a.loaders = some loader) (canonical : ¬ a.IsAlias name) :
    ∃ number, (a.get name).map (·.1) = .ok (loader number) ∧ under name (ran ++ a.loads (.get name)) = [number] := by
  obtain ⟨adapter, last, found, known⟩ := get_of_knows canonical (.inr (by simp [there]))
  have asked : a.perform (.get name) = last := by simp [perform, found]
  have step := asked ▸ a.perform_step (.get name)
  have left : Sorted.get? name last.loaders = some loader := (loaders_of_step step (by simp [AdapterCall.registers?])).trans there
  obtain ⟨number, rfl, alone⟩ := ((since.step step fun _ => by simp).own loader left).2 adapter known
  exact ⟨number, by rw [found]; rfl, alone⟩

theorem mem_names (a : Adapters) (name : String) : name ∈ a.names ↔ a.Knows name := by
  have listed {α : Type} (entries : Sorted α) : (∃ p ∈ entries.map (fun e => (e.1, ())), p.1 = name) ↔
      Sorted.get? name entries ≠ none := by
    rw [Ne, Sorted.get?_eq_none_iff, Decidable.not_not]
    simp [Sorted.names]
  rw [names, Sorted.mem_names_ofPairs, Knows, ← listed, ← listed]
  simp only [List.mem_append, or_and_right, exists_or]

theorem names_nodup (a : Adapters) : a.names.Nodup :=
  (Sorted.ascending_ofPairs _).imp fun before => String.ne_of_lt before

theorem contains_eq (a : Adapters) (name : String) : a.contains name = (a.get name).toBool := by
  have finds := a.get_finds name
  generalize a.get name = result at finds
  cases finds with
  | circular lost => simp [contains, lost, Except.toBool]
  | known named there => simp [contains, named, there, Except.toBool]
  | built named missing there => simp [contains, named, there, Except.toBool]
  | unknown named missing unloaded => simp [contains, named, missing, unloaded, Except.toBool]

-- What adapters are there, and what asking for them does, by the calls that were made.
structure Follows (calls : List AdapterCall) (a : Adapters) : Prop where
  added : ∀ before name adapter after, calls = before ++ .add name adapter :: after →
    (∀ c ∈ after, c.registers? ≠ some name) → ¬ a.IsAlias name → a.get name = .ok (adapter, a)
  loaded : ∀ before name loader after, calls = before ++ .addLoader name loader :: after →
    (∀ c ∈ after, c.registers? ≠ some name) → ¬ a.IsAlias name →
    ∃ number, (a.get name).map (·.1) = .ok (loader number) ∧
      under name ((empty.run (before ++ [.addLoader name loader])).loadsAll (after ++ [.get name])) = [number]
  unknown : ∀ name, (∀ c ∈ calls, c.registers? ≠ some name) → ¬ a.IsAlias name →
    a.get name = .error (.unknownAdapter name)
  once : ∀ before name loader after, calls = before ++ .addLoader name loader :: after →
    (∀ c ∈ after, ∀ other, c ≠ .addLoader name other) →
    (under name ((empty.run (before ++ [.addLoader name loader])).loadsAll after)).length ≤ 1
  numbered : (empty.loadsAll calls).map (·.2) = List.range a.built.length
  lazy : ∀ c, (∀ name, c ≠ .get name) → (a.perform c).built = a.built
  contains : ∀ name, a.contains name = (a.get name).toBool
  distinct : a.names.Nodup
  names : ∀ name, (name ∈ a.names ↔ a.Knows name) ∧ (a.Knows name ↔ ∃ c ∈ calls, c.registers? = some name)

theorem isAlias_of_run (calls : List AdapterCall) (name : String) :
    (empty.run calls).IsAlias name ↔ ∃ target, .addAlias name target ∈ calls := by
  have unaliased : ¬ empty.IsAlias name := by simp [IsAlias, empty, Sorted.get?]
  rw [run_iff (fun a c => isAlias_of_step name (a.perform_step c)), or_iff_right unaliased]
  constructor
  · rintro ⟨_, member, target, rfl⟩
    exact ⟨target, member⟩
  · rintro ⟨target, member⟩
    exact ⟨_, member, target, rfl⟩

theorem knows_of_run (calls : List AdapterCall) (name : String) :
    (empty.run calls).Knows name ↔ ∃ c ∈ calls, c.registers? = some name := by
  have unknown : ¬ empty.Knows name := by simp [Knows, empty, Sorted.get?]
  rw [run_iff (fun a c => knows_of_step name (a.perform_step c)), or_iff_right unknown]

-- In every run a name that is no alias gives what was registered under it last: the adapter, or the one that the
-- loader makes in its only run. No loader runs twice, and none before its adapter is asked for.
theorem adapters_follow (calls : List AdapterCall) : Follows calls (empty.run calls) := by
  constructor
  case added =>
    rintro before name adapter after rfl other canonical
    have named := resolve_canonical canonical
    have there : Sorted.get? name (empty.run (before ++ .add name adapter :: after)).known = some adapter := by
      rw [run_append, run_cons]
      apply run_kept fun a c member => kept_of_step (a.perform_step c) (other c member)
      rw [perform, add, Sorted.get?_insert, if_pos rfl]
    simp [get, named, there, bind, Except.bind]
  case loaded =>
    rintro before name loader after rfl other canonical
    -- The run from the registration on, and the call that asks for its adapter.
    have start : empty.run (before ++ [.addLoader name loader]) = (empty.run before).addLoader name loader := run_append ..
    have there : Sorted.get? name ((empty.run before).addLoader name loader).loaders = some loader := by
      rw [addLoader, Sorted.get?_insert, if_pos rfl]
    have since := (since_registered name loader (empty.run before)).run fun c member last same =>
      other c member (by rw [same]; rfl)
    have kept := run_kept (fun a c member there => (loaders_of_step (a.perform_step c) (other c member)).trans there) there
    rw [run_append, run_cons, perform] at canonical ⊢
    rw [start, loadsAll_append]
    simpa [loadsAll] using since.given kept canonical
  case unknown =>
    intro name other canonical
    have named := resolve_canonical canonical
    have strange : ¬ (empty.run calls).Knows name := by
      rw [knows_of_run]
      rintro ⟨c, member, same⟩
      exact other c member same
    obtain ⟨missing, unloaded⟩ := not_or.mp strange
    simp [get, named, Decidable.not_not.mp missing, Decidable.not_not.mp unloaded, bind, Except.bind]
  case once =>
    rintro before name loader after rfl last
    have since := (since_registered name loader (empty.run before)).run last
    rw [run_append]
    exact since.once
  case numbered =>
    obtain ⟨count, numbers⟩ := built_of_run empty calls
    rw [numbers, count, List.range_eq_range']
    simp [empty]
  case lazy =>
    intro c other
    cases c with
    | add | addLoader | addAlias => rfl
    | get name => exact absurd rfl (other name)
  case contains => exact contains_eq _
  case distinct => exact names_nodup _
  case names => exact fun name => ⟨mem_names _ name, knows_of_run calls name⟩

def tagged : Loader := fun number => { Adapter.postgres with name := s!"adapter {number}" }

-- Asked for twice, the first time by an alias, a lazily made adapter is made once.
theorem lazyAdapter_loaded :
    ¬ (empty.run [.addLoader "lazy" tagged, .addAlias "l" "lazy", .get "l"]).IsAlias "lazy" ∧
    ∃ number, ((empty.run [.addLoader "lazy" tagged, .addAlias "l" "lazy", .get "l"]).get "lazy").map (·.1) =
        .ok (tagged number) ∧
      under "lazy" ((empty.run [.addLoader "lazy" tagged]).loadsAll [.addAlias "l" "lazy", .get "l", .get "lazy"]) = [number] :=
  have canonical : ¬ (empty.run [.addLoader "lazy" tagged, .addAlias "l" "lazy", .get "l"]).IsAlias "lazy" :=
    not_not_intro rfl
  ⟨canonical, (adapters_follow _).loaded [] "lazy" tagged [.addAlias "l" "lazy", .get "l"] rfl (by decide) canonical⟩

theorem run_defaults : empty.run [.addLoader "postgres" fun _ => .postgres, .addAlias "postgresql" "postgres",
    .addAlias "pg" "postgres"] = defaults := rfl

end Adapters

end QueryKit
