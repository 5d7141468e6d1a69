import Mathlib.Data.Finset.Card
import QueryKit.Pools
import QueryKit.Proofs.JsonTexts

-- Who shares a pool. The text of settings tells them, so that a pool is found by everyone with its settings and
-- by nobody else, until all pools are forgotten.

namespace QueryKit

namespace Config

theorem optionalJson_injective : Function.Injective optionalJson := by
  intro a b same
  cases a <;> cases b <;> cases same <;> rfl

theorem realFree_optionalJson (s : Option String) : Json.RealFree (optionalJson s) := by
  cases s with
  | none => exact .null
  | some s => exact .text s

theorem realFree_fields (c : Config) : Json.RealFree (.object c.fields) := by
  have params : Json.RealFree (.object (c.params.map fun entry => (entry.1, .text entry.2))) := by
    refine .object fun m member => ?_
    obtain ⟨entry, _, rfl⟩ := List.mem_map.mp member
    exact .text _
  refine .object ?_
  simp only [fields, List.forall_mem_cons, List.not_mem_nil, false_implies, implies_true, and_true]
  exact ⟨.text _, .integer _, .text _, realFree_optionalJson _, realFree_optionalJson _, .bool _, .text _, .integer _, params⟩

theorem fields_injective : Function.Injective fields := by
  intro c d same
  obtain ⟨host, port, database, user, password, ssl, timezone, most, params⟩ := c
  obtain ⟨host', port', database', user', password', ssl', timezone', most', params'⟩ := d
  simp only [fields, List.cons.injEq, Prod.mk.injEq, true_and, and_true, Json.text.injEq, Json.integer.injEq,
    Json.bool.injEq, Json.object.injEq] at same
  obtain ⟨rfl, ports, rfl, users, passwords, rfl, rfl, limits, entries⟩ := same
  have texts : Function.Injective fun entry : String × String => (entry.1, Json.text entry.2) := by
    intro a b same
    obtain ⟨name, value⟩ := Prod.mk.inj same
    exact Prod.ext name (Json.text.inj value)
  cases UInt16.toNat_inj.mp (Int.ofNat.inj ports)
  cases optionalJson_injective users
  cases optionalJson_injective passwords
  cases UInt32.toNat_inj.mp (Int.ofNat.inj limits)
  cases texts.list_map entries
  rfl

theorem key_injective : Function.Injective key := by
  intro c d same
  have chars : Json.chars (.object c.fields) = Json.chars (.object d.fields) := String.ofList_injective same
  exact fields_injective (Json.object.inj (Json.chars_injective c.realFree_fields d.realFree_fields chars))

end Config

inductive PoolCall where
  | getOrCreate (c : Config)
  | contains (c : Config)
  | closeAll

def ask (configs : List Config) : PoolCall → List Config
  | .getOrCreate c => configs ++ [c]
  | .contains _ => configs
  | .closeAll => []

def asked (calls : List PoolCall) : List Config := calls.foldl ask []

namespace Pools

def perform (p : Pools) : PoolCall → Pools
  | .getOrCreate c => (p.getOrCreate c).2
  | .contains _ => p
  | .closeAll => p.closeAll

def run (p : Pools) (calls : List PoolCall) : Pools := calls.foldl perform p

-- Pools of just these settings, each with an id of its own and the limit that its settings have.
structure Serves (configs : List Config) (p : Pools) : Prop where
  known : ∀ c, p.contains c = true ↔ c ∈ configs
  count : p.count = configs.toFinset.card
  apart : ∀ c d a b, p.find? c = some a → p.find? d = some b → a.id = b.id → c = d
  older : ∀ c a, p.find? c = some a → a.id < p.created
  limit : ∀ c a, p.find? c = some a → a.limit = c.maxConnections

section
variable {configs : List Config} {c d : Config} {p : Pools}

theorem contains_of_find? {pool : Pool} (found : p.find? c = some pool) : p.contains c = true := by
  rw [contains, found]
  rfl

theorem getOrCreate_of_some {pool : Pool} (found : p.find? c = some pool) : p.getOrCreate c = (pool, p) := by
  rw [getOrCreate, found]

theorem getOrCreate_of_none (missing : p.find? c = none) : p.getOrCreate c =
    (⟨p.created, c.maxConnections⟩, ⟨Columns.set c.key ⟨p.created, c.maxConnections⟩ p.pools, p.created + 1⟩) := by
  rw [getOrCreate, missing]

theorem find?_after (c d : Config) (p : Pools) :
    (p.getOrCreate c).2.find? d = if c = d then some (p.getOrCreate c).1 else p.find? d := by
  split
  case isTrue same =>
    subst same
    exact find?_getOrCreate c p
  case isFalse other =>
    have keys : c.key ≠ d.key := fun same => other (Config.key_injective same)
    cases found : p.find? c with
    | some pool => rw [getOrCreate_of_some found]
    | none => rw [getOrCreate_of_none found, find?, find?, Columns.get?_set, if_neg keys]

theorem length_set {α : Type} {name : String} (value : α) {columns : Columns α} (missing : columns.get? name = none) :
    (columns.set name value).length = columns.length + 1 := by
  induction columns with
  | nil => rfl
  | cons column r ih =>
    unfold Columns.get? at missing
    split at missing
    case isTrue => cases missing
    case isFalse other => simp [Columns.set, other, ih missing]

theorem count_of_none (missing : p.find? c = none) : (p.getOrCreate c).2.count = p.count + 1 := by
  rw [getOrCreate_of_none missing]
  exact length_set _ missing

theorem serves_none (created : Nat) : Serves [] ⟨[], created⟩ := by
  constructor
  · intro c
    constructor <;> rintro ⟨⟩
  · rfl
  · rintro c d a b ⟨⟩
  · rintro c a ⟨⟩
  · rintro c a ⟨⟩

theorem find?_made (missing : p.find? c = none) {a : Pool} (found : (p.getOrCreate c).2.find? d = some a) :
    (c = d ∧ a = ⟨p.created, c.maxConnections⟩) ∨ p.find? d = some a := by
  rw [find?_after] at found
  split at found
  case isTrue same =>
    rw [getOrCreate_of_none missing] at found
    exact .inl ⟨same, (Option.some.inj found).symm⟩
  case isFalse => exact .inr found

theorem serves_again {pool : Pool} (serves : p.Serves configs) (found : p.find? c = some pool) : p.Serves (configs ++ [c]) := by
  have member : c ∈ configs := (serves.known c).mp (contains_of_find? found)
  refine ⟨?_, ?_, serves.apart, serves.older, serves.limit⟩
  · intro d
    rw [serves.known, List.mem_append, List.mem_singleton]
    constructor
    · exact .inl
    · rintro (before | rfl)
      · exact before
      · exact member
  · rw [serves.count, List.toFinset_append]
    congr 1
    simp [member]

theorem serves_made (serves : p.Serves configs) (missing : p.find? c = none) :
    (p.getOrCreate c).2.Serves (configs ++ [c]) := by
  constructor
  case known =>
    intro d
    rw [contains, find?_after, List.mem_append, List.mem_singleton]
    split
    case isTrue same => simp [same]
    case isFalse other =>
      rw [← contains, serves.known]
      simp [Ne.symm other]
  case count =>
    have unknown : c ∉ configs := by
      rw [← serves.known, contains, missing]
      exact Bool.false_ne_true
    rw [count_of_none missing, serves.count, List.toFinset_append]
    simp [unknown]
  case apart =>
    intro d e a b first second same
    rcases find?_made missing first with ⟨rfl, rfl⟩ | first
    · rcases find?_made missing second with ⟨rfl, rfl⟩ | second
      · rfl
      · exact absurd same (Nat.ne_of_gt (serves.older e b second))
    · rcases find?_made missing second with ⟨rfl, rfl⟩ | second
      · exact absurd same (Nat.ne_of_lt (serves.older d a first))
      · exact serves.apart d e a b first second same
  case older =>
    intro d a found
    rcases find?_made missing found with ⟨rfl, rfl⟩ | before
    all_goals rw [getOrCreate_of_none missing]
    · exact Nat.lt_succ_self _
    · exact Nat.lt_succ_of_lt (serves.older d a before)
  case limit =>
    intro d a found
    rcases find?_made missing found with ⟨rfl, rfl⟩ | before
    · rfl
    · exact serves.limit d a before

theorem serves_getOrCreate (serves : p.Serves configs) (c : Config) : (p.getOrCreate c).2.Serves (configs ++ [c]) := by
  cases found : p.find? c with
  | some pool =>
    rw [getOrCreate_of_some found]
    exact serves_again serves found
  | none => exact serves_made serves found

theorem serves_perform (serves : p.Serves configs) (call : PoolCall) : (p.perform call).Serves (ask configs call) := by
  cases call with
  | getOrCreate c => exact serves_getOrCreate serves c
  | contains c => exact serves
  | closeAll => exact serves_none p.created

theorem serves_run (serves : p.Serves configs) (calls : List PoolCall) : (p.run calls).Serves (calls.foldl ask configs) := by
  induction calls generalizing p configs with
  | nil => exact serves
  | cons call r ih => exact ih (serves_perform serves call)

theorem created_perform (p : Pools) (call : PoolCall) : p.created ≤ (p.perform call).created := by
  cases call with
  | getOrCreate c =>
    cases found : p.find? c with
    | some pool => rw [perform, getOrCreate_of_some found]
    | none =>
      rw [perform, getOrCreate_of_none found]
      exact Nat.le_succ _
  | contains c => exact Nat.le_refl _
  | closeAll => exact Nat.le_refl _

theorem created_run (p : Pools) (calls : List PoolCall) : p.created ≤ (p.run calls).created := by
  induction calls generalizing p with
  | nil => exact Nat.le_refl _
  | cons call r ih => exact Nat.le_trans (created_perform p call) (ih _)

theorem find?_run {pool : Pool} {calls : List PoolCall} (kept : .closeAll ∉ calls) (found : p.find? c = some pool) :
    (p.run calls).find? c = some pool := by
  induction calls generalizing p with
  | nil => exact found
  | cons call r ih =>
    rw [List.mem_cons, not_or] at kept
    apply ih kept.2
    cases call with
    | getOrCreate d =>
      rw [perform, find?_after]
      split
      case isTrue same =>
        subst same
        rw [getOrCreate_of_some found]
      case isFalse => exact found
    | contains d => exact found
    | closeAll => exact absurd rfl kept.1

theorem find?_of_run {pool : Pool} {calls : List PoolCall} (found : (p.run calls).find? c = some pool)
    (old : pool.id < p.created) : .closeAll ∉ calls ∧ p.find? c = some pool := by
  induction calls generalizing p with
  | nil => exact ⟨List.not_mem_nil, found⟩
  | cons call r ih =>
    obtain ⟨kept, there⟩ := ih found (Nat.lt_of_lt_of_le old (created_perform p call))
    cases call with
    | getOrCreate d =>
      refine ⟨by simpa using kept, ?_⟩
      rw [perform, find?_after] at there
      split at there
      case isTrue same =>
        subst same
        cases before : p.find? d with
        | some other =>
          rw [getOrCreate_of_some before] at there
          exact there
        | none =>
          rw [getOrCreate_of_none before] at there
          cases there
          exact absurd old (Nat.lt_irrefl _)
      case isFalse => exact there
    | contains d => exact ⟨by simpa using kept, there⟩
    | closeAll => cases there

theorem same_pool_iff (serves : p.Serves configs) (c d : Config) (between : List PoolCall) :
    (((p.getOrCreate c).2.run between).getOrCreate d).1.id = (p.getOrCreate c).1.id ↔ c = d ∧ .closeAll ∉ between := by
  have served := serves_getOrCreate serves c
  have found := find?_getOrCreate c p
  have old := served.older c _ found
  constructor
  · intro same
    cases there : ((p.getOrCreate c).2.run between).find? d with
    | some pool =>
      rw [getOrCreate_of_some there] at same
      obtain ⟨kept, before⟩ := find?_of_run there (same ▸ old)
      exact ⟨served.apart c d _ pool found before same.symm, kept⟩
    | none =>
      -- A pool that is made now has an id that none had before.
      rw [getOrCreate_of_none there] at same
      have later := created_run (p.getOrCreate c).2 between
      change ((p.getOrCreate c).2.run between).created = _ at same
      omega
  · rintro ⟨rfl, kept⟩
    rw [getOrCreate_of_some (find?_run kept found)]

end

-- The pool that settings get after some calls.
def given (calls : List PoolCall) (c : Config) : Pool := ((empty.run calls).getOrCreate c).1

end Pools

-- Two askings get one pool just when their settings are equal and nothing was forgotten between them. There are
-- as many pools as there are settings that were asked for since then, and a pool is there for just those.
theorem pools_shared : Function.Injective Config.key ∧
    (∀ before c between d, (Pools.given (before ++ .getOrCreate c :: between) d).id = (Pools.given before c).id ↔
      c = d ∧ .closeAll ∉ between) ∧
    (∀ calls, (Pools.empty.run calls).count = (asked calls).toFinset.card) ∧
    (∀ calls c, (Pools.empty.run calls).contains c = true ↔ c ∈ asked calls) ∧
    ∀ calls c, (Pools.given calls c).limit = c.maxConnections := by
  have serves (calls : List PoolCall) : (Pools.empty.run calls).Serves (asked calls) :=
    Pools.serves_run (Pools.serves_none 0) calls
  refine ⟨Config.key_injective, ?_, fun calls => (serves calls).count, fun calls => (serves calls).known, ?_⟩
  · intro before c between d
    have split : Pools.empty.run (before ++ .getOrCreate c :: between) =
        ((Pools.empty.run before).getOrCreate c).2.run between := by
      simp [Pools.run, Pools.perform]
    rw [Pools.given, split]
    exact Pools.same_pool_iff (serves before) c d between
  · intro calls c
    exact (Pools.serves_getOrCreate (serves calls) c).limit c _ (Pools.find?_getOrCreate c _)

end QueryKit
