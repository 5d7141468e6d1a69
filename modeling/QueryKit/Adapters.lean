import QueryKit.Config.Basic
import QueryKit.Pools
import QueryKit.Sorted
import QueryKit.Text.Escaped

-- Adapters by name. A name can be an alias of another one; an adapter that is registered by a
-- loader is built when it is first asked for, and kept.

namespace QueryKit
open Text

inductive Strategy where
  | client
  | pooled (pool : Pool)
  deriving DecidableEq, Repr

def Strategy.isPooled : Strategy → Bool
  | .client => false
  | .pooled _ => true

structure Adapter where
  name : String
  dialect : String
  choose : Config → Options → Pools → Except Fault (Strategy × Pools)

def Adapter.postgres : Adapter where
  name := "postgres"
  dialect := "postgresql"
  choose := fun config options pools => do
    config.validate
    if options.pool then
      let (pool, pools) := pools.getOrCreate config
      pure (.pooled pool, pools)
    else pure (.client, pools)

-- A loader makes an adapter when it is run. It is told how many adapters were built before, so that one
-- that it makes later may be another one.
abbrev Loader := Nat → Adapter

structure Adapters where
  aliases : Sorted String
  loaders : Sorted Loader
  known : Sorted Adapter
  built : List Adapter

namespace Adapters

def empty : Adapters := ⟨[], [], [], []⟩

def without {α : Type} (name : String) (entries : Sorted α) : Sorted α := entries.filter fun e => e.1 != name

theorem get?_without {α : Type} (name other : String) (entries : Sorted α) :
    Sorted.get? other (without name entries) = if name = other then none else Sorted.get? other entries := by
  induction entries with
  | nil => simp [without, Sorted.get?]
  | cons e r ih =>
    obtain ⟨n, v⟩ := e
    simp only [without] at ih
    by_cases gone : n = name
    · subst gone
      have front : without n ((n, v) :: r) = without n r := by simp [without]
      rw [front, without, ih]
      by_cases hit : n = other <;> simp [Sorted.get?, hit]
    · by_cases hit : n = other
      · subst hit
        simp [without, Sorted.get?, gone, Ne.symm gone]
      · simp [without, Sorted.get?, gone, hit, ih]

def add (name : String) (adapter : Adapter) (a : Adapters) : Adapters :=
  { a with loaders := without name a.loaders, known := Sorted.insert name adapter a.known }

def addLoader (name : String) (loader : Loader) (a : Adapters) : Adapters :=
  { a with loaders := Sorted.insert name loader a.loaders, known := without name a.known }

def addAlias (name target : String) (a : Adapters) : Adapters :=
  { a with aliases := Sorted.insert name target a.aliases }

def defaults : Adapters :=
  (((empty.addLoader "postgres" fun _ => .postgres).addAlias "postgresql" "postgres").addAlias
    "pg" "postgres")

def follow (aliases : Sorted String) : Nat → String → Option String
  | 0, _ => none
  | n + 1, name =>
    match Sorted.get? name aliases with
    | none => some name
    | some target => follow aliases n target

-- The name that a name stands for. A walk past more names than there are aliases goes in a circle.
def resolve (name : String) (a : Adapters) : Except Fault String :=
  match follow a.aliases (a.aliases.length + 1) name with
  | some canonical => .ok canonical
  | none => .error (.aliasCycle name)

def get (name : String) (a : Adapters) : Except Fault (Adapter × Adapters) := do
  let canonical ← a.resolve name
  match Sorted.get? canonical a.known with
  | some adapter => .ok (adapter, a)
  | none =>
    match Sorted.get? canonical a.loaders with
    | none => .error (.unknownAdapter name)
    | some loader =>
      let adapter := loader a.built.length
      .ok (adapter, { a with
        known := Sorted.insert canonical adapter a.known
        built := a.built ++ [adapter] })

def contains (name : String) (a : Adapters) : Bool :=
  match a.resolve name with
  | .ok canonical => (Sorted.get? canonical a.known).isSome || (Sorted.get? canonical a.loaders).isSome
  | .error _ => false

def names (a : Adapters) : List String :=
  Sorted.names (Sorted.ofPairs
    (a.known.map (fun e => (e.1, ())) ++ a.loaders.map (fun e => (e.1, ()))))

def description (a : Adapters) : String :=
  "AdapterRegistry \x7b adapters: " ++ listed (a.names.map escaped) ++ " \x7d"

end Adapters

end QueryKit
