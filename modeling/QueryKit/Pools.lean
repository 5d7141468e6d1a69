import QueryKit.Columns
import QueryKit.Config.Basic

-- Pools of connections, shared by everything that connects with equal settings. A pool opens
-- no connection before a statement needs one.

namespace QueryKit
open Decimal

structure PoolStats where
  total : UInt32
  idle : UInt32
  limit : UInt32
  deriving DecidableEq, Repr

namespace PoolStats

def active (s : PoolStats) : UInt32 := if s.idle ≤ s.total then s.total - s.idle else 0

-- Active connections as a percentage of the limit, rounded after the division and after the multiplication.
def utilization (s : PoolStats) : Binary64 :=
  if s.limit = 0 then .ofInt 0
  else (Binary64.ofRatio false s.active.toNat s.limit.toNat).mul (.ofInt 100)

end PoolStats

structure Pool where
  id : Nat
  limit : UInt32
  deriving DecidableEq, Repr

def Pool.stats (p : Pool) : PoolStats := ⟨0, 0, p.limit⟩

structure Pools where
  pools : Columns Pool
  created : Nat

namespace Pools

def empty : Pools := ⟨[], 0⟩

def find? (c : Config) (p : Pools) : Option Pool := Columns.get? c.key p.pools

def getOrCreate (c : Config) (p : Pools) : Pool × Pools :=
  match p.find? c with
  | some pool => (pool, p)
  | none =>
    let pool : Pool := ⟨p.created, c.maxConnections⟩
    (pool, ⟨Columns.set c.key pool p.pools, p.created + 1⟩)

def contains (c : Config) (p : Pools) : Bool := (p.find? c).isSome

def stats? (c : Config) (p : Pools) : Option PoolStats := (p.find? c).map Pool.stats

def count (p : Pools) : Nat := p.pools.length

def closeAll (p : Pools) : Pools := ⟨[], p.created⟩

theorem find?_getOrCreate (c : Config) (p : Pools) :
    (p.getOrCreate c).2.find? c = some (p.getOrCreate c).1 := by
  unfold getOrCreate
  cases found : p.find? c with
  | some pool => exact found
  | none => simp only [find?, Columns.get?_set, if_pos]

end Pools

end QueryKit
