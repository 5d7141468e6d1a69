import QueryKit.Fault

-- A database server as a client sees it: it lets itself be connected to, runs a statement and
-- is left again, and each of these may fail. Results come as text.

namespace QueryKit

structure ResultColumn where
  name : String
  type : Nat
  deriving DecidableEq, Repr

structure ResultSet where
  columns : List ResultColumn
  rows : List (List (Option String))
  deriving DecidableEq, Repr

def ResultSet.empty : ResultSet := ⟨[], []⟩

-- Nothing is assumed of a server but that every call ends.
class Server (σ : Type) where
  connect : σ → Except TransportFault Unit × σ
  run : String → σ → Except TransportFault ResultSet × σ
  close : σ → Except TransportFault Unit × σ

structure Script where
  listening : Bool
  replies : List (Except TransportFault ResultSet)
  received : List String

namespace Script

def new (listening : Bool) : Script := ⟨listening, [], []⟩

def reply (answer : Except TransportFault ResultSet) (s : Script) : Script :=
  { s with replies := s.replies ++ [answer] }

def answer (sql : String) (s : Script) : Except TransportFault ResultSet × Script :=
  match s.replies with
  | [] => (.ok .empty, { s with received := s.received ++ [sql] })
  | r :: rest => (r, { s with replies := rest, received := s.received ++ [sql] })

end Script

instance : Server Script where
  connect s := (if s.listening then .ok () else .error .io, s)
  run sql s := if s.listening then s.answer sql else (.error .io, s)
  close s := (.ok (), s)

end QueryKit
