import QueryKit.Row

-- What a driver sends its statements through. Whoever subscribes to a transport hears of faults that lose its
-- connection.

namespace QueryKit

class Transport (τ : Type) where
  connect : τ → Except Fault Unit × τ
  query : String → τ → Except Fault (List Row) × τ
  close : τ → Except Fault Unit × τ
  isPooled : τ → Bool
  subscribe : String → τ → τ

inductive Request where
  | connect
  | statement (sql : String)
  | close
  deriving DecidableEq, Repr

-- A transport without a server: it writes down what it is asked for, and answers from a queue, without rows when
-- that is empty.
structure Recording where
  requests : List Request
  responses : List (Except Fault (List Row))
  subscribers : List String

namespace Recording

def new : Recording := ⟨[], [], []⟩

def note (request : Request) (t : Recording) : Recording := { t with requests := t.requests ++ [request] }

def respond (answer : Except Fault (List Row)) (t : Recording) : Recording :=
  { t with responses := t.responses ++ [answer] }

def answer (t : Recording) : Except Fault (List Row) × Recording :=
  match t.responses with
  | [] => (.ok [], t)
  | r :: rest => (r, { t with responses := rest })

def notify (fault : Fault) (t : Recording) : List (String × Fault) :=
  t.subscribers.map fun name => (name, fault)

end Recording

instance : Transport Recording where
  connect t := (.ok (), t.note .connect)
  query sql t := (t.note (.statement sql)).answer
  close t := (.ok (), t.note .close)
  isPooled _ := false
  subscribe name t := { t with subscribers := t.subscribers ++ [name] }

end QueryKit
