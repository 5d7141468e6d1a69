import QueryKit.Server.Cell
import QueryKit.Transport.Basic

-- A transport with a connection of its own. It runs statements only while it holds the
-- connection; a connection that was lost is held until it is closed.

namespace QueryKit

inductive ClientEvent where
  | opened
  | closed
  | sent (sql : String)
  | profiled (sql : String)
  | notified (subscriber : String) (fault : Fault)

structure Client (σ : Type) where
  server : σ
  connected : Bool
  profiler : Bool
  subscribers : List String
  followers : String → Fault → List String
  events : List ClientEvent

namespace Client
variable {σ : Type} [Server σ]

def new (server : σ) (profiler : Bool) (followers : String → Fault → List String := fun _ _ => []) : Client σ :=
  ⟨server, false, profiler, [], followers, []⟩

def note (events : List ClientEvent) (c : Client σ) : Client σ := { c with events := c.events ++ events }

def connect (c : Client σ) : Except Fault Unit × Client σ :=
  if c.connected then (.ok (), c)
  else match Server.connect c.server with
    | (.ok (), server) => (.ok (), note [.opened] { c with server := server, connected := true })
    | (.error fault, server) => (.error (.transport fault), { c with server := server })

def subscribe (name : String) (c : Client σ) : Client σ := { c with subscribers := c.subscribers ++ [name] }

def tell (fault : Fault) (c : Client σ) (subscriber : String) : Client σ :=
  (c.followers subscriber fault).foldl (fun c name => c.subscribe name) (c.note [.notified subscriber fault])

-- Whoever subscribes while others are told is not told.
def notify (fault : Fault) (c : Client σ) : Client σ := c.subscribers.foldl (tell fault) c

def query (sql : String) (c : Client σ) : Except Fault (List Row) × Client σ :=
  if c.connected then
    let (result, server) := Server.run sql c.server
    let c := note (.sent sql :: if c.profiler then [.profiled sql] else []) { c with server := server }
    match result with
    | .ok rows => (rows.decode, c)
    | .error fault => (.error (.transport fault), if fault.losesConnection then c.notify (.transport fault) else c)
  else (.error (.connection "client is not connected"), c)

def close (c : Client σ) : Except Fault Unit × Client σ :=
  if c.connected then
    match Server.close c.server with
    | (.ok (), server) => (.ok (), note [.closed] { c with server := server, connected := false })
    | (.error fault, server) =>
      (.error (.transport fault), note [.closed] { c with server := server, connected := false })
  else (.ok (), c)

end Client

instance {σ : Type} [Server σ] : Transport (Client σ) where
  connect := Client.connect
  query := Client.query
  close := Client.close
  isPooled _ := false
  subscribe := Client.subscribe

end QueryKit
