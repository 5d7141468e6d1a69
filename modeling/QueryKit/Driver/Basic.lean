import QueryKit.Adapters
import QueryKit.Coercion
import QueryKit.Driver.Operation
import QueryKit.Transport.Basic

-- A driver: settings, coercion rules and the transport that its statements go through, one statement an operation.

namespace QueryKit

structure Driver (τ : Type) where
  config : Config
  options : Options
  dialect : String
  coercer : Coercer
  clock : Calendar.Instant → Int
  transport : τ

namespace Driver
variable {τ : Type} [Transport τ]

def new (config : Config) (options : Options) (dialect : String) (clock : Calendar.Instant → Int) (transport : τ) :
    Driver τ :=
  ⟨config, options, dialect, .new config.zone, clock, transport⟩

def zone (d : Driver τ) : Zone := ⟨d.coercer.zone, d.clock⟩

def isPooled (d : Driver τ) : Bool := Transport.isPooled d.transport

def connect (d : Driver τ) : Except Fault Unit × Driver τ :=
  let (result, transport) := Transport.connect d.transport
  (result, { d with transport := transport })

def close (d : Driver τ) : Except Fault Unit × Driver τ :=
  let (result, transport) := Transport.close d.transport
  (result, { d with transport := transport })

def subscribe (name : String) (d : Driver τ) : Driver τ :=
  { d with transport := Transport.subscribe name d.transport }

def register (tag : String) (type : CustomType) (d : Driver τ) : Driver τ :=
  { d with coercer := d.coercer.register tag type }

def perform (o : Operation) (d : Driver τ) : Except Fault Answer × Driver τ :=
  match o.statement d.zone with
  | .error fault => (.error fault, d)
  | .ok sql =>
    match Transport.query sql d.transport with
    | (.ok rows, transport) => (o.answer rows, { d with transport := transport })
    | (.error fault, transport) => (.error fault, { d with transport := transport })

end Driver

-- What a driver of the adapter under a name runs on. The adapter may have been built for it, and
-- then it stays, even when it refuses.
def Adapters.choose (name : String) (config : Config) (options : Options) (a : Adapters) (pools : Pools) :
    Except Fault (Adapter × Strategy) × Adapters × Pools :=
  match a.get name with
  | .error fault => (.error fault, a, pools)
  | .ok (adapter, a) =>
    match adapter.choose config options pools with
    | .error fault => (.error fault, a, pools)
    | .ok (strategy, pools) => (.ok (adapter, strategy), a, pools)

end QueryKit
