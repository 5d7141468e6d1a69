import QueryKit.Server.Cell
import QueryKit.Transport.Basic

-- A transport that borrows a connection from a shared pool for every statement. It connects by
-- itself, closing it leaves the pool alone, and nobody is told of faults.

namespace QueryKit

structure Borrowed (σ : Type) where
  server : σ
  idle : Bool

namespace Borrowed
variable {σ : Type} [Server σ]

def new (server : σ) : Borrowed σ := ⟨server, false⟩

def acquire (b : Borrowed σ) : Except Fault Unit × Borrowed σ :=
  if b.idle then (.ok (), b)
  else match Server.connect b.server with
    | (.ok (), server) => (.ok (), ⟨server, true⟩)
    | (.error fault, server) => (.error (.transport fault), ⟨server, false⟩)

def query (sql : String) (b : Borrowed σ) : Except Fault (List Row) × Borrowed σ :=
  match b.acquire with
  | (.error fault, b) => (.error fault, b)
  | (.ok (), b) =>
    match Server.run sql b.server with
    | (.ok rows, server) => (rows.decode, ⟨server, true⟩)
    | (.error fault, server) => (.error (.transport fault), ⟨server, !fault.losesConnection⟩)

end Borrowed

instance {σ : Type} [Server σ] : Transport (Borrowed σ) where
  connect := Borrowed.acquire
  query := Borrowed.query
  close b := (.ok (), b)
  isPooled _ := true
  subscribe _ b := b

end QueryKit
