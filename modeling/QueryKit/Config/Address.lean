import QueryKit.Config.Basic
import QueryKit.Url.Basic
import QueryKit.Url.Reading

-- Settings from the address of a database and from the environment.

namespace QueryKit
open Text

namespace Config

def setParameter (c : Config) (p : String × String) : Except Fault Config :=
  let (name, value) := p
  if name = "ssl" then .ok { c with ssl := value == "true" || value == "1" }
  else if name = "sslmode" then .ok { c with ssl := value != "disable" }
  else if name = "timezone" then .ok { c with timezone := value }
  else if name = "max_connections" ∨ name = "pool_max" then
    match readUInt32 value.toList with
    | some n => .ok { c with maxConnections := n }
    | none => .error (.configuration (.maxConnections value))
  else .ok { c with params := Sorted.insert name value c.params }

def setParameters (c : Config) : List (String × String) → Except Fault Config
  | [] => .ok c
  | p :: r => do
    let next ← c.setParameter p
    next.setParameters r

def databaseName (path : String) : String := String.ofList (path.toList.dropWhile (· == '/'))

-- User, password and database stay percent-encoded as they are in the address.
def ofUrl (url : Url) : Except Fault Config :=
  if url.scheme ≠ "postgres" ∧ url.scheme ≠ "postgresql" then
    .error (.configuration (.scheme url.scheme))
  else match url.host with
    | none => .error (.configuration .noHost)
    | some host =>
      if databaseName url.path = "" then .error (.configuration .noDatabase)
      else do
        let start : Config := {
          host := host
          port := url.port.getD 5432
          database := databaseName url.path
          user := if url.username = "" then none else some url.username
          password := url.password }
        let c ← start.setParameters (Url.parameters (url.query.getD ""))
        c.validate
        pure c

def ofAddress (address : String) : Except Fault Config :=
  match Url.read address with
  | .error cause => .error (.configuration (.invalidUrl cause))
  | .ok url => ofUrl url

def isYes (setting : String) : Bool :=
  let word := String.ofList (setting.toList.map Char.toLower)
  word == "true" || word == "1" || word == "yes"

def ofEnvironment (lookup : String → Option String) : Except Fault Config :=
  match lookup "DATABASE_URL" with
  | none => .error (.configuration .urlUnset)
  | some address => do
    let c ← ofAddress address
    let c := match lookup "DATABASE_TIMEZONE" with
      | some timezone => { c with timezone := timezone }
      | none => c
    let c := match lookup "DATABASE_SSL" with
      | some setting => { c with ssl := isYes setting }
      | none => c
    c.validate
    pure c

end Config

end QueryKit
