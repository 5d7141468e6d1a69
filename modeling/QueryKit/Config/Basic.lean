import QueryKit.Fault
import QueryKit.Json.Printer
import QueryKit.Sorted
import QueryKit.Timezone

-- What a connection is made with. Its text is the key under which pools are shared: equal settings, equal keys.

namespace QueryKit

structure Config where
  host : String := "localhost"
  port : UInt16 := 5432
  database : String := "postgres"
  user : Option String := none
  password : Option String := none
  ssl : Bool := false
  timezone : String := "local"
  maxConnections : UInt32 := 10
  params : Sorted String := []
  deriving DecidableEq, Repr

namespace Config

def validate (c : Config) : Except Fault Unit :=
  if c.host = "" then .error (.configuration .emptyHost)
  else if c.maxConnections = 0 then .error (.configuration .noConnections)
  else .ok ()

def zone (c : Config) : Timezone := .ofSetting c.timezone

def optionalJson : Option String → Json
  | some s => .text s
  | none => .null

def fields (c : Config) : List (String × Json) :=
  [("host", .text c.host), ("port", .integer c.port.toNat), ("database", .text c.database),
    ("user", optionalJson c.user), ("password", optionalJson c.password), ("ssl", .bool c.ssl),
    ("timezone", .text c.timezone), ("max_connections", .integer c.maxConnections.toNat),
    ("params", .object (c.params.map fun (name, value) => (name, .text value)))]

def key (c : Config) : String :=
  String.ofList ('\x7b' :: Json.separated (Json.memberChars c.fields) ++ ['\x7d'])

end Config

inductive SslMode where
  | require
  | disable
  deriving DecidableEq, Repr

def SslMode.name : SslMode → String
  | .require => "Require"
  | .disable => "Disable"

structure Login where
  host : String
  port : UInt16
  database : String
  user : Option String
  password : Option String
  applicationName : Option String
  ssl : SslMode
  deriving DecidableEq, Repr

def Config.login (c : Config) : Login where
  host := c.host
  port := c.port
  database := c.database
  user := c.user
  password := c.password
  applicationName := Sorted.get? "application_name" c.params
  ssl := if c.ssl then .require else .disable

structure Options where
  pool : Bool := false
  debug : Bool := false
  profiler : Bool := false
  deriving DecidableEq, Repr

def Options.description (o : Options) : String :=
  "DriverOptions \x7b pool: " ++ toString o.pool ++ ", debug: " ++ toString o.debug ++ ", profiler: " ++
    toString o.profiler ++ " \x7d"

end QueryKit
