import QueryKit.Config.Basic
import QueryKit.Json.Reader

-- Settings from a JSON document: an object of named fields, or an array of them in their order.
-- What is left out keeps its default; fields of other names are passed over, whatever they hold.

namespace QueryKit
open Json

namespace Config

def textField? : Tree → Option String
  | .text s => Json.text? s
  | _ => none

def optionalField? : Tree → Option (Option String)
  | .null => some none
  | t => (textField? t).map some

def boolField? : Tree → Option Bool
  | .bool b => some b
  | _ => none

def countField? (limit : Nat) : Tree → Option Nat
  | .number l =>
    match l.json? with
    | some (.integer n) => if 0 ≤ n ∧ n < limit then some n.toNat else none
    | _ => none
  | _ => none

def paramsField? : Tree → Option (Sorted String)
  | .object members =>
    (members.mapM fun (k, t) =>
      match Json.text? k, textField? t with
      | some name, some value => some (name, value)
      | _, _ => none).map Sorted.ofPairs
  | _ => none

def setField? (c : Config) (name : String) (t : Tree) : Option Config :=
  if name = "host" then (textField? t).map fun v => { c with host := v }
  else if name = "port" then (countField? 65536 t).map fun v => { c with port := UInt16.ofNat v }
  else if name = "database" then (textField? t).map fun v => { c with database := v }
  else if name = "user" then (optionalField? t).map fun v => { c with user := v }
  else if name = "password" then (optionalField? t).map fun v => { c with password := v }
  else if name = "ssl" then (boolField? t).map fun v => { c with ssl := v }
  else if name = "timezone" then (textField? t).map fun v => { c with timezone := v }
  else if name = "max_connections" then
    (countField? 4294967296 t).map fun v => { c with maxConnections := UInt32.ofNat v }
  else if name = "params" then (paramsField? t).map fun v => { c with params := v }
  else some c

def fieldNames : List String :=
  ["host", "port", "database", "user", "password", "ssl", "timezone", "max_connections", "params"]

def setFields? (c : Config) (seen : List String) : List (List Letter × Tree) → Option Config
  | [] => some c
  | (k, t) :: r =>
    match Json.text? k with
    | none => none
    | some name =>
      if fieldNames.contains name && seen.contains name then none
      else match c.setField? name t with
        | some next => next.setFields? (name :: seen) r
        | none => none

def setInOrder? (c : Config) : List String → List Tree → Option Config
  | _, [] => some c
  | [], _ :: _ => none
  | name :: names, t :: r =>
    match c.setField? name t with
    | some next => next.setInOrder? names r
    | none => none

def ofDocument (text : String) : Except Fault Config :=
  let config := match Tree.read text.toList with
    | some (.object members) => setFields? {} [] members
    | some (.array items) => setInOrder? {} fieldNames items
    | _ => none
  match config with
  | some c => .ok c
  | none => .error .serialization

end Config

end QueryKit
