import QueryKit.Filter
import QueryKit.Json.Basic
import QueryKit.Select.JoinKeys
import QueryKit.SqlFunction

-- What a select query is made of: the tables with their joins and select lists, the filters, the order and the limits.

namespace QueryKit

inductive Direction where
  | ascending
  | descending
  deriving DecidableEq, Repr

namespace Direction

def ofCode (code : String) : Direction := if code = "Z" then .descending else .ascending

def keyword : Direction → String
  | .ascending => "ASC"
  | .descending => "DESC"

def ofTerm (term : String) : String × Direction :=
  match term.toList with
  | '-' :: r => (String.ofList r, .descending)
  | _ => (term, .ascending)

end Direction

inductive Argument where
  | column (name : String)
  | value (v : Value)

inductive SelectItem where
  | column (name : String) (label : Option String)
  | expression (sql : String) (label : Option String)
  -- The wrappers are applied to the result, the first of them outermost.
  | call (function : SqlFunction) (arguments : List Argument) (label : Option String)
      (wrappers : List SqlFunction)
  | having (column : String)

namespace SelectItem

def rename (label : String) : SelectItem → SelectItem
  | .column name _ => .column name (some label)
  | .expression sql _ => .expression sql (some label)
  | .call function arguments _ wrappers => .call function arguments (some label) wrappers
  | .having name => .having name

end SelectItem

structure Join where
  own : JoinSide
  target : String
  other : JoinSide

structure Source where
  table : String
  label : String
  joins : List Join
  items : List SelectItem

inductive OrderTerm where
  | column (table : Option String) (name : String) (direction : Direction)
  | raw (sql : Sql)

inductive Format where
  | rows
  | json
  deriving DecidableEq, Repr

structure Transform where
  function : String
  arguments : Option Json

structure Select where
  zone : Zone
  sources : List Source
  groups : List Group
  order : List OrderTerm
  groupBy : Option (List String)
  limit : Option UInt64
  offset : Option UInt64
  distinctOn : Option (List String)
  format : Format
  transform : Option Transform
  correlated : Bool
  -- Functions that wait for the next call, outermost first.
  pending : List SqlFunction
  -- The first misuse of a call that cannot fail itself.
  misuse : Option QueryFault

namespace Select

def new (zone : Zone) : Select where
  zone := zone
  sources := []
  groups := []
  order := []
  groupBy := none
  limit := none
  offset := none
  distinctOn := none
  format := .rows
  transform := none
  correlated := false
  pending := []
  misuse := none

def noteMisuse (fault : QueryFault) (q : Select) : Select :=
  match q.misuse with
  | none => { q with misuse := some fault }
  | some _ => q

def lastSource? (q : Select) : Option Source := q.sources.getLast?

def mapLast {α : Type} (change : α → α) : List α → List α
  | [] => []
  | [a] => [change a]
  | a :: b :: r => a :: mapLast change (b :: r)

def aliasOf? (name : String) (sources : List Source) : Option String :=
  ((sources.find? fun s => s.table == name).or (sources.find? fun s => s.label == name)).map (·.label)

def resolve (name : String) (q : Select) : Except Fault String :=
  match aliasOf? name q.sources with
  | some label => .ok label
  | none => .error (.unknownTable name)

def isAliased (q : Select) : Bool := 1 < q.sources.length || q.correlated

def isQualified (q : Select) : Bool := 1 < q.sources.length

end Select

end QueryKit
