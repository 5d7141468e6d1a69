import QueryKit.Select.Basic
import QueryKit.Text.Numeral

-- The steps by which a select query is put together. A step that fails leaves the query as it
-- was; a misuse that a step cannot report is kept for the statement.

namespace QueryKit
open Text

namespace Select

inductive Call where
  | table (name : String)
  | join (table : String) (own : JoinKeys) (target : String) (other : JoinKeys)
  | joinLast (table : String) (own other : JoinKeys)
  | tableAlias (name : String)
  | columns (names : List String)
  | expression (sql : String)
  | having (column : String)
  | named (label : String)
  | apply (function : SqlFunction) (arguments : List Argument) (label : Option String)
  | wrap (function : SqlFunction)
  | distinctOn (columns : List String)
  | format (format : Format)
  | transform (function : String) (arguments : Option Json)
  | filter (table : Option String) (conditions : Conditions)
  | filterExists (table tableLink : String) (link : Link) (conditions : Conditions)
  | order (column : String) (direction : Direction)
  | orderOn (table column : String) (direction : Direction)
  | orderRaw (sql : String) (arguments : List Value)
  | groupBy (columns : List String)
  | limit (count : UInt64)
  | offset (count : UInt64)
  | paginate (perPage page : UInt64)

def addSource (table : String) (joins : List Join) (q : Select) : Select :=
  { q with sources := q.sources ++ [⟨table, "t" ++ natText (q.sources.length + 1), joins, []⟩] }

def addTable (table : String) (q : Select) : Select :=
  if q.sources.isEmpty then q.addSource table [] else q.noteMisuse (.unjoinedTable table)

def joinsTo (target : String) (pairs : List (JoinSide × JoinSide)) : List Join :=
  pairs.map fun (own, other) => ⟨own, target, other⟩

def addJoin (table : String) (own : JoinKeys) (target : String) (other : JoinKeys) (q : Select) :
    Except Fault Select :=
  if q.sources.isEmpty then .ok (q.addSource table [])
  else do
    let label ← q.resolve target
    let pairs ← own.pair other
    pure (q.addSource table (joinsTo label pairs))

def addJoinLast (table : String) (own other : JoinKeys) (q : Select) : Except Fault Select :=
  match q.lastSource? with
  | none => .ok (q.addSource table [])
  | some last => do
    let pairs ← own.pair other
    pure (q.addSource table (joinsTo last.label pairs))

def setAlias (label : String) (q : Select) : Select :=
  if q.sources.isEmpty then q.noteMisuse (.aliasWithoutTable label)
  else { q with sources := mapLast (fun s => { s with label := label }) q.sources }

def addItems (items : List SelectItem) (q : Select) : Select :=
  if items.isEmpty then q
  else if q.sources.isEmpty then q.noteMisuse .selectWithoutTable
  else { q with sources := mapLast (fun s => { s with items := s.items ++ items }) q.sources }

def nameLast (label : String) (q : Select) : Select :=
  { q with sources :=
      mapLast (fun s => { s with items := mapLast (SelectItem.rename label) s.items }) q.sources }

def addCall (function : SqlFunction) (arguments : List Argument) (label : Option String) (q : Select) :
    Select :=
  addItems [.call function arguments label q.pending] { q with pending := [] }

-- Arguments of a transformation come as one object or array; anything else is wrapped.
def transformArguments : Json → Json
  | .object members => .object members
  | .array items => .array items
  | scalar => .array [scalar]

def addFilter (table : Option String) (conditions : Conditions) (q : Select) : Except Fault Select :=
  match table with
  | none => .ok { q with groups := q.groups ++ [.plain none conditions] }
  | some name => do
    let label ← q.resolve name
    pure { q with groups := q.groups ++ [.plain (some label) conditions] }

def addFilterExists (table tableLink : String) (link : Link) (conditions : Conditions) (q : Select) :
    Except Fault Select := do
  link.check
  let outerAlias ← q.resolve tableLink
  pure { q with
    groups := q.groups ++ [⟨q.lastSource?.map (·.label), conditions, some ⟨table, outerAlias, link⟩⟩]
    correlated := true }

def addOrder (term : OrderTerm) (q : Select) : Select := { q with order := q.order ++ [term] }

def saturatingMul (a b : UInt64) : UInt64 :=
  if a.toNat * b.toNat < UInt64.size then a * b else UInt64.ofNat (UInt64.size - 1)

-- Pages count from one; page zero is the first page too.
def setPage (perPage page : UInt64) (q : Select) : Select :=
  { q with limit := some perPage, offset := some (saturatingMul (if page = 0 then 0 else page - 1) perPage) }

def apply (q : Select) : Call → Except Fault Select
  | .table name => .ok (q.addTable name)
  | .join table own target other => q.addJoin table own target other
  | .joinLast table own other => q.addJoinLast table own other
  | .tableAlias name => .ok (q.setAlias name)
  | .columns names => .ok (q.addItems (names.map fun name => .column name none))
  | .expression sql => .ok (q.addItems [.expression sql none])
  | .having column => .ok (q.addItems [.having column])
  | .named label => .ok (q.nameLast label)
  | .apply function arguments label => .ok (q.addCall function arguments label)
  | .wrap function => .ok { q with pending := q.pending ++ [function] }
  | .distinctOn columns => .ok { q with distinctOn := some columns }
  | .format format => .ok { q with format := format }
  | .transform function arguments =>
    .ok { q with transform := some ⟨function, arguments.map transformArguments⟩ }
  | .filter table conditions => q.addFilter table conditions
  | .filterExists table tableLink link conditions => q.addFilterExists table tableLink link conditions
  | .order column direction => .ok (q.addOrder (.column none column direction))
  | .orderOn table column direction => do
    let label ← q.resolve table
    pure (q.addOrder (.column (some label) column direction))
  | .orderRaw sql arguments => do
    let fragment ← Template.query q.zone sql arguments
    pure (q.addOrder (.raw fragment))
  | .groupBy columns => .ok { q with groupBy := some columns }
  | .limit count => .ok { q with limit := some count }
  | .offset count => .ok { q with offset := some count }
  | .paginate perPage page => .ok (q.setPage perPage page)

def applyAll (q : Select) : List Call → Except Fault Select
  | [] => .ok q
  | c :: r => do
    let next ← q.apply c
    next.applyAll r

end Select

end QueryKit
