import QueryKit.Select.Call

-- What a call makes of a query, with all that it has checked on the way. A call that succeeds is taken apart here once;
-- what a query keeps from call to call is then seen outcome by outcome.

namespace QueryKit
namespace Select

theorem ok_of_bind {α β : Type} {x : Except Fault α} {f : α → Except Fault β} {b : β} (done : (x >>= f) = .ok b) :
    ∃ a, x = .ok a ∧ f a = .ok b := by
  cases x with
  | error fault => cases done
  | ok a => exact ⟨a, rfl, done⟩

inductive Makes (q : Select) : Call → Select → Prop where
  | opened (name : String) (bare : q.sources = []) : Makes q (.table name) (q.addSource name [])
  | unjoined (name : String) (tabled : q.sources ≠ []) : Makes q (.table name) (q.noteMisuse (.unjoinedTable name))
  | begun (table : String) (own : JoinKeys) (target : String) (other : JoinKeys) (bare : q.sources = []) :
      Makes q (.join table own target other) (q.addSource table [])
  | joined {table target label : String} {own other : JoinKeys} {pairs : List (JoinSide × JoinSide)}
      (tabled : q.sources ≠ []) (found : q.resolve target = .ok label) (paired : own.pair other = .ok pairs) :
      Makes q (.join table own target other) (q.addSource table (joinsTo label pairs))
  | begunLast (table : String) (own other : JoinKeys) (bare : q.sources = []) :
      Makes q (.joinLast table own other) (q.addSource table [])
  | joinedLast {table : String} {own other : JoinKeys} {last : Source} {pairs : List (JoinSide × JoinSide)}
      (there : q.lastSource? = some last) (paired : own.pair other = .ok pairs) :
      Makes q (.joinLast table own other) (q.addSource table (joinsTo last.label pairs))
  | unaliased (label : String) (bare : q.sources = []) :
      Makes q (.tableAlias label) (q.noteMisuse (.aliasWithoutTable label))
  | aliased (label : String) (tabled : q.sources ≠ []) :
      Makes q (.tableAlias label) { q with sources := mapLast (fun s => { s with label := label }) q.sources }
  | columns (names : List String) : Makes q (.columns names) (addItems (names.map fun name => .column name none) q)
  | expression (sql : String) : Makes q (.expression sql) (addItems [.expression sql none] q)
  | having (column : String) : Makes q (.having column) (addItems [.having column] q)
  | named (label : String) : Makes q (.named label) (q.nameLast label)
  | called (function : SqlFunction) (arguments : List Argument) (label : Option String) :
      Makes q (.apply function arguments label)
        (addItems [.call function arguments label q.pending] { q with pending := [] })
  | wrapped (function : SqlFunction) : Makes q (.wrap function) { q with pending := q.pending ++ [function] }
  | distinctOn (columns : List String) : Makes q (.distinctOn columns) { q with distinctOn := some columns }
  | format (format : Format) : Makes q (.format format) { q with format := format }
  | transform (function : String) (arguments : Option Json) : Makes q (.transform function arguments)
      { q with transform := some ⟨function, arguments.map transformArguments⟩ }
  | filtered (conditions : Conditions) :
      Makes q (.filter none conditions) { q with groups := q.groups ++ [.plain none conditions] }
  | filteredOn {name label : String} (conditions : Conditions) (found : q.resolve name = .ok label) :
      Makes q (.filter (some name) conditions) { q with groups := q.groups ++ [.plain (some label) conditions] }
  | linked {table tableLink label : String} {link : Link} {conditions : Conditions} (checked : link.check = .ok ())
      (found : q.resolve tableLink = .ok label) : Makes q (.filterExists table tableLink link conditions) { q with
        groups := q.groups ++ [⟨q.lastSource?.map (·.label), conditions, some ⟨table, label, link⟩⟩]
        correlated := true }
  | ordered (column : String) (direction : Direction) :
      Makes q (.order column direction) (q.addOrder (.column none column direction))
  | orderedOn {table label : String} (column : String) (direction : Direction) (found : q.resolve table = .ok label) :
      Makes q (.orderOn table column direction) (q.addOrder (.column (some label) column direction))
  | orderedRaw {sql : String} {arguments : List Value} {fragment : Sql}
      (written : Template.query q.zone sql arguments = .ok fragment) :
      Makes q (.orderRaw sql arguments) (q.addOrder (.raw fragment))
  | groupBy (columns : List String) : Makes q (.groupBy columns) { q with groupBy := some columns }
  | limit (count : UInt64) : Makes q (.limit count) { q with limit := some count }
  | offset (count : UInt64) : Makes q (.offset count) { q with offset := some count }
  | paginate (perPage page : UInt64) : Makes q (.paginate perPage page) (q.setPage perPage page)

theorem makes_of_apply {q next : Select} {c : Call} (applied : q.apply c = .ok next) : q.Makes c next := by
  cases c with
  | table name =>
    cases applied
    unfold addTable
    split
    case isTrue bare => exact .opened name (List.isEmpty_iff.mp bare)
    case isFalse tabled => exact .unjoined name (mt List.isEmpty_iff.mpr tabled)
  | join table own target other =>
    simp only [apply, addJoin] at applied
    split at applied
    case isTrue bare =>
      cases applied
      exact .begun table own target other (List.isEmpty_iff.mp bare)
    case isFalse tabled =>
      obtain ⟨label, found, applied⟩ := ok_of_bind applied
      obtain ⟨pairs, paired, applied⟩ := ok_of_bind applied
      cases applied
      exact .joined (mt List.isEmpty_iff.mpr tabled) found paired
  | joinLast table own other =>
    simp only [apply, addJoinLast] at applied
    split at applied
    case h_1 bare =>
      cases applied
      exact .begunLast table own other (List.getLast?_eq_none_iff.mp bare)
    case h_2 last there =>
      obtain ⟨pairs, paired, applied⟩ := ok_of_bind applied
      cases applied
      exact .joinedLast there paired
  | tableAlias label =>
    cases applied
    unfold setAlias
    split
    case isTrue bare => exact .unaliased label (List.isEmpty_iff.mp bare)
    case isFalse tabled => exact .aliased label (mt List.isEmpty_iff.mpr tabled)
  | filter table conditions =>
    cases table with
    | none =>
      cases applied
      exact .filtered conditions
    | some name =>
      obtain ⟨label, found, applied⟩ := ok_of_bind applied
      cases applied
      exact .filteredOn conditions found
  | filterExists table tableLink link conditions =>
    obtain ⟨_, checked, applied⟩ := ok_of_bind applied
    obtain ⟨label, found, applied⟩ := ok_of_bind applied
    cases applied
    exact .linked checked found
  | orderOn table column direction =>
    obtain ⟨label, found, applied⟩ := ok_of_bind applied
    cases applied
    exact .orderedOn column direction found
  | orderRaw sql arguments =>
    obtain ⟨fragment, written, applied⟩ := ok_of_bind applied
    cases applied
    exact .orderedRaw written
  | _ => cases applied; constructor

end Select
end QueryKit
