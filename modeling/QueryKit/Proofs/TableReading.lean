import QueryKit.Comparator.Basic
import QueryKit.Proofs.BooleanReading

-- The FROM clause as the server reads it. A JOIN goes on from the tables in front of it, and an ON belongs
-- to the latest JOIN without one; parentheses hold joined tables together. Behind an ON stand comparisons
-- of columns with AND between them.

namespace QueryKit.Lexer

structure Reference where
  table : String
  column : String
  deriving DecidableEq, Repr

-- A column and what it is compared with: another one, or both ends of a range.
structure Comparison where
  op : Operator
  left : Reference
  right : List Reference
  deriving DecidableEq, Repr

inductive Tables where
  | table (name : String) (label : Option String)
  | join (left right : Tables) (on : List Comparison)
  deriving DecidableEq, Repr

def Tables.isJoined : Tables → Bool
  | .table .. => false
  | .join .. => true

-- What stands in a pair of parentheses: joined tables, a column, or a comparison.
structure Enclosed where
  tables : Option Tables
  reference : Option Reference
  comparison : Option Comparison

section
variable {α : Type}

def takeReference : List (Item α) → Option (Reference × List (Item α))
  | .token (.name table) :: .token point :: .token (.name column) :: r =>
    if point = .mark "." then some (⟨table, column⟩, r) else none
  | _ => none

def readReference (items : List (Item α)) : Option Reference :=
  match takeReference items with
  | some (reference, []) => some reference
  | _ => none

def ofSymbol? (symbol : String) : Option Operator :=
  if symbol = "=" then some .eq
  else if symbol = "<>" then some .ne
  else if symbol = ">" then some .gt
  else if symbol = ">=" then some .gte
  else if symbol = "<" then some .lt
  else if symbol = "<=" then some .lte
  else if symbol = "%" then some .modulo
  else if symbol = "@>" then some .ancestor
  else if symbol = "<@" then some .descendant
  else if symbol = "~" then some .pathMatch
  else none

def ofQuantified? (symbol quantifier : String) : Option Operator :=
  if symbol = "=" ∧ quantifier = "any" then some .any
  else if symbol = "<>" ∧ quantifier = "all" then some .notIn
  else none

def readWorded (left : Reference) (denied : Bool) (w : String) (r : List (Item α)) : Option Comparison :=
  if w = "like" then
    (readReference r).map fun right => ⟨if denied then .notLike else .like, left, [right]⟩
  else if w = "between" then
    match takeReference r with
    | some (lower, .token both :: r) =>
      if both = .word "and" then
        (readReference r).map fun upper => ⟨if denied then .notBetween else .between, left, [lower, upper]⟩
      else none
    | _ => none
  else none

end

def readRight (left : Reference) : List (Item Enclosed) → Option Comparison
  | [.token (.operator symbol), .token (.word quantifier), .group _ inside] => do
    let op ← ofQuantified? symbol quantifier
    let right ← inside.reference
    some ⟨op, left, [right]⟩
  | .token (.operator symbol) :: r => do
    let op ← ofSymbol? symbol
    let right ← readReference r
    some ⟨op, left, [right]⟩
  | .token (.word w) :: .token (.word v) :: r => if w = "not" then readWorded left true v r else none
  | .token (.word w) :: r => readWorded left false w r
  | _ => none

def Comparison.denied? (c : Comparison) : Option Comparison :=
  if c.op = .any then some { c with op := .notAny } else none

def readComparison : List (Item Enclosed) → Option Comparison
  | [.token denial, .group _ inside] =>
    if denial = .word "not" then inside.comparison.bind Comparison.denied? else none
  | items => (takeReference items).bind fun (left, r) => readRight left r

def readComparisons (items : List (Item Enclosed)) : Option (List Comparison) :=
  (conjuncts false [] items).mapM readComparison

def readTable : List (Item Enclosed) → Option Tables
  | [.token (.name table)] => some (.table table none)
  | [.token (.name table), .token (.name label)] => some (.table table (some label))
  | [.group _ inside] => inside.tables.filter Tables.isJoined
  | _ => none

inductive Branch (α : Type) where
  | join (table : List (Item α))
  | on (conditions : List (Item α))

def Item.isBranch {α : Type} (i : Item α) : Bool := i.isWord "join" || i.isWord "on"

-- The items in front of the first JOIN or ON, and those behind each of these words up to the next.
def branches {α : Type} : List (Item α) → List (Item α) × List (Branch α)
  | [] => ([], [])
  | i :: r =>
    let (part, rest) := branches r
    if i.isWord "join" then ([], .join part :: rest)
    else if i.isWord "on" then ([], .on part :: rest)
    else (i :: part, rest)

def readBranches (waiting : List Tables) (last : Tables) : List (Branch Enclosed) → Option Tables
  | [] => if waiting.isEmpty then some last else none
  | .join table :: r => (readTable table).bind fun next => readBranches (last :: waiting) next r
  | .on conditions :: r =>
    match waiting with
    | [] => none
    | left :: waiting =>
      (readComparisons conditions).bind fun on => readBranches waiting (.join left last on) r

def readTables (items : List (Item Enclosed)) : Option Tables :=
  (readTable (branches items).1).bind fun first => readBranches [] first (branches items).2

def readEnclosed (items : List (Item Enclosed)) : Enclosed :=
  ⟨readTables items, readReference items, readComparison items⟩

-- The tables of a FROM clause. There are none if a parenthesis is not closed or closes nothing.
def readFrom (text : String) : Option Tables := do
  let items ← nest readEnclosed [] [] (← lex text)
  match items with
  | .token t :: r => if t = .word "from" then readTables r else none
  | _ => none

theorem branches_append {α : Type} (items : List (Item α)) (free : ∀ i ∈ items, i.isBranch = false)
    (r : List (Item α)) : branches (items ++ r) = (items ++ (branches r).1, (branches r).2) := by
  induction items with
  | nil => rfl
  | cons i items ih =>
    obtain ⟨here, later⟩ := List.forall_mem_cons.mp free
    simp only [Item.isBranch, Bool.or_eq_false_iff] at here
    rw [List.cons_append, branches, ih later]
    simp [here]

theorem branches_alone {α : Type} (items : List (Item α)) (free : ∀ i ∈ items, i.isBranch = false) :
    branches items = (items, []) := by
  have whole := branches_append items free []
  simpa [branches] using whole

theorem readTables_alone {items : List (Item Enclosed)} (free : ∀ i ∈ items, i.isBranch = false) :
    readTables items = readTable items := by
  simp [readTables, branches_alone items free, readBranches]

theorem readTables_join {front table on : List (Item Enclosed)} {left right : Tables} {comparisons : List Comparison}
    (before : ∀ i ∈ front, i.isBranch = false) (within : ∀ i ∈ table, i.isBranch = false)
    (behind : ∀ i ∈ on, i.isBranch = false) (first : readTable front = some left)
    (second : readTable table = some right) (read : readComparisons on = some comparisons) :
    readTables (front ++ .token (.word "join") :: (table ++ .token (.word "on") :: on)) =
      some (.join left right comparisons) := by
  have opened : branches (.token (.word "on") :: on) = ([], [.on on]) := by
    rw [branches, branches_alone on behind]; rfl
  have joined : branches (.token (.word "join") :: (table ++ .token (.word "on") :: on)) =
      ([], [.join table, .on on]) := by
    rw [branches, branches_append table within, opened]
    simp [Item.isWord]
  rw [readTables, branches_append front before, joined]
  simp [readBranches, first, second, read]

end QueryKit.Lexer
