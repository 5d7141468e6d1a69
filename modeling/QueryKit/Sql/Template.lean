import QueryKit.Sql.Basic
import QueryKit.Value.Json

-- Text with places for names and values. The places are found first, in one pass over the
-- template; what is put in is never looked at again.

namespace QueryKit.Template

inductive Slot where
  | char (c : Char)
  | name
  | value
  deriving DecidableEq, Repr

def ofMarks : List Char → List Slot
  | [] => []
  | '?' :: '?' :: r => .name :: ofMarks r
  | c :: r => (if c = '?' then .value else .char c) :: ofMarks r

def ofTags : List Char → List Slot
  | [] => []
  | '?' :: ':' :: 'i' :: 'd' :: r => .name :: ofTags r
  | '?' :: ':' :: 'v' :: 'a' :: 'l' :: 'u' :: 'e' :: r => .value :: ofTags r
  | c :: r => .char c :: ofTags r

def fill (lastName lastValue : Sql) : List Value → List Slot → Sql
  | _, [] => []
  | args, .char c :: r => .raw (String.singleton c) :: fill lastName lastValue args r
  | v :: args, .name :: r => .name [v.nameText] :: fill lastName lastValue args r
  | v :: args, .value :: r => .literal v :: fill lastName lastValue args r
  | [], .name :: r => lastName ++ fill lastName lastValue [] r
  | [], .value :: r => lastValue ++ fill lastName lastValue [] r

theorem fill_name (lastName lastValue : Sql) (args : List Value) (i : Nat) (r : List Slot) :
    fill lastName lastValue (args.drop i) (.name :: r) =
      (args[i]?.elim lastName fun v => [.name [v.nameText]]) ++ fill lastName lastValue (args.drop (i + 1)) r := by
  rw [← List.head?_drop, ← List.tail_drop]
  cases args.drop i <;> rfl

theorem fill_value (lastName lastValue : Sql) (args : List Value) (i : Nat) (r : List Slot) :
    fill lastName lastValue (args.drop i) (.value :: r) =
      (args[i]?.elim lastValue fun v => [.literal v]) ++ fill lastName lastValue (args.drop (i + 1)) r := by
  rw [← List.head?_drop, ← List.tail_drop]
  cases args.drop i <;> rfl

-- The position, from 1, of the first place for a name that has no argument; `seen` places came
-- before and `count` arguments are given.
def unfilledName? (count seen : Nat) : List Slot → Option Nat
  | [] => none
  | .char _ :: r => unfilledName? count seen r
  | .value :: r => unfilledName? count (seen + 1) r
  | .name :: r => if seen < count then unfilledName? count (seen + 1) r else some (seen + 1)

def query (zone : Zone) (text : String) (args : List Value) : Except Fault Sql :=
  let slots := ofMarks text.toList
  let sql := fill [] [.literal .null] args slots
  if List.all sql (Piece.datesFit zone) then
    match unfilledName? args.length 0 slots with
    | some position => .error (.query (.missingIdentifier position text))
    | none => .ok sql
  else .error .dateOutOfRange

def queryText (zone : Zone) (text : String) (args : List Value) : Except Fault String :=
  (query zone text args).map (Sql.text zone)

def insertColumn (column : List Char) : List Char → List Char
  | [] => []
  | '?' :: ':' :: 'c' :: 'o' :: 'l' :: 'u' :: 'm' :: 'n' :: r => column ++ r
  | c :: r => c :: insertColumn column r

-- A comparator's own template. The column text goes in first and is then part of the template,
-- so a tag inside a column name is a place like any other.
def comparison (template : String) (escapes : List Value) (column : String) : Sql :=
  fill [] [] escapes (ofTags (insertColumn column.toList template.toList))

end QueryKit.Template
