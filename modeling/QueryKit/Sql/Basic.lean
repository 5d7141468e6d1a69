import QueryKit.Sql.Literal
import QueryKit.Fault

-- A statement as a list of pieces: words of the language, quoted names, literals, and text that the caller wrote as
-- SQL. Text comes last, so that what a statement says can be told apart from how it is spelled.

namespace QueryKit

inductive Piece where
  | word (text : String)
  | name (segments : List String)
  | literal (v : Value)
  | raw (text : String)

abbrev Sql := List Piece

namespace Piece

def text (zone : Zone) : Piece → String
  | .word text => text
  | .name segments => Sql.path segments
  | .literal v => Sql.literal zone v
  | .raw text => text

def datesFit (zone : Zone) : Piece → Bool
  | .literal v => Sql.datesFit zone v
  | _ => true

end Piece

namespace Sql

def text (zone : Zone) (sql : Sql) : String := String.join (sql.map (Piece.text zone))

def render (zone : Zone) (sql : Sql) : Except Fault String :=
  if List.all sql (Piece.datesFit zone) then .ok (Sql.text zone sql) else .error .dateOutOfRange

def separated (separator : String) (parts : List Sql) : Sql :=
  List.intercalate [Piece.word separator] parts

def column (table : Option String) (name : String) : Sql :=
  match table with
  | some table => [.name [table, name]]
  | none => [.name [name]]

end Sql

end QueryKit
