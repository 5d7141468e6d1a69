import QueryKit.Value.Description

-- Operators of a comparison and the shapes of their operands.

namespace QueryKit
open Text

inductive Operator where
  | eq | ne | gt | gte | lt | lte
  | between | notBetween
  | like | notLike
  | notIn | any | notAny
  | modulo
  | ancestor | descendant | pathMatch
  | raw
  deriving DecidableEq, Repr

namespace Operator

def all : List Operator :=
  [.eq, .ne, .gt, .gte, .lt, .lte, .between, .notBetween, .like, .notLike, .notIn, .any, .notAny,
    .modulo, .ancestor, .descendant, .pathMatch, .raw]

def token : Operator → String
  | .eq => "eq"
  | .ne => "ne"
  | .gt => "gt"
  | .gte => "gte"
  | .lt => "lt"
  | .lte => "lte"
  | .between => "between"
  | .notBetween => "not_between"
  | .like => "like"
  | .notLike => "not_like"
  | .notIn => "not_in"
  | .any => "any"
  | .notAny => "not_any"
  | .modulo => "mod"
  | .ancestor => "lta"
  | .descendant => "ltd"
  | .pathMatch => "ltm"
  | .raw => "sql"

def ofToken? (token : String) : Option Operator := all.find? fun op => op.token == token

def isRange : Operator → Bool
  | .between | .notBetween => true
  | _ => false

def isReversed : Operator → Bool
  | .any | .notAny => true
  | _ => false

end Operator

inductive Operand where
  | value (v : Value)
  | expression (v : Value)
  | range (lower upper : Value)
  | raw (template : String) (escapes : List Value)

namespace Operand

def fits (operand : Operand) (op : Operator) : Bool :=
  match operand with
  | .range .. => op.isRange
  | .raw .. => op == .raw
  | _ => !op.isRange && op != .raw

def description : Operand → String
  | .value v => "Val(" ++ v.description ++ ")"
  | .expression v => "Expr(" ++ v.description ++ ")"
  | .range lower upper => "Range \x7b from: " ++ lower.description ++ ", to: " ++ upper.description ++ " \x7d"
  | .raw template escapes =>
    "Sql(RawSql \x7b template: " ++ escaped template ++ ", escapes: " ++
      listed (escapes.map Value.description) ++ " \x7d)"

end Operand

structure Comparator where
  op : Operator
  operand : Operand
  fits : operand.fits op = true

end QueryKit
