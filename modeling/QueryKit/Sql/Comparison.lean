import QueryKit.Sql.Basic

-- An operator with both of its sides as SQL.

namespace QueryKit

inductive RightSide where
  | one (sql : Sql)
  | range (lower upper : Sql)

namespace Operator

def infixText : Operator → String
  | .eq => " = "
  | .ne => " <> "
  | .gt => " > "
  | .gte => " >= "
  | .lt => " < "
  | .lte => " <= "
  | .like => " LIKE "
  | .notLike => " NOT LIKE "
  | .modulo => " % "
  | .ancestor => " @> "
  | .descendant => " <@ "
  | .pathMatch => " ~ "
  | .between => " BETWEEN "
  | .notBetween => " NOT BETWEEN "
  | .notIn => " <> ALL("
  | .any | .notAny => " = ANY("
  | .raw => ""

-- `left op right`. A range is always a BETWEEN, negated for the one operator that says so; a raw
-- operator has nothing but its right side.
def compare (op : Operator) (left : Sql) : RightSide → Sql
  | .range lower upper =>
    let word := if op = .notBetween then " NOT BETWEEN " else " BETWEEN "
    left ++ .word word :: lower ++ .word " AND " :: upper
  | .one right =>
    match op with
    | .raw => right
    | .notAny => .word "NOT (" :: left ++ .word op.infixText :: right ++ [.word "))"]
    | .notIn | .any => left ++ .word op.infixText :: right ++ [.word ")"]
    | op => left ++ .word op.infixText :: right

end Operator

end QueryKit
