import QueryKit.Fault
import QueryKit.Text.Character

-- Functions that a select list may call.

namespace QueryKit
open Text

inductive SqlFunction where
  | abs | ceil | floor | round
  | avg | min | max
  | log | log2 | log10 | exp | power
  | acos | asin | atan | cos | sin | tan
  | conv
  | random | rand
  | radians | degrees
  | sum | count | distinct
  deriving DecidableEq, Repr

namespace SqlFunction

def all : List SqlFunction :=
  [.abs, .ceil, .floor, .round, .avg, .min, .max, .log, .log2, .log10, .exp, .power, .acos, .asin,
    .atan, .cos, .sin, .tan, .conv, .random, .rand, .radians, .degrees, .sum, .count, .distinct]

def name : SqlFunction → String
  | .abs => "ABS"
  | .ceil => "CEIL"
  | .floor => "FLOOR"
  | .round => "ROUND"
  | .avg => "AVG"
  | .min => "MIN"
  | .max => "MAX"
  | .log => "LOG"
  | .log2 => "LOG2"
  | .log10 => "LOG10"
  | .exp => "EXP"
  | .power => "POWER"
  | .acos => "ACOS"
  | .asin => "ASIN"
  | .atan => "ATAN"
  | .cos => "COS"
  | .sin => "SIN"
  | .tan => "TAN"
  | .conv => "CONV"
  | .random => "RANDOM"
  | .rand => "RAND"
  | .radians => "RADIANS"
  | .degrees => "DEGREES"
  | .sum => "SUM"
  | .count => "COUNT"
  | .distinct => "DISTINCT"

def ofName (name : String) : Except Fault SqlFunction :=
  match all.find? fun f => sameLetters f.name name with
  | some f => .ok f
  | none => .error (.query (.unknownFunction name))

end SqlFunction

end QueryKit
