import QueryKit.Fault

-- Comparators by name. A token is checked against the operators and the operand against the
-- operator; the named ones fit by construction.

namespace QueryKit.Comparator

def ofToken (token : String) (operand : Operand) : Except Fault Comparator :=
  match Operator.ofToken? token with
  | none => .error (.unsupportedOperator token)
  | some op =>
    if fits : operand.fits op = true then .ok ⟨op, operand, fits⟩
    else .error (.query (.misfit operand op))

def eq (v : Value) : Comparator := ⟨.eq, .value v, rfl⟩
def ne (v : Value) : Comparator := ⟨.ne, .value v, rfl⟩
def gt (v : Value) : Comparator := ⟨.gt, .value v, rfl⟩
def gte (v : Value) : Comparator := ⟨.gte, .value v, rfl⟩
def lt (v : Value) : Comparator := ⟨.lt, .value v, rfl⟩
def lte (v : Value) : Comparator := ⟨.lte, .value v, rfl⟩
def between (lower upper : Value) : Comparator := ⟨.between, .range lower upper, rfl⟩
def notBetween (lower upper : Value) : Comparator := ⟨.notBetween, .range lower upper, rfl⟩
def like (pattern : Value) : Comparator := ⟨.like, .expression pattern, rfl⟩
def notLike (pattern : Value) : Comparator := ⟨.notLike, .expression pattern, rfl⟩
def notIn (v : Value) : Comparator := ⟨.notIn, .value v, rfl⟩
def any (v : Value) : Comparator := ⟨.any, .value v, rfl⟩
def notAny (v : Value) : Comparator := ⟨.notAny, .value v, rfl⟩
def modulo (v : Value) : Comparator := ⟨.modulo, .value v, rfl⟩
def ancestor (v : Value) : Comparator := ⟨.ancestor, .value v, rfl⟩
def descendant (v : Value) : Comparator := ⟨.descendant, .value v, rfl⟩
def pathMatch (v : Value) : Comparator := ⟨.pathMatch, .value v, rfl⟩
def raw (template : String) (escapes : List Value) : Comparator := ⟨.raw, .raw template escapes, rfl⟩

end QueryKit.Comparator
