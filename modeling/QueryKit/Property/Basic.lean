import QueryKit.Value.Basic

-- Properties of a model: a name, the column it is stored in and the type that says how its values are coerced.

namespace QueryKit

inductive PropertyType where
  | object
  | json
  | point
  | array
  | date
  | number
  | custom (tag : String)
  deriving DecidableEq, Repr

namespace PropertyType

def ofTag (tag : String) : PropertyType :=
  if tag = "object" then .object
  else if tag = "json" then .json
  else if tag = "point" then .point
  else if tag = "array" then .array
  else if tag = "date" then .date
  else if tag = "number" then .number
  else .custom tag

def tag : PropertyType → String
  | .object => "object"
  | .json => "json"
  | .point => "point"
  | .array => "array"
  | .date => "date"
  | .number => "number"
  | .custom tag => tag

def isCustom : PropertyType → Bool
  | .custom _ => true
  | _ => false

theorem tag_ofTag (tag : String) : (ofTag tag).tag = tag := by
  unfold ofTag
  repeat' split
  all_goals first | rfl | (symm; assumption)

end PropertyType

-- What the bare elements of a stored array are read as; quoted ones are always text.
inductive ElementType where
  | text
  | int4
  | int8
  | float4
  | float8
  | bool
  deriving DecidableEq, Repr

structure Property where
  name : String
  mapsTo : String
  type : PropertyType
  key : Bool := false
  element : ElementType := .text
  deriving DecidableEq, Repr

end QueryKit
