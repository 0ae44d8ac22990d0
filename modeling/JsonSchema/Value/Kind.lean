/-!
The kinds of document values.
-/

namespace JsonSchema

/-- The kind of a value. A reference is an object that carries a string under the reserved name. -/
inductive Kind where
  | null
  | boolean
  | integer
  | number
  | string
  | array
  | object
  | reference
  deriving DecidableEq, Repr

/-- The name of a kind. -/
def Kind.name : Kind → String
  | .null => "null"
  | .boolean => "boolean"
  | .integer => "integer"
  | .number => "number"
  | .string => "string"
  | .array => "array"
  | .object => "object"
  | .reference => "reference"

end JsonSchema
