import JsonSchema.Format
import JsonSchema.Value.Text

/-!
The constraints that a schema puts on a value. A constraint on the parts of a value refers to further
schemas by their numbers, so that recursive schemas are finite graphs.
-/

namespace JsonSchema

/-- The number of a schema in its graph. -/
structure SchemaId where
  index : Nat
  deriving DecidableEq, Inhabited

namespace SchemaId

/-- The schema that every graph begins with, which asks for nothing. -/
def empty : SchemaId := ⟨0⟩

/-- The name of a schema. -/
def toText (id : SchemaId) : String := "_:s" ++ toString id.index

end SchemaId

/-! ## Types -/

/-- A name of a type. Integers are numbers too, and so are numbers without fractional part integers. -/
inductive TypeName where
  | null
  | boolean
  | integer
  | number
  | string
  | array
  | object
  deriving DecidableEq

namespace TypeName

/-- The name as it is written. -/
def name : TypeName → String
  | .null => "null"
  | .boolean => "boolean"
  | .integer => "integer"
  | .number => "number"
  | .string => "string"
  | .array => "array"
  | .object => "object"

/-- All types. -/
def all : List TypeName := [.null, .boolean, .integer, .number, .string, .array, .object]

/-- The type of a name. -/
def ofName? (name : String) : Option TypeName := all.find? fun t => t.name == name

/-- The value is of the type. -/
def accepts (t : TypeName) (v : Value) : Bool :=
  match t, v.node with
  | .null, .null => true
  | .boolean, .boolean _ => true
  | .integer, .integer _ => true
  | .number, .integer _ => true
  | .integer, .number x => x.isIntegral
  | .number, .number _ => true
  | .string, .string _ => true
  | .array, .array _ => true
  | .object, .object _ => true
  | .object, .reference _ => true
  | _, _ => false

end TypeName

/-! ## Constraints -/

/-- The schemas of the elements of an array: one for all, or one for each of the first. -/
inductive ItemSchemas where
  | single (schema : SchemaId)
  | tuple (schemas : List SchemaId)
  deriving DecidableEq

/-- A constraint on a value. -/
inductive Constraint where
  | type (kinds : List TypeName)
  | minimum (bound : Double) (exclusive : Bool)
  | maximum (bound : Double) (exclusive : Bool)
  | multipleOf (quantity : Double)
  | minLength (count : Nat)
  | maxLength (count : Nat)
  | pattern (regex : Regex)
  | formatMinimum (bound : DateTime) (exclusive : Bool)
  | formatMaximum (bound : DateTime) (exclusive : Bool)
  | format (f : Format)
  | minItems (count : Nat)
  | maxItems (count : Nat)
  | uniqueItems
  | items (schemas : ItemSchemas) (additional : Option SchemaId)
  | minProperties (count : Nat)
  | maxProperties (count : Nat)
  | properties (named : List (String × SchemaId)) (patterns : List (Regex × SchemaId))
      (additional : Option SchemaId)
  | required (names : List String)
  | enum (values : List Value)
  | allOf (schemas : List SchemaId)
  | anyOf (schemas : List SchemaId)
  | oneOf (schemas : List SchemaId)
  | not (schema : SchemaId)

namespace Constraint

/-- The keyword of a schema document that the constraint comes from. -/
def keyword : Constraint → String
  | .type _ => "type"
  | .minimum .. => "minimum"
  | .maximum .. => "maximum"
  | .multipleOf _ => "multipleOf"
  | .minLength _ => "minLength"
  | .maxLength _ => "maxLength"
  | .pattern _ => "pattern"
  | .formatMinimum .. => "formatMinimum"
  | .formatMaximum .. => "formatMaximum"
  | .format _ => "format"
  | .minItems _ => "minItems"
  | .maxItems _ => "maxItems"
  | .uniqueItems => "uniqueItems"
  | .items .. => "items"
  | .minProperties _ => "minProperties"
  | .maxProperties _ => "maxProperties"
  | .properties .. => "properties"
  | .required _ => "required"
  | .enum _ => "enum"
  | .allOf _ => "allOf"
  | .anyOf _ => "anyOf"
  | .oneOf _ => "oneOf"
  | .not _ => "not"

/-- The schemas that the constraint refers to, in order. -/
def nested : Constraint → List SchemaId
  | .items (.single schema) additional => schema :: additional.toList
  | .items (.tuple schemas) additional => schemas ++ additional.toList
  | .properties named patterns additional => named.map (·.2) ++ patterns.map (·.2) ++ additional.toList
  | .allOf schemas => schemas
  | .anyOf schemas => schemas
  | .oneOf schemas => schemas
  | .not schema => [schema]
  | _ => []

/-- The text between single quotes. -/
def quoted (text : String) : String := "'" ++ text ++ "'"

/-- What a value has to be to meet the constraint, as a message. -/
def message : Constraint → String
  | .type [kind] => "The value must be of type " ++ quoted kind.name ++ "."
  | .type kinds =>
    "The value must be of one of the types " ++ ", ".intercalate (kinds.map fun k => quoted k.name) ++ "."
  | .minimum bound exclusive =>
    "The value must be greater than " ++ (if exclusive then "" else "or equal to ") ++ bound.toText ++ "."
  | .maximum bound exclusive =>
    "The value must be less than " ++ (if exclusive then "" else "or equal to ") ++ bound.toText ++ "."
  | .multipleOf quantity => "The value must be a multiple of " ++ quantity.toText ++ "."
  | .minLength n => "The string must be at least " ++ toString n ++ " characters long."
  | .maxLength n => "The string must be at most " ++ toString n ++ " characters long."
  | .pattern regex => "The string must match the pattern " ++ quoted regex.source ++ "."
  | .formatMinimum bound exclusive =>
    "The date-time must be " ++ (if exclusive then "" else "at or ") ++ "after " ++ bound.toText ++ "."
  | .formatMaximum bound exclusive =>
    "The date-time must be " ++ (if exclusive then "" else "at or ") ++ "before " ++ bound.toText ++ "."
  | .format f => "The string must be a valid " ++ quoted f.name ++ "."
  | .minItems n => "The array must have at least " ++ toString n ++ " items."
  | .maxItems n => "The array must have at most " ++ toString n ++ " items."
  | .uniqueItems => "The array items must be unique."
  | .items .. => "The array items must conform to their schemas."
  | .minProperties n => "The object must have at least " ++ toString n ++ " properties."
  | .maxProperties n => "The object must have at most " ++ toString n ++ " properties."
  | .properties .. => "The object members must conform to their schemas."
  | .required [name] => "The object must have the property " ++ quoted name ++ "."
  | .required names => "The object must have the properties " ++ ", ".intercalate (names.map quoted) ++ "."
  | .enum values => "The value must be one of " ++ ", ".intercalate (values.map Value.toText) ++ "."
  | .allOf _ => "The value must conform to all of the schemas."
  | .anyOf _ => "The value must conform to at least one of the schemas."
  | .oneOf _ => "The value must conform to exactly one of the schemas."
  | .not schema =>
    if schema = .empty then "No value is allowed here." else "The value must not conform to the schema."

end Constraint

end JsonSchema
