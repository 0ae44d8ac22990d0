import JsonSchema.Proofs.Vocabulary

/-!
What a schema document is, said without schemas (`Grammar.Fits`): an object in which the value of each keyword, if there
is one, has the shape that the keyword asks for. Some shapes hold schema documents again, so this is an inductive
definition, and a document that never comes to an end does not fit. Keywords are listed by the shapes of their values;
the meta-schema has these keywords, each at the node of its shape, and one more, whose value is free.
-/

namespace JsonSchema

/-! ### Shapes -/

namespace Value

/-- A number above zero. -/
def IsPositive (v : Value) : Prop :=
  match v.node with
  | .integer i => 0 < i.toInt
  | .number x => (Double.zero false).lt x = true
  | _ => False

/-- A number from zero on without fractional part. -/
def IsCount (v : Value) : Prop :=
  match v.node with
  | .integer i => 0 ≤ i.toInt
  | .number x => x.isIntegral = true ∧ (Double.zero false).le x = true
  | _ => False

/-- The name of a type. -/
def IsTypeName (v : Value) : Prop := ∃ t : TypeName, v.asString? = some t.name

/-- A string with a property. -/
def IsText (P : String → Prop) (v : Value) : Prop := ∃ text, v.asString? = some text ∧ P text

/-- An array of distinct strings with a property. -/
def IsTexts (P : Value → Prop) (v : Value) : Prop :=
  v.isArray = true ∧ (∀ w ∈ v.elements, P w) ∧ (v.elements.map asString?).Nodup

end Value

namespace Grammar

/-- The shapes of values that hold no schemas. -/
inductive Plain where
  | string
  | boolean
  | number
  | positive
  | count
  | regex
  | dateTime
  | uriReference
  | types
  | array
  | names
  deriving DecidableEq

/-- The shapes of values of keywords. -/
inductive Shape where
  | plain (p : Plain)
  | schema
  | schemas
  | schemaOrSchemas
  | schemaOrBoolean
  | schemaMap
  deriving DecidableEq

/-- The keywords whose values have the shape. -/
def Plain.keywords : Plain → List String
  | .string => ["title", "description", "format"]
  | .boolean =>
    ["exclusiveMinimum", "exclusiveMaximum", "formatExclusiveMinimum", "formatExclusiveMaximum", "uniqueItems"]
  | .number => ["minimum", "maximum"]
  | .positive => ["multipleOf"]
  | .count => ["minLength", "maxLength", "minItems", "maxItems", "minProperties", "maxProperties"]
  | .regex => ["pattern"]
  | .dateTime => ["formatMinimum", "formatMaximum"]
  | .uriReference => ["$ref", "$schema", "id"]
  | .types => ["type"]
  | .array => ["enum"]
  | .names => ["required"]

/-- The keywords whose values have the shape. -/
def Shape.keywords : Shape → List String
  | .plain p => p.keywords
  | .schema => ["not"]
  | .schemas => ["allOf", "anyOf", "oneOf"]
  | .schemaOrSchemas => ["items"]
  | .schemaOrBoolean => ["additionalItems", "additionalProperties"]
  | .schemaMap => ["properties", "patternProperties", "definitions"]

/-- The value has the shape. -/
def Plain.Meets (v : Value) : Plain → Prop
  | .string => v.IsText fun _ => True
  | .boolean => ∃ b, v.asBool? = some b
  | .number => ∃ x, v.asDouble? = some x
  | .positive => v.IsPositive
  | .count => v.IsCount
  | .regex => v.IsText fun text => (Regex.ofText? text).isSome = true
  | .dateTime => v.IsText fun text => (DateTime.parseZoned? text).isSome = true
  | .uriReference => v.IsText fun text => (UriReference.parse text).isOk = true
  | .types => v.IsTypeName ∨ v.elements ≠ [] ∧ v.IsTexts Value.IsTypeName
  | .array => v.isArray = true
  | .names => v.IsTexts (Value.IsText fun _ => True)

/-- The value has the shape. A schema document is an object in which each keyword that is there has a value of its
shape; other members may be anything. -/
inductive Fits : Shape → Value → Prop
  | plain {p : Plain} {v : Value} : p.Meets v → Fits (.plain p) v
  | schema {v : Value} : v.isObject = true →
      (∀ shape key w, key ∈ Shape.keywords shape → (key, w) ∈ v.members → Fits shape w) → Fits .schema v
  | schemas {v : Value} : v.isArray = true → v.elements ≠ [] → (∀ w ∈ v.elements, Fits .schema w) → Fits .schemas v
  | oneSchema {v : Value} : Fits .schema v → Fits .schemaOrSchemas v
  | manySchemas {v : Value} : Fits .schemas v → Fits .schemaOrSchemas v
  | boolean {v : Value} {b : Bool} : v.asBool? = some b → Fits .schemaOrBoolean v
  | noBoolean {v : Value} : Fits .schema v → Fits .schemaOrBoolean v
  | schemaMap {v : Value} : v.isObject = true → (∀ key w, (key, w) ∈ v.members → Fits .schema w) → Fits .schemaMap v

/-! ### Nodes of the meta-schema -/

/-- The node of the meta-schema for the shape. -/
def Plain.node : Plain → SchemaId
  | .string => Vocabulary.string
  | .boolean => Vocabulary.boolean
  | .number => Vocabulary.number
  | .positive => Vocabulary.positiveNumber
  | .count => Vocabulary.count
  | .regex => Vocabulary.regex
  | .dateTime => Vocabulary.dateTime
  | .uriReference => Vocabulary.uriReference
  | .types => Vocabulary.typeKeyword
  | .array => Vocabulary.array
  | .names => Vocabulary.stringSet

/-- The node of the meta-schema for the shape. -/
def Shape.node : Shape → SchemaId
  | .plain p => p.node
  | .schema => Vocabulary.schema
  | .schemas => Vocabulary.schemaArray
  | .schemaOrSchemas => Vocabulary.itemsKeyword
  | .schemaOrBoolean => Vocabulary.booleanOrSchema
  | .schemaMap => Vocabulary.schemaMap

/-- All shapes. -/
def Shape.all : List Shape :=
  [.plain .string, .plain .boolean, .plain .number, .plain .positive, .plain .count, .plain .regex, .plain .dateTime,
    .plain .uriReference, .plain .types, .plain .array, .plain .names, .schema, .schemas, .schemaOrSchemas,
    .schemaOrBoolean, .schemaMap]

/-- The meta-schema has the keywords of a shape at its node. -/
theorem Shape.mem_keywords {shape : Shape} {key : String} (h : key ∈ shape.keywords) :
    (key, shape.node) ∈ Vocabulary.keywords := by
  have hall : ∀ shape ∈ Shape.all, ∀ key ∈ shape.keywords, (key, shape.node) ∈ Vocabulary.keywords := by decide
  refine hall shape ?_ key h
  cases shape with
  | plain p => cases p <;> decide
  | _ => decide

/-- The meta-schema has no keywords but those of shapes, and one whose value is free. -/
theorem Shape.of_mem_keywords {key : String} {id : SchemaId} (h : (key, id) ∈ Vocabulary.keywords) :
    id = .empty ∨ ∃ shape : Shape, key ∈ shape.keywords ∧ shape.node = id := by
  have hall : ∀ entry ∈ Vocabulary.keywords, entry.2 = .empty ∨
      ∃ shape ∈ Shape.all, entry.1 ∈ shape.keywords ∧ shape.node = entry.2 := by decide
  exact (hall (key, id) h).imp_right fun ⟨shape, _, hshape⟩ => ⟨shape, hshape⟩

end Grammar

end JsonSchema
