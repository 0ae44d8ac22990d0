import JsonSchema.Schema

/-!
The meta-schema: the schema that schema documents have to meet. It names every keyword with the shape of
its value. Its first node after the empty one describes schemas and is referred to wherever a keyword
holds schemas.
-/

namespace JsonSchema.Vocabulary

/-! ## The nodes -/

/-- The schema of schemas. -/
def schema : SchemaId := ⟨1⟩

/-- Strings. -/
def string : SchemaId := ⟨2⟩

/-- Booleans. -/
def boolean : SchemaId := ⟨3⟩

/-- Numbers. -/
def number : SchemaId := ⟨4⟩

/-- Arrays. -/
def array : SchemaId := ⟨5⟩

/-- Numbers above zero. -/
def positiveNumber : SchemaId := ⟨6⟩

/-- Integers from zero on. -/
def count : SchemaId := ⟨7⟩

/-- Date-times with an offset. -/
def dateTime : SchemaId := ⟨8⟩

/-- Regular expressions. -/
def regex : SchemaId := ⟨9⟩

/-- URI references. -/
def uriReference : SchemaId := ⟨10⟩

/-- Names of types. -/
def typeName : SchemaId := ⟨11⟩

/-- Lists of distinct names of types. -/
def typeNames : SchemaId := ⟨12⟩

/-- A type or several. -/
def typeKeyword : SchemaId := ⟨13⟩

/-- Lists of schemas. -/
def schemaArray : SchemaId := ⟨14⟩

/-- A schema or a list of them. -/
def itemsKeyword : SchemaId := ⟨15⟩

/-- A boolean or a schema. -/
def booleanOrSchema : SchemaId := ⟨16⟩

/-- Objects with a schema in every member. -/
def schemaMap : SchemaId := ⟨17⟩

/-- Lists of distinct strings. -/
def stringSet : SchemaId := ⟨18⟩

/-! ## The schemas -/

/-- Every keyword with the schema of its value. -/
def keywords : List (String × SchemaId) :=
  [ ("$schema", uriReference), ("$ref", uriReference), ("id", uriReference),
    ("title", string), ("description", string), ("default", .empty),
    ("type", typeKeyword),
    ("minimum", number), ("maximum", number),
    ("exclusiveMinimum", boolean), ("exclusiveMaximum", boolean),
    ("multipleOf", positiveNumber),
    ("minLength", count), ("maxLength", count), ("pattern", regex),
    ("formatMinimum", dateTime), ("formatMaximum", dateTime),
    ("formatExclusiveMinimum", boolean), ("formatExclusiveMaximum", boolean),
    ("format", string),
    ("minItems", count), ("maxItems", count), ("uniqueItems", boolean),
    ("items", itemsKeyword), ("additionalItems", booleanOrSchema),
    ("minProperties", count), ("maxProperties", count),
    ("properties", schemaMap), ("patternProperties", schemaMap),
    ("additionalProperties", booleanOrSchema), ("definitions", schemaMap),
    ("required", stringSet), ("enum", array),
    ("allOf", schemaArray), ("anyOf", schemaArray), ("oneOf", schemaArray), ("not", schema) ]

/-- The names of types as values, in one graph. -/
def typeNameGraph : Graph := ⟨metaSchemaTag, (TypeName.all.map fun t => Node.string t.name).toArray⟩

/-- The names of types as values. -/
def typeNameValues : List Value := (List.range TypeName.all.length).map fun i => ⟨typeNameGraph, i⟩

/-- A list of values that meet a schema. -/
def listOf (id : SchemaId) : Constraint := .items (.single id) none

/-- The nodes of the meta-schema, by their numbers. -/
def nodes : Array SchemaNode :=
  #[ {},
    { constraints := [.type [.object], .properties keywords [] none], title := some "Core schema meta-schema" },
    { constraints := [.type [.string]] },
    { constraints := [.type [.boolean]] },
    { constraints := [.type [.number]] },
    { constraints := [.type [.array]] },
    { constraints := [.type [.number], .minimum (.zero false) true] },
    { constraints := [.type [.integer], .minimum (.zero false) false] },
    { constraints := [.type [.string], .format .dateTime] },
    { constraints := [.type [.string], .format .regex] },
    { constraints := [.type [.string], .format .uriReference] },
    { constraints := [.type [.string], .enum typeNameValues] },
    { constraints := [.type [.array], .minItems 1, .uniqueItems, listOf typeName] },
    { constraints := [.anyOf [typeName, typeNames]] },
    { constraints := [.type [.array], .minItems 1, listOf schema] },
    { constraints := [.anyOf [schema, schemaArray]] },
    { constraints := [.anyOf [boolean, schema]] },
    { constraints := [.type [.object], .properties [] [] (some schema)] },
    { constraints := [.type [.array], .uniqueItems, listOf string] } ]

end JsonSchema.Vocabulary

namespace JsonSchema

/-- The schema of schema documents. -/
def metaSchema : Schema := ⟨⟨metaSchemaTag, Vocabulary.nodes⟩, Vocabulary.schema⟩

end JsonSchema
