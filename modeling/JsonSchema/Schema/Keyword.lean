import JsonSchema.Schema
import JsonSchema.Value.Text

/-!
What the keywords of a schema document say by themselves, without the schemas in them. A keyword whose
value has not the shape it should have says nothing.
-/

namespace JsonSchema.Keyword

/-- The value of a keyword is `true`. -/
def flag (v : Value) (keyword : String) : Bool := (v.get? keyword).bind Value.asBool? == some true

/-- The value of a keyword as a number. -/
def number? (v : Value) (keyword : String) : Option Double := (v.get? keyword).bind Value.asDouble?

/-- The value of a keyword as a string. -/
def string? (v : Value) (keyword : String) : Option String := (v.get? keyword).bind Value.asString?

/-- The value of a keyword as a date and time with a time zone. -/
def dateTime? (v : Value) (keyword : String) : Option DateTime :=
  (string? v keyword).bind DateTime.parseZoned?

/-- The largest count. -/
def countLimit : Nat := Nat.pow 2 64 - 1

/-- A value as a count: a number without sign and fractional part. Counts beyond the largest stand for the
largest. -/
def asCount? (v : Value) : Option Nat :=
  match v.node with
  | .integer i => if i.toInt < 0 then none else some i.toInt.toNat
  | .number x => if (Double.zero false).le x && x.isIntegral then some (min x.toNat countLimit) else none
  | _ => none

/-- The value of a keyword as a count. -/
def count? (v : Value) (keyword : String) : Option Nat := (v.get? keyword).bind asCount?

/-- The names of types that the value of the keyword `type` holds. -/
def typeNames (v : Value) : List TypeName :=
  match v.node with
  | .string name => (TypeName.ofName? name).toList
  | _ => v.elements.filterMap fun element => element.asString?.bind TypeName.ofName?

/-- The constraint on the type. -/
def type (v : Value) : List Constraint := ((v.get? "type").map fun t => .type (typeNames t)).toList

/-- The constraints on numbers. -/
def numeric (v : Value) : List Constraint :=
  ((number? v "minimum").map fun bound => .minimum bound (flag v "exclusiveMinimum")).toList ++
    ((number? v "maximum").map fun bound => .maximum bound (flag v "exclusiveMaximum")).toList ++
    ((number? v "multipleOf").map .multipleOf).toList

/-- The constraints on the length of strings. -/
def stringLengths (v : Value) : List Constraint :=
  ((count? v "minLength").map .minLength).toList ++ ((count? v "maxLength").map .maxLength).toList

/-- The constraints on the form of strings, apart from the pattern. -/
def stringForms (v : Value) : List Constraint :=
  ((dateTime? v "formatMinimum").map fun t => .formatMinimum t (flag v "formatExclusiveMinimum")).toList ++
    ((dateTime? v "formatMaximum").map fun t => .formatMaximum t (flag v "formatExclusiveMaximum")).toList ++
    (((string? v "format").bind Format.ofName?).map .format).toList

/-- The constraints on the length and uniqueness of arrays. -/
def arraySizes (v : Value) : List Constraint :=
  ((count? v "minItems").map .minItems).toList ++ ((count? v "maxItems").map .maxItems).toList ++
    (if flag v "uniqueItems" then [.uniqueItems] else [])

/-- The constraints on the number of members of objects. -/
def objectSizes (v : Value) : List Constraint :=
  ((count? v "minProperties").map .minProperties).toList ++
    ((count? v "maxProperties").map .maxProperties).toList

/-- The constraint on the names of members. -/
def required (v : Value) : List Constraint :=
  ((v.get? "required").map fun names => .required (names.elements.filterMap Value.asString?)).toList

/-- The constraint that lists the allowed values. -/
def enum (v : Value) : List Constraint := ((v.get? "enum").map fun values => .enum values.elements).toList

end JsonSchema.Keyword
