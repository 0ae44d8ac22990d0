import JsonSchema.Double

/-!
JSON data. A number is an integer of 64 bits, with or without a sign, or a floating-point number. The
members of an object keep the order of the list.
-/

namespace JsonSchema

/-- A JSON number: an integer that 64 bits hold, signed or unsigned, or a floating-point number. -/
inductive Json.Number where
  | integer (i : Int) (fits : -Int.pow 2 63 ≤ i ∧ i < Int.pow 2 64)
  | decimal (x : Double)

namespace Json.Number

/-- The number as a signed integer of 64 bits, if it is one. -/
def asInteger? : Number → Option Int64
  | .integer i _ => if i < Int.pow 2 63 then some (Int64.ofInt i) else none
  | .decimal _ => none

/-- The nearest floating-point number. -/
def toDouble : Number → Double
  | .integer i _ => Double.ofInt i
  | .decimal x => x

/-- An integer is held exactly where 64 bits hold it, and otherwise as the nearest floating-point number. -/
def ofInt (i : Int) : Number :=
  if fits : -Int.pow 2 63 ≤ i ∧ i < Int.pow 2 64 then .integer i fits else .decimal (Double.ofInt i)

end Json.Number

/-- JSON data. -/
inductive Json where
  | null
  | bool (b : Bool)
  | number (n : Json.Number)
  | string (s : String)
  | array (items : List Json)
  | object (members : List (String × Json))
  deriving Inhabited

namespace Json

/-- The member of an object, the last one of that name. -/
def get? (json : Json) (key : String) : Option Json :=
  match json with
  | .object members => members.reverse.lookup key
  | _ => none

end Json

end JsonSchema
