import JsonSchema.Json
import JsonSchema.Double.Decimal

/-!
The compact text of JSON: no blanks, and in strings only the quote, the backslash and the control
characters are escaped.
-/

namespace JsonSchema.Json

/-- The two hexadecimal digits of a byte. -/
def hexByte (n : Nat) : List Char :=
  [Nat.digitChar (n / 16 % 16), Nat.digitChar (n % 16)]

/-- A character as it stands inside a quoted string. -/
def escapeChar (c : Char) : List Char :=
  if c = '"' then ['\\', '"']
  else if c = '\\' then ['\\', '\\']
  else if c = '\n' then ['\\', 'n']
  else if c = '\r' then ['\\', 'r']
  else if c = '\t' then ['\\', 't']
  else if c.toNat = 8 then ['\\', 'b']
  else if c.toNat = 12 then ['\\', 'f']
  else if c.toNat < 32 then ['\\', 'u', '0', '0'] ++ hexByte c.toNat
  else [c]

/-- A string between quotes, escaped. -/
def quote (s : String) : String :=
  String.ofList ('"' :: s.toList.flatMap escapeChar ++ ['"'])

/-- The items between the brackets, with commas between them. -/
def bracketed (left right : String) (items : List String) : String :=
  left ++ ",".intercalate items ++ right

mutual

/-- The compact text of JSON. -/
def toText : Json → String
  | .null => "null"
  | .bool b => if b then "true" else "false"
  | .number (.integer i _) => toString i
  | .number (.decimal x) => x.toText
  | .string s => quote s
  | .array items => bracketed "[" "]" (itemTexts items)
  | .object members => bracketed "\x7b" "\x7d" (memberTexts members)

/-- The texts of the elements of an array. -/
def itemTexts : List Json → List String
  | [] => []
  | item :: rest => toText item :: itemTexts rest

/-- The texts of the members of an object: the quoted key, a colon, the value. -/
def memberTexts : List (String × Json) → List String
  | [] => []
  | (key, value) :: rest => (quote key ++ ":" ++ toText value) :: memberTexts rest

end

instance : ToString Json := ⟨toText⟩

end JsonSchema.Json
