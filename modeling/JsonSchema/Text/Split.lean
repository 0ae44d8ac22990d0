/-!
Cutting a list of characters at separators. Nothing is lost: the fields with the separators between
them are the list again. Then the digits of hexadecimal numbers.
-/

namespace JsonSchema.Text

/-- The characters before the first separator, and those after it if there is one. -/
def cut (separator : Char) : List Char → List Char × Option (List Char)
  | [] => ([], none)
  | c :: rest =>
    if c = separator then ([], some rest)
    else ((c :: (cut separator rest).1), (cut separator rest).2)

/-- The fields of a list between separators; there is one field more than there are separators. -/
def fields (separator : Char) : List Char → List (List Char)
  | [] => [[]]
  | c :: rest =>
    if c = separator then [] :: fields separator rest
    else match fields separator rest with
      | first :: others => (c :: first) :: others
      | [] => [[c]]

/-- The characters before the last separator and those after it. -/
def cutLast (separator : Char) (chars : List Char) : Option (List Char × List Char) :=
  match cut separator chars.reverse with
  | (_, none) => none
  | (last, some before) => some (before.reverse, last.reverse)

/-- The words of a text: what stands between blanks and line ends. -/
def words (chars : List Char) : List (List Char) :=
  (fields ' ' (chars.map fun c => if c = '\n' then ' ' else c)).filter fun word => !word.isEmpty

/-! ## Hexadecimal digits -/

/-- The value of a hexadecimal digit of either case. -/
def hexValue? (c : Char) : Option Nat :=
  if c.isDigit then some (c.toNat - '0'.toNat)
  else if 'a' ≤ c ∧ c ≤ 'f' then some (c.toNat - 'a'.toNat + 10)
  else if 'A' ≤ c ∧ c ≤ 'F' then some (c.toNat - 'A'.toNat + 10)
  else none

/-- A hexadecimal digit of either case. -/
def isHexDigit (c : Char) : Bool := (hexValue? c).isSome

end JsonSchema.Text
