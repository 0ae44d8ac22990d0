import JsonSchema.Text.Split

/-!
The text of IP addresses. A version 4 address is four numbers up to 255 without leading zeros. A
version 6 address is eight groups of one to four hexadecimal digits; two colons stand for one group of
zeros or more, and the last two groups may be written as a version 4 address.
-/

namespace JsonSchema.Ip

open Text

/-- A number from 0 to 255, in at most three digits and without leading zeros. -/
def isOctet (chars : List Char) : Bool :=
  match chars with
  | [a] => a.isDigit
  | [a, b] => a.isDigit && b.isDigit && a != '0'
  | [a, b, c] =>
    a.isDigit && b.isDigit && c.isDigit && a != '0' &&
      (a.toNat - 48) * 100 + (b.toNat - 48) * 10 + (c.toNat - 48) ≤ 255
  | _ => false

/-- The text of a version 4 address. -/
def isV4 (chars : List Char) : Bool :=
  let parts := fields '.' chars
  parts.length == 4 && parts.all isOctet

/-- One group of a version 6 address. -/
def isGroup (chars : List Char) : Bool :=
  !chars.isEmpty && chars.length ≤ 4 && chars.all isHexDigit

/-- The number of groups that a list of fields stands for, where `last` says that a version 4 address
may come last. -/
def groups? (last : Bool) : List (List Char) → Option Nat
  | [] => some 0
  | [field] => if isGroup field then some 1 else if last && isV4 field then some 2 else none
  | field :: rest => if isGroup field then (groups? last rest).map (· + 1) else none

/-- The number of groups on one side of the two colons; the side may be empty. -/
def side? (last : Bool) (chars : List Char) : Option Nat :=
  if chars.isEmpty then some 0 else groups? last (fields ':' chars)

/-- The characters before and after the first two colons in a row. -/
def cutGap : List Char → Option (List Char × List Char)
  | ':' :: ':' :: rest => some ([], rest)
  | c :: rest => (cutGap rest).map fun (before, after) => (c :: before, after)
  | [] => none

/-- The text of a version 6 address. -/
def isV6 (chars : List Char) : Bool :=
  match cutGap chars with
  | none => side? true chars == some 8
  | some (before, after) =>
    match side? false before, side? true after with
    | some a, some b => a + b ≤ 7
    | _, _ => false

end JsonSchema.Ip
