import JsonSchema.Text.Split

/-!
Sets of code points as lists of closed ranges, in any order and possibly overlapping. Union is
appending; the other operations go through the ranges in ascending order. Tables of characters are
written as text, and a table of named sets is searched by name.
-/

namespace JsonSchema.Unicode

open Text

/-- A set of code points: those that lie in one of the ranges. -/
abbrev CodeSet := List (Nat × Nat)

namespace CodeSet

/-- The code point lies in one of the ranges. -/
def mem (set : CodeSet) (code : Nat) : Bool :=
  set.any fun (low, high) => low ≤ code && code ≤ high

/-- The set holds the character. -/
def contains (set : CodeSet) (c : Char) : Bool := mem set c.toNat

/-- The last code point. -/
def last : Nat := 0x10FFFF

/-- All code points. -/
def full : CodeSet := [(0, last)]

/-- The ranges in ascending order of their beginnings. -/
def sorted (set : CodeSet) : CodeSet := set.mergeSort fun a b => a.1 ≤ b.1

/-! ## Operations -/

/-- What lies between ascending ranges from `start` on. -/
def gaps (start : Nat) : List (Nat × Nat) → CodeSet
  | [] => if start ≤ last then [(start, last)] else []
  | (low, high) :: rest =>
    if start < low then (start, low - 1) :: gaps (max start (high + 1)) rest
    else gaps (max start (high + 1)) rest

/-- The code points that are not in the set. -/
def complement (set : CodeSet) : CodeSet := gaps 0 set.sorted

/-- The code points of both sets. -/
def inter (a b : CodeSet) : CodeSet := complement (complement a ++ complement b)

/-- The code points of the first set that are not in the second. -/
def diff (a b : CodeSet) : CodeSet := complement (complement a ++ b)

/-- The code points of exactly one of the sets. -/
def symmetricDiff (a b : CodeSet) : CodeSet := diff a b ++ diff b a

/-- Ascending ranges, with those that touch or overlap made one. `current` is the range before them. -/
def merge (current : Nat × Nat) : List (Nat × Nat) → CodeSet
  | [] => [current]
  | (low, high) :: rest =>
    if low ≤ current.2 + 1 then merge (current.1, max current.2 high) rest
    else current :: merge (low, high) rest

/-- The set as ascending ranges with gaps between them. -/
def normal (set : CodeSet) : CodeSet :=
  match set.sorted with
  | [] => []
  | first :: rest => merge first rest

/-! ## Sets as text -/

/-- The number that hexadecimal digits write. -/
def hexNumber (digits : List Char) : Nat :=
  digits.foldl (fun n c => 16 * n + (hexValue? c).getD 0) 0

/-- Every second code point from `low` to `high`. -/
def alternate (low high : Nat) : CodeSet :=
  (List.range ((high - low) / 2 + 1)).map fun i => (low + 2 * i, low + 2 * i)

/-- The code points of a word: a number, two numbers with a hyphen between them for a range, or with a
colon for every second code point of it. -/
def ofWord (word : List Char) : CodeSet :=
  match cut '-' word with
  | (low, some high) => [(hexNumber low, hexNumber high)]
  | (_, none) =>
    match cut ':' word with
    | (low, some high) => alternate (hexNumber low) (hexNumber high)
    | (code, none) => [(hexNumber code, hexNumber code)]

/-- The set that a text of hexadecimal numbers and ranges lists. -/
def ofText (text : String) : CodeSet := (words text.toList).flatMap ofWord

end CodeSet

/-! ## Named sets -/

/-- Something with its names, written as names are compared: in lower case, without blanks, hyphens and
underscores. -/
structure Named (α : Type) where
  names : List String
  value : α

/-- What the name stands for in a table. -/
def Named.find? {α : Type} (table : List (Named α)) (name : String) : Option α :=
  (table.find? fun entry => entry.names.contains name).map Named.value

end JsonSchema.Unicode
