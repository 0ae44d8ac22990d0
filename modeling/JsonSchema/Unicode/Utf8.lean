import JsonSchema.Unicode.CodeSet

/-!
Sets of code points in UTF-8: a set is cut into pieces in each of which every byte runs through a range
of its own.
-/

namespace JsonSchema.Unicode.Utf8

/-- The bytes of a character. -/
def encode (code : Nat) : List Nat :=
  if code < 0x80 then [code]
  else if code < 0x800 then [0xC0 + code / 64, 0x80 + code % 64]
  else if code < 0x10000 then [0xE0 + code / 4096, 0x80 + code / 64 % 64, 0x80 + code % 64]
  else [0xF0 + code / 262144, 0x80 + code / 4096 % 64, 0x80 + code / 64 % 64, 0x80 + code % 64]

/-- Closed ranges of bytes, one for each byte of a character. -/
abbrev Piece := List (Nat × Nat)

/-- The ranges of code points with equally many bytes, without the surrogates. -/
def bands : List (Nat × Nat) :=
  [(0, 0x7F), (0x80, 0x7FF), (0x800, 0xD7FF), (0xE000, 0xFFFF), (0x10000, 0x10FFFF)]

/-- The part of a range that lies in another. -/
def clip (range band : Nat × Nat) : Option (Nat × Nat) :=
  let low := max range.1 band.1
  let high := min range.2 band.2
  if low ≤ high then some (low, high) else none

/-- Cuts a range at the borders of blocks, so that of each size a piece lies in one block or fills whole
ones. The sizes ascend, and each divides the next. -/
def cutAtBlocks (low high : Nat) : List Nat → List (Nat × Nat)
  | [] => [(low, high)]
  | size :: larger =>
    if low / size = high / size then [(low, high)]
    else
      let filledFrom := (low + size - 1) / size * size
      let filledTo := (high + 1) / size * size
      let front := if low < filledFrom then [(low, filledFrom - 1)] else []
      let filled := if filledFrom < filledTo then cutAtBlocks filledFrom (filledTo - 1) larger else []
      let back := if filledTo ≤ high then [(filledTo, high)] else []
      front ++ filled ++ back

/-- The sizes of blocks whose members differ in the last one, two or three bytes. -/
def blockSizes : List Nat := [64, 4096, 262144]

/-- The pieces of a range of code points, in ascending order. -/
def rangePieces (range : Nat × Nat) : List Piece :=
  (bands.filterMap (clip range)).flatMap fun (low, high) =>
    (cutAtBlocks low high blockSizes).map fun (low, high) => (encode low).zip (encode high)

/-- The pieces of a set, in ascending order. -/
def pieces (set : CodeSet) : List Piece := set.normal.flatMap rangePieces

end JsonSchema.Unicode.Utf8
