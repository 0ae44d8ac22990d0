import JsonSchema.Regex.Parse
import JsonSchema.Regex.Size

/-!
Regular expressions: a text that reads as one is kept with its pattern. A pattern takes a set of
positions in a text to the set of positions where a match from one of them may end, and an expression
matches a text when it has a match that begins at any position.
-/

namespace JsonSchema

/-- A regular expression: its text and what it means. -/
structure Regex where
  source : String
  pattern : Regex.Pattern

namespace Regex

/-- Reads a regular expression; one that is too large is refused. -/
def ofText? (source : String) : Option Regex := do
  let expression ← Syntax.parse? source
  let (pattern, _) ← expression.pattern? {}
  if pattern.fits then some ⟨source, pattern⟩ else none

/-! ## Positions -/

/-- A text to be searched. -/
abbrev Subject := Array Char

/-- A set of positions, as the bits of a number: position `i` stands before the character `i`. -/
abbrev Positions := Nat

/-- The positions of a text, of which there is one more than characters. -/
def Subject.positions (subject : Subject) : List Nat := List.range (subject.size + 1)

/-- The positions of a text that pass a test. -/
def Subject.select (subject : Subject) (test : Nat → Bool) : Positions :=
  subject.positions.foldl (fun set i => if test i then set ||| 1 <<< i else set) 0

/-- The character before a position passes the test. -/
def Subject.before (subject : Subject) (i : Nat) (test : Char → Bool) : Bool :=
  0 < i && (subject[i - 1]?).any test

/-- The character after a position passes the test. -/
def Subject.after (subject : Subject) (i : Nat) (test : Char → Bool) : Bool :=
  (subject[i]?).any test

/-- The position meets the condition. -/
def Look.holds (subject : Subject) (i : Nat) : Look → Bool
  | .textStart => i == 0
  | .textEnd => i == subject.size
  | .lineStart => i == 0 || subject.before i (· == '\n')
  | .lineEnd => i == subject.size || subject.after i (· == '\n')
  | .crlfStart =>
    i == 0 || subject.before i (· == '\n') ||
      (subject.before i (· == '\r') && !subject.after i (· == '\n'))
  | .crlfEnd =>
    i == subject.size || subject.after i (· == '\r') ||
      (subject.after i (· == '\n') && !subject.before i (· == '\r'))
  | .boundary word => subject.before i word.contains != subject.after i word.contains
  | .notBoundary word => subject.before i word.contains == subject.after i word.contains
  | .wordStart word => !subject.before i word.contains && subject.after i word.contains
  | .wordEnd word => subject.before i word.contains && !subject.after i word.contains
  | .wordStartHalf word => !subject.before i word.contains
  | .wordEndHalf word => !subject.after i word.contains

/-! ## Matching -/

/-- Applies a step `count` times; a set of positions that the step leaves alone stays as it is. -/
def iterate (step : Positions → Positions) : Nat → Positions → Positions
  | 0, set => set
  | count + 1, set =>
    let next := step set
    if next = set then set else iterate step count next

/-- The positions reached by at most `count` steps. -/
def reach (step : Positions → Positions) : Nat → Positions → Positions
  | 0, set => set
  | count + 1, set =>
    let next := set ||| step set
    if next = set then set else reach step count next

/-- The positions where a match of the pattern from one of the given positions may end. A repetition
without upper bound takes at most one step for each position, as every useful step reaches a new one. -/
def Pattern.ends (subject : Subject) : Pattern → Positions → Positions
  | .empty, starts => starts
  | .chars set, starts =>
    subject.select fun i => 0 < i && starts.testBit (i - 1) && subject.before i set.contains
  | .look condition, starts => subject.select fun i => starts.testBit i && condition.holds subject i
  | .seq first second, starts => second.ends subject (first.ends subject starts)
  | .alt left right, starts => left.ends subject starts ||| right.ends subject starts
  | .repeated least most body, starts =>
    let more := match most with
      | some most => most - least
      | none => subject.size + 1
    reach (body.ends subject) more (iterate (body.ends subject) least starts)
  | .capture body, starts => body.ends subject starts

/-- The expression has a match somewhere in the text. -/
def isMatch (regex : Regex) (text : String) : Bool :=
  let subject : Subject := text.toList.toArray
  regex.pattern.ends subject (subject.select fun _ => true) != 0

end Regex

end JsonSchema
