/-!
The syntax of regular expressions as a tree, before flags and classes get their meaning.
-/

namespace JsonSchema.Regex

/-! ## Flags -/

/-- A flag: case, lines, points, greed, character set, line ends, blanks in the expression. -/
inductive Flag where
  | caseInsensitive
  | multiLine
  | dotMatchesNewLine
  | swapGreed
  | unicode
  | crlf
  | ignoreWhitespace
  deriving DecidableEq

/-- Flags that are switched on or off. -/
abbrev FlagChanges := List (Flag × Bool)

/-! ## Classes -/

/-- The classes with a one-letter escape. -/
inductive LetterClass where
  | digit
  | space
  | word
  deriving DecidableEq

/-- The classes named between brackets and colons. -/
inductive AsciiClass where
  | alnum
  | alpha
  | ascii
  | blank
  | cntrl
  | digit
  | graph
  | lower
  | print
  | punct
  | space
  | upper
  | word
  | xdigit
  deriving DecidableEq

/-- A class given by a character property: a name, or a property and its value. -/
inductive PropertyQuery where
  | name (text : List Char)
  | value (property text : List Char)

/-- An operation on two sets inside brackets. -/
inductive SetOperation where
  | intersection
  | difference
  | symmetricDifference
  deriving DecidableEq

/-- A character as written. `isByte` marks an escape of exactly two hexadecimal digits. -/
structure Literal where
  char : Char
  isByte : Bool

/-- A set between brackets. -/
inductive ClassSet where
  | empty
  | literal (c : Literal)
  | range (low high : Literal)
  | ascii (kind : AsciiClass) (negated : Bool)
  | letter (kind : LetterClass) (negated : Bool)
  | property (query : PropertyQuery) (negated : Bool)
  | bracketed (set : ClassSet) (negated : Bool)
  | union (items : List ClassSet)
  | operation (kind : SetOperation) (left right : ClassSet)

/-! ## Expressions -/

/-- A condition on a position. -/
inductive Assertion where
  | startLine
  | endLine
  | startText
  | endText
  | wordBoundary
  | notWordBoundary
  | wordStart
  | wordEnd
  | wordStartHalf
  | wordEndHalf
  deriving DecidableEq

/-- A regular expression as written. A group may capture, and may change flags inside. -/
inductive Syntax where
  | empty
  | flags (changes : FlagChanges)
  | literal (c : Literal)
  | dot
  | assertion (a : Assertion)
  | letter (kind : LetterClass) (negated : Bool)
  | property (query : PropertyQuery) (negated : Bool)
  | bracketed (set : ClassSet) (negated : Bool)
  | repetition (least : Nat) (most : Option Nat) (body : Syntax)
  | group (captures : Bool) (changes : FlagChanges) (body : Syntax)
  | concat (parts : List Syntax)
  | alternation (branches : List Syntax)

/-! ## Nesting -/

mutual

/-- The nesting of brackets, unions and operations in a set. -/
def ClassSet.depth : ClassSet → Nat
  | .bracketed set _ => set.depth + 1
  | .union items => depths items + 1
  | .operation _ left right => max left.depth right.depth + 1
  | _ => 0

/-- The deepest nesting in a list of sets. -/
def ClassSet.depths : List ClassSet → Nat
  | [] => 0
  | set :: rest => max set.depth (depths rest)

end

mutual

/-- The nesting of groups, repetitions, concatenations and alternations, with the sets in them. -/
def Syntax.depth : Syntax → Nat
  | .bracketed set _ => set.depth + 1
  | .repetition _ _ body => body.depth + 1
  | .group _ _ body => body.depth + 1
  | .concat parts => depths parts + 1
  | .alternation branches => depths branches + 1
  | _ => 0

/-- The deepest nesting in a list of expressions. -/
def Syntax.depths : List Syntax → Nat
  | [] => 0
  | s :: rest => max s.depth (depths rest)

end

end JsonSchema.Regex
