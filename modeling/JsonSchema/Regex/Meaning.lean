import JsonSchema.Regex.Syntax
import JsonSchema.Unicode.Query
import JsonSchema.Unicode.Case

/-!
The meaning of a regular expression: flags are applied, classes become sets of code points, and what is
left are sets, conditions on positions, sequences, choices, repetitions and groups that capture. Without
the Unicode flag a class holds ASCII alone, and an expression that could match part of a character is
refused.
-/

namespace JsonSchema.Regex

open Unicode

/-! ## Patterns -/

/-- A condition on a position between two characters. -/
inductive Look where
  | textStart
  | textEnd
  | lineStart
  | lineEnd
  | crlfStart
  | crlfEnd
  | boundary (word : CodeSet)
  | notBoundary (word : CodeSet)
  | wordStart (word : CodeSet)
  | wordEnd (word : CodeSet)
  | wordStartHalf (word : CodeSet)
  | wordEndHalf (word : CodeSet)

/-- A regular expression as it is matched. -/
inductive Pattern where
  | empty
  | chars (set : CodeSet)
  | look (condition : Look)
  | seq (first second : Pattern)
  | alt (left right : Pattern)
  | repeated (least : Nat) (most : Option Nat) (body : Pattern)
  | capture (body : Pattern)

/-! ## Flags -/

/-- The flags in force. -/
structure Flags where
  caseInsensitive : Bool := false
  multiLine : Bool := false
  dotMatchesNewLine : Bool := false
  unicode : Bool := true
  crlf : Bool := false

/-- The flags after one change; greed and blanks have no part in the meaning. -/
def Flags.change (flags : Flags) : Flag × Bool → Flags
  | (.caseInsensitive, on) => { flags with caseInsensitive := on }
  | (.multiLine, on) => { flags with multiLine := on }
  | (.dotMatchesNewLine, on) => { flags with dotMatchesNewLine := on }
  | (.unicode, on) => { flags with unicode := on }
  | (.crlf, on) => { flags with crlf := on }
  | (.swapGreed, _) => flags
  | (.ignoreWhitespace, _) => flags

/-- The flags after changes. -/
def Flags.apply (flags : Flags) (changes : FlagChanges) : Flags := changes.foldl Flags.change flags

/-! ## Classes -/

/-- ASCII letters in the set, with the same letters in the other case. -/
def closeUnderAsciiCase (set : CodeSet) : CodeSet :=
  set ++ (List.range 26).flatMap fun i =>
    let upper := 'A'.toNat + i
    let lower := 'a'.toNat + i
    if CodeSet.mem set upper || CodeSet.mem set lower then [(upper, upper), (lower, lower)] else []

/-- The set with all spellings of its characters, if case does not matter. -/
def Flags.close (flags : Flags) (set : CodeSet) : CodeSet :=
  if flags.caseInsensitive then
    if flags.unicode then closeUnderCase set else closeUnderAsciiCase set
  else set

/-- The set or its complement. Without the Unicode flag a complement would hold parts of characters. -/
def Flags.negate? (flags : Flags) (negated : Bool) (set : CodeSet) : Option CodeSet :=
  if !negated then some set
  else if flags.unicode then some (CodeSet.complement set)
  else none

/-- The characters of a class named between colons. -/
def AsciiClass.set : AsciiClass → CodeSet
  | .alnum => [(0x30, 0x39), (0x41, 0x5A), (0x61, 0x7A)]
  | .alpha => [(0x41, 0x5A), (0x61, 0x7A)]
  | .ascii => [(0, 0x7F)]
  | .blank => [(0x09, 0x09), (0x20, 0x20)]
  | .cntrl => [(0, 0x1F), (0x7F, 0x7F)]
  | .digit => [(0x30, 0x39)]
  | .graph => [(0x21, 0x7E)]
  | .lower => [(0x61, 0x7A)]
  | .print => [(0x20, 0x7E)]
  | .punct => [(0x21, 0x2F), (0x3A, 0x40), (0x5B, 0x60), (0x7B, 0x7E)]
  | .space => [(0x09, 0x0D), (0x20, 0x20)]
  | .upper => [(0x41, 0x5A)]
  | .word => [(0x30, 0x39), (0x41, 0x5A), (0x5F, 0x5F), (0x61, 0x7A)]
  | .xdigit => [(0x30, 0x39), (0x41, 0x46), (0x61, 0x66)]

/-- The characters of a class with a one-letter escape. -/
def LetterClass.set (unicode : Bool) : LetterClass → CodeSet
  | .digit => if unicode then decimalDigit else AsciiClass.digit.set
  | .space => if unicode then whiteSpace else AsciiClass.space.set
  | .word => if unicode then wordCharacter else AsciiClass.word.set

/-- The characters that a query of properties asks for. -/
def PropertyQuery.set? : PropertyQuery → Option CodeSet
  | .name text => namedSet? text
  | .value property text => valuedSet? property text

/-- The code of a character in a set; without the Unicode flag a set holds ASCII alone. -/
def Flags.code? (flags : Flags) (c : Literal) : Option Nat :=
  if flags.unicode || c.char.toNat < 128 then some c.char.toNat else none

/-- The set of an operation. -/
def SetOperation.apply : SetOperation → CodeSet → CodeSet → CodeSet
  | .intersection => CodeSet.inter
  | .difference => CodeSet.diff
  | .symmetricDifference => CodeSet.symmetricDiff

/-- The characters of a class given by a property, which needs the Unicode flag. -/
def Flags.property? (flags : Flags) (query : PropertyQuery) (negated : Bool) : Option CodeSet := do
  let set ← query.set?
  if flags.unicode then flags.negate? negated (flags.close set) else none

mutual

/-- The characters of a set between brackets. -/
def ClassSet.codes? (flags : Flags) : ClassSet → Option CodeSet
  | .empty => some []
  | .literal c => do
    let code ← flags.code? c
    some [(code, code)]
  | .range low high => do
    let low ← flags.code? low
    let high ← flags.code? high
    some [(low, high)]
  | .ascii kind negated => flags.negate? negated (flags.close kind.set)
  | .letter kind negated => flags.negate? negated (kind.set flags.unicode)
  | .property query negated => flags.property? query negated
  | .bracketed set negated => do
    let codes ← set.codes? flags
    flags.negate? negated (flags.close codes)
  | .union items => unionCodes? flags items
  | .operation kind left right => do
    let left ← left.codes? flags
    let right ← right.codes? flags
    some (kind.apply (flags.close left) (flags.close right))

/-- The characters of several sets together. -/
def ClassSet.unionCodes? (flags : Flags) : List ClassSet → Option CodeSet
  | [] => some []
  | item :: rest => do
    let codes ← item.codes? flags
    let others ← unionCodes? flags rest
    some (codes ++ others)

end

/-! ## Expressions -/

/-- The pattern of a character. -/
def Flags.literal? (flags : Flags) (c : Literal) : Option Pattern :=
  let code := c.char.toNat
  if !flags.unicode && c.isByte && 127 < code then none
  else some (.chars (flags.close [(code, code)]))

/-- The pattern of a point: any character, or any but those that end a line. -/
def Flags.dot? (flags : Flags) : Option Pattern :=
  if !flags.unicode then none
  else if flags.dotMatchesNewLine then some (.chars CodeSet.full)
  else if flags.crlf then some (.chars (CodeSet.complement [(10, 10), (13, 13)]))
  else some (.chars (CodeSet.complement [(10, 10)]))

/-- The condition of an assertion. -/
def Flags.look (flags : Flags) (a : Assertion) : Look :=
  let word := LetterClass.word.set flags.unicode
  match a with
  | .startLine => if flags.multiLine then if flags.crlf then .crlfStart else .lineStart else .textStart
  | .endLine => if flags.multiLine then if flags.crlf then .crlfEnd else .lineEnd else .textEnd
  | .startText => .textStart
  | .endText => .textEnd
  | .wordBoundary => .boundary word
  | .notWordBoundary => .notBoundary word
  | .wordStart => .wordStart word
  | .wordEnd => .wordEnd word
  | .wordStartHalf => .wordStartHalf word
  | .wordEndHalf => .wordEndHalf word

mutual

/-- The pattern of an expression, with the flags in force after it: changes reach to the end of the
group they stand in. -/
def Syntax.pattern? (flags : Flags) : Syntax → Option (Pattern × Flags)
  | .empty => some (.empty, flags)
  | .flags changes => some (.empty, flags.apply changes)
  | .literal c => (flags.literal? c).map (·, flags)
  | .dot => flags.dot?.map (·, flags)
  | .assertion a => some (.look (flags.look a), flags)
  | .letter kind negated => do
    let codes ← flags.negate? negated (kind.set flags.unicode)
    some (.chars codes, flags)
  | .property query negated => do
    let codes ← flags.property? query negated
    some (.chars codes, flags)
  | .bracketed set negated => do
    let codes ← set.codes? flags
    let codes ← flags.negate? negated (flags.close codes)
    some (.chars codes, flags)
  | .repetition least most body => do
    let (pattern, _) ← body.pattern? flags
    some (.repeated least most pattern, flags)
  | .group captures changes body => do
    let (pattern, _) ← body.pattern? (flags.apply changes)
    some (if captures then .capture pattern else pattern, flags)
  | .concat parts => sequence? flags parts
  | .alternation branches => choice? flags branches

/-- The pattern of parts one after the other. -/
def Syntax.sequence? (flags : Flags) : List Syntax → Option (Pattern × Flags)
  | [] => some (.empty, flags)
  | part :: rest => do
    let (first, flags) ← part.pattern? flags
    let (second, flags) ← sequence? flags rest
    some (.seq first second, flags)

/-- The pattern of branches; no branch matches nothing. -/
def Syntax.choice? (flags : Flags) : List Syntax → Option (Pattern × Flags)
  | [] => some (.chars [], flags)
  | [branch] => branch.pattern? flags
  | branch :: rest => do
    let (left, flags) ← branch.pattern? flags
    let (right, flags) ← choice? flags rest
    some (.alt left right, flags)

end

end JsonSchema.Regex
