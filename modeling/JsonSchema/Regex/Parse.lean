import JsonSchema.Regex.Syntax
import JsonSchema.Text.Split
import JsonSchema.Unicode.Property

/-!
Reading regular expressions. The reader walks the characters once, with two facts to remember: whether
blanks and comments are skipped, and which group names are taken. There is neither look-around nor back
reference, and an expression that nests too deeply is refused. Reading only says whether a text is an
expression and which one; it gives no reason where it is none.
-/

namespace JsonSchema.Regex

open Text Unicode

/-! ## The reader -/

/-- What the reader knows: the characters that are left, whether blanks are skipped, the group names. -/
structure Reader where
  rest : List Char
  extended : Bool
  names : List (List Char)

/-- A step of the reader, which may refuse. -/
abbrev Read := StateT Reader Option

/-- A blank of any script. -/
def isBlank (c : Char) : Bool := whiteSpace.contains c

/-- Drops blanks and comments, which reach from a number sign to the end of the line. -/
def skipBlank (inComment : Bool) : List Char → List Char
  | [] => []
  | c :: rest =>
    if inComment then skipBlank (c != '\n') rest
    else if isBlank c then skipBlank false rest
    else if c == '#' then skipBlank true rest
    else c :: rest

/-- The characters from the next one that counts. -/
def Reader.skipped (r : Reader) : List Char := if r.extended then skipBlank false r.rest else r.rest

/-- Skips blanks and comments where they do not count. -/
def skip : Read Unit := modify fun r => { r with rest := r.skipped }

/-- The next character, if there is one. -/
def peek? : Read (Option Char) := do return (← get).rest.head?

/-- The next character; refuses at the end. -/
def peek : Read Char := do
  match (← get).rest with
  | c :: _ => return c
  | [] => failure

/-- Goes one character on. -/
def advance : Read Unit := modify fun r => { r with rest := r.rest.drop 1 }

/-- Goes one character on, and over what does not count after it. -/
def advanceSkip : Read Unit := do advance; skip

/-- Takes the given characters if they come next. -/
def accept (expected : List Char) : Read Bool := do
  let r ← get
  if expected.isPrefixOf r.rest then
    set { r with rest := r.rest.drop expected.length }
    return true
  else return false

/-- Refuses unless the condition holds. -/
def require (condition : Bool) : Read Unit := if condition then pure () else failure

/-! ## Numbers -/

/-- Takes characters as long as they pass; `fuel` bounds their number. -/
def takeSkipping (pass : Char → Bool) : Nat → Read (List Char)
  | 0 => pure []
  | fuel + 1 => do
    match ← peek? with
    | none => return []
    | some c =>
      if pass c then
        advanceSkip
        return c :: (← takeSkipping pass fuel)
      else return []

/-- As many steps as there are characters left. -/
def remaining : Read Nat := do return (← get).rest.length

/-- Reads a number of 32 bits in decimal, with blanks around it. -/
def decimal : Read Nat := do
  modify fun r => { r with rest := r.rest.dropWhile isBlank }
  let digits ← takeSkipping Char.isDigit (← remaining)
  let _ ← takeSkipping isBlank (← remaining)
  let n := digits.foldl (fun n c => 10 * n + (c.toNat - '0'.toNat)) 0
  require (!digits.isEmpty && n < Nat.pow 2 32)
  return n

/-- The character with a number; a surrogate or a number beyond the last character has none. -/
def charOf? (n : Nat) : Option Char := if n.isValidChar then some (Char.ofNat n) else none

/-- Reads `count` hexadecimal digits more. -/
def hexDigits (value : Nat) : Nat → Read Nat
  | 0 => return value
  | count + 1 => do
    let digit ← hexValue? (← peek)
    advanceSkip
    hexDigits (16 * value + digit) count

/-- Reads hexadecimal digits up to the closing brace. -/
def hexBraced (value : Nat) (found : Bool) : Nat → Read Nat
  | 0 => failure
  | fuel + 1 => do
    let c ← peek
    if c == '\x7d' then
      require found
      advanceSkip
      return value
    else
      let digit ← hexValue? c
      advanceSkip
      hexBraced (min (16 * value + digit) (Nat.pow 2 32)) true fuel

/-- Reads a character by its number, after the letter that gives the number of digits. -/
def hexLiteral (letter : Char) : Read Literal := do
  advanceSkip
  if (← peek) == '\x7b' then
    advanceSkip
    let n ← hexBraced 0 false ((← remaining) + 1)
    return ⟨← charOf? n, false⟩
  else
    let n ← hexDigits 0 (if letter == 'x' then 2 else if letter == 'u' then 4 else 8)
    return ⟨← charOf? n, letter == 'x'⟩

/-! ## Escapes -/

/-- A primitive part: what stands for itself, and what an escape means. -/
inductive Primitive where
  | literal (c : Literal)
  | assertion (a : Assertion)
  | dot
  | letter (kind : LetterClass) (negated : Bool)
  | property (query : PropertyQuery) (negated : Bool)

/-- The primitive part as an expression. -/
def Primitive.toSyntax : Primitive → Syntax
  | .literal c => .literal c
  | .assertion a => .assertion a
  | .dot => .dot
  | .letter kind negated => .letter kind negated
  | .property query negated => .property query negated

/-- The primitive part as a set; conditions on positions are none. -/
def Primitive.toClassSet? : Primitive → Option ClassSet
  | .literal c => some (.literal c)
  | .letter kind negated => some (.letter kind negated)
  | .property query negated => some (.property query negated)
  | .assertion _ | .dot => none

/-- The primitive part as an end of a range. -/
def Primitive.toLiteral? : Primitive → Option Literal
  | .literal c => some c
  | _ => none

/-- Characters with a meaning of their own. -/
def isMeta (c : Char) : Bool := "\\.+*?()|[]\x7b\x7d^$#&-~".toList.contains c

/-- ASCII characters that a backslash leaves as they are. -/
def isEscapable (c : Char) : Bool :=
  isMeta c || (c.toNat < 128 && !c.isAlphanum && c != '<' && c != '>')

/-- The place of a part in a list of characters, and the characters around it. -/
def cutAt (separator : List Char) : List Char → Option (List Char × List Char)
  | [] => none
  | c :: rest =>
    if separator.isPrefixOf (c :: rest) then some ([], (c :: rest).drop separator.length)
    else (cutAt separator rest).map fun (before, after) => (c :: before, after)

/-- A property as it is named between braces: a name, or a property and a value; `!=` negates. -/
def propertyQuery (text : List Char) : PropertyQuery × Bool :=
  match cutAt ['!', '='] text with
  | some (property, value) => (.value property value, true)
  | none =>
    match cutAt [':'] text with
    | some (property, value) => (.value property value, false)
    | none =>
      match cutAt ['='] text with
      | some (property, value) => (.value property value, false)
      | none => (.name text, false)

/-- Reads a class given by a property, from its letter on. -/
def property (negated : Bool) : Read Primitive := do
  advanceSkip
  let c ← peek
  if c == '\x7b' then
    advanceSkip
    let text ← takeSkipping (· != '\x7d') (← remaining)
    let _ ← peek
    advance
    let (query, inverted) := propertyQuery text
    return .property query (negated != inverted)
  else
    require (c != '\\')
    advanceSkip
    return .property (.name [c]) negated

/-- The special word boundary that a name stands for. -/
def boundary? (name : List Char) : Option Assertion :=
  match String.ofList name with
  | "start" => some .wordStart
  | "end" => some .wordEnd
  | "start-half" => some .wordStartHalf
  | "end-half" => some .wordEndHalf
  | _ => none

/-- Reads what may follow the letter of a word boundary: a name in braces makes it a special one. Braces
that hold no name are left to be read as a repetition. -/
def wordBoundary : Read Assertion := do
  if (← peek?) != some '\x7b' then return .wordBoundary
  let r ← get
  advanceSkip
  let isName (c : Char) := c.isAlpha || c == '-'
  if isName (← peek) then
    let name ← takeSkipping isName (← remaining)
    require ((← peek) == '\x7d')
    advance
    boundary? name
  else
    set r
    return .wordBoundary

/-- Reads an escape, from its backslash on. -/
def escape : Read Primitive := do
  advance
  let c ← peek
  if c.isDigit then failure
  else if c == 'x' || c == 'u' || c == 'U' then return .literal (← hexLiteral c)
  else if c == 'p' || c == 'P' then property (c == 'P')
  else
    advance
    if isEscapable c then return .literal ⟨c, false⟩
    match c with
    | 'd' => return .letter .digit false
    | 'D' => return .letter .digit true
    | 's' => return .letter .space false
    | 'S' => return .letter .space true
    | 'w' => return .letter .word false
    | 'W' => return .letter .word true
    | 'a' => return .literal ⟨'\x07', false⟩
    | 'f' => return .literal ⟨'\x0c', false⟩
    | 't' => return .literal ⟨'\t', false⟩
    | 'n' => return .literal ⟨'\n', false⟩
    | 'r' => return .literal ⟨'\r', false⟩
    | 'v' => return .literal ⟨'\x0b', false⟩
    | 'A' => return .assertion .startText
    | 'z' => return .assertion .endText
    | 'b' => return .assertion (← wordBoundary)
    | 'B' => return .assertion .notWordBoundary
    | '<' => return .assertion .wordStart
    | '>' => return .assertion .wordEnd
    | _ => failure

/-- Reads a primitive part. -/
def primitive : Read Primitive := do
  let c ← peek
  match c with
  | '\\' => escape
  | '.' => advance; return .dot
  | '^' => advance; return .assertion .startLine
  | '$' => advance; return .assertion .endLine
  | c => advance; return .literal ⟨c, false⟩

/-! ## Sets between brackets -/

/-- The class that a name between brackets and colons stands for. -/
def asciiClass? (name : List Char) : Option AsciiClass :=
  match String.ofList name with
  | "alnum" => some .alnum
  | "alpha" => some .alpha
  | "ascii" => some .ascii
  | "blank" => some .blank
  | "cntrl" => some .cntrl
  | "digit" => some .digit
  | "graph" => some .graph
  | "lower" => some .lower
  | "print" => some .print
  | "punct" => some .punct
  | "space" => some .space
  | "upper" => some .upper
  | "word" => some .word
  | "xdigit" => some .xdigit
  | _ => none

/-- A named class at the front of the characters, with the characters after it. -/
def namedClass? : List Char → Option (ClassSet × List Char)
  | '[' :: ':' :: rest =>
    let (negated, rest) := match rest with
      | '^' :: rest => (true, rest)
      | rest => (false, rest)
    match asciiClass? (rest.takeWhile (· != ':')), rest.dropWhile (· != ':') with
    | some kind, ':' :: ']' :: rest => some (.ascii kind negated, rest)
    | _, _ => none
  | _ => none

/-- Reads one item of a set: a character or a class. -/
def setItem : Read Primitive := do
  if (← peek) == '\\' then escape
  else
    let c ← peek
    advance
    return .literal ⟨c, false⟩

/-- The character that follows a hyphen in a set. Where blanks do not count they are passed over, and a
number sign with them; the text of a comment is not. -/
def afterHyphen (extended : Bool) (rest : List Char) : Option Char :=
  if extended then
    let past := match rest.dropWhile isBlank with
      | '#' :: comment => comment.dropWhile isBlank
      | rest => rest
    past.head? <|> rest.head?
  else rest.head?

/-- Reads an item or a range. A hyphen before the closing bracket or another hyphen makes no range. -/
def setRange : Read ClassSet := do
  let first ← setItem
  skip
  let c ← peek
  let r ← get
  let next := afterHyphen r.extended (r.rest.drop 1)
  if c != '-' || next == some ']' || next == some '-' then first.toClassSet?
  else
    advanceSkip
    let _ ← peek
    let low ← first.toLiteral?
    let high ← (← setItem).toLiteral?
    require (low.char ≤ high.char)
    return .range low high

/-- The items of a set as one set. -/
def unionOf : List ClassSet → ClassSet
  | [] => .empty
  | [item] => item
  | items => .union items

/-- The set read so far: the operations to the left are done before what follows. -/
def combine (left : Option (ClassSet × SetOperation)) (right : ClassSet) : ClassSet :=
  match left with
  | none => right
  | some (left, kind) => .operation kind left right

/-- Reads hyphens that stand for themselves at the front of a set. -/
def leadingHyphens : Nat → Read (List ClassSet)
  | 0 => return []
  | fuel + 1 => do
    if (← peek) == '-' then
      advanceSkip
      return .literal ⟨'-', false⟩ :: (← leadingHyphens fuel)
    else return []

/-- Reads the front of a set after its opening bracket: a caret, and then hyphens or a closing bracket
that stand for themselves. -/
def setFront : Read (Bool × List ClassSet) := do
  advanceSkip
  let negated := (← peek) == '^'
  if negated then advanceSkip
  let hyphens ← leadingHyphens ((← remaining) + 1)
  if hyphens.isEmpty && (← peek) == ']' then
    advanceSkip
    let _ ← peek
    return (negated, [.literal ⟨']', false⟩])
  else return (negated, hyphens)

/-- Reads a set up to its closing bracket. The items are in reverse; `left` holds the sets and the
operation before them. -/
def setBody (left : Option (ClassSet × SetOperation)) (items : List ClassSet) : Nat → Read ClassSet
  | 0 => failure
  | fuel + 1 => do
    skip
    let done := combine left (unionOf items.reverse)
    match (← get).rest with
    | [] => failure
    | '[' :: _ =>
      let r ← get
      match namedClass? r.rest with
      | some (set, rest) =>
        StateT.set { r with rest }
        setBody left (set :: items) fuel
      | none =>
        let (negated, front) ← setFront
        let inner ← setBody none front.reverse fuel
        setBody left (.bracketed inner negated :: items) fuel
    | ']' :: _ =>
      advance
      return done
    | '&' :: '&' :: _ => advance; advance; setBody (some (done, .intersection)) [] fuel
    | '-' :: '-' :: _ => advance; advance; setBody (some (done, .difference)) [] fuel
    | '~' :: '~' :: _ => advance; advance; setBody (some (done, .symmetricDifference)) [] fuel
    | _ => setBody left ((← setRange) :: items) fuel

/-- Reads a set, from its opening bracket on. -/
def bracketed : Read Syntax := do
  let (negated, front) ← setFront
  let set ← setBody none front.reverse ((← remaining) + 1)
  return .bracketed set negated

/-! ## Groups -/

/-- The flag of a letter. -/
def flag? : Char → Option Flag
  | 'i' => some .caseInsensitive
  | 'm' => some .multiLine
  | 's' => some .dotMatchesNewLine
  | 'U' => some .swapGreed
  | 'u' => some .unicode
  | 'R' => some .crlf
  | 'x' => some .ignoreWhitespace
  | _ => none

/-- Reads flags up to a colon or a closing parenthesis. No flag comes twice, a minus sign comes once and
a flag follows it. -/
def flags (changes : FlagChanges) (negated dangling : Bool) : Nat → Read FlagChanges
  | 0 => failure
  | fuel + 1 => do
    let c ← peek
    if c == ':' || c == ')' then
      require (!dangling)
      return changes.reverse
    else if c == '-' then
      require (!negated)
      advance
      flags changes true true fuel
    else
      let flag ← flag? c
      require (changes.all fun change => change.1 != flag)
      advance
      flags ((flag, !negated) :: changes) negated false fuel

/-- A character at the front of a group name. -/
def isNameStart (c : Char) : Bool := c == '_' || alphabeticLatest.contains c

/-- A character of a group name. -/
def isNameChar (c : Char) : Bool :=
  isNameStart c || c == '.' || c == '[' || c == ']' || numericLatest.contains c

/-- Reads a group name and the bracket that closes it; no two groups have the same name. -/
def groupName : Read Unit := do
  let r ← get
  let name := r.rest.takeWhile (· != '>')
  let rest := r.rest.dropWhile (· != '>')
  match name with
  | [] => failure
  | first :: others =>
    require (isNameStart first && others.all isNameChar)
    require (!rest.isEmpty && !r.names.contains name)
    set { r with rest := rest.drop 1, names := name :: r.names }

/-- The setting of a flag after changes. -/
def setting (flag : Flag) (changes : FlagChanges) (before : Bool) : Bool :=
  (changes.lookup flag).getD before

/-- What an opening parenthesis begins. -/
inductive Opening where
  | flags (changes : FlagChanges)
  | group (captures : Bool) (changes : FlagChanges)

/-- Reads the front of a group, from its parenthesis on. -/
def opening : Read Opening := do
  advanceSkip
  for lookAround in ["?=", "?!", "?<=", "?<!"] do
    require (!lookAround.toList.isPrefixOf (← get).rest)
  if (← accept ['?', 'P', '<']) then
    groupName
    return .group true []
  if (← accept ['?', '<']) then
    groupName
    return .group true []
  if (← accept ['?']) then
    let changes ← flags [] false false ((← remaining) + 1)
    let closing ← peek
    advance
    if closing == ')' then
      require (!changes.isEmpty)
      return .flags changes
    else return .group false changes
  return .group true []

/-! ## Expressions -/

/-- The part that a repetition repeats, which is the last one read. -/
def lastPart (parts : List Syntax) : Read (Syntax × List Syntax) :=
  match parts with
  | [] => failure
  | .empty :: _ => failure
  | .flags _ :: _ => failure
  | part :: before => return (part, before)

/-- Reads the mark of a repetition that takes as little as it can. -/
def lazyMark : Read Unit := do
  if (← peek?) == some '?' then advance

/-- Reads the bounds of a repetition, from the opening brace on. -/
def bounds : Read (Nat × Option Nat) := do
  advanceSkip
  let _ ← peek
  let least ← decimal
  let most ←
    if (← peek) == ',' then do
      advanceSkip
      if (← peek) == '\x7d' then pure none else some <$> decimal
    else pure (some least)
  require ((← peek) == '\x7d')
  advanceSkip
  lazyMark
  require (most.all (least ≤ ·))
  return (least, most)

/-- Parts one after the other as one expression. -/
def concatOf : List Syntax → Syntax
  | [] => .empty
  | [part] => part
  | parts => .concat parts

/-- Branches as one expression. -/
def alternationOf : List Syntax → Syntax
  | [] => .empty
  | [branch] => branch
  | branches => .alternation branches

mutual

/-- Reads the parts of a branch up to its end; those read before are in reverse. -/
def branch (parts : List Syntax) : Nat → Read Syntax
  | 0 => failure
  | fuel + 1 => do
    skip
    match ← peek? with
    | none | some ')' | some '|' => return concatOf parts.reverse
    | some '(' =>
      let outer := (← get).extended
      match ← opening with
      | .flags changes =>
        modify fun r => { r with extended := setting .ignoreWhitespace changes r.extended }
        branch (.flags changes :: parts) fuel
      | .group captures changes =>
        modify fun r => { r with extended := setting .ignoreWhitespace changes r.extended }
        let body ← alternatives [] fuel
        require ((← peek) == ')')
        modify fun r => { r with extended := outer }
        advance
        branch (.group captures changes body :: parts) fuel
    | some '[' => branch ((← bracketed) :: parts) fuel
    | some '?' =>
      let (part, before) ← lastPart parts
      advance
      lazyMark
      branch (.repetition 0 (some 1) part :: before) fuel
    | some '*' =>
      let (part, before) ← lastPart parts
      advance
      lazyMark
      branch (.repetition 0 none part :: before) fuel
    | some '+' =>
      let (part, before) ← lastPart parts
      advance
      lazyMark
      branch (.repetition 1 none part :: before) fuel
    | some '\x7b' =>
      let (part, before) ← lastPart parts
      let (least, most) ← bounds
      branch (.repetition least most part :: before) fuel
    | some _ => branch ((← primitive).toSyntax :: parts) fuel

/-- Reads branches up to a closing parenthesis or the end; those read before are in reverse. -/
def alternatives (branches : List Syntax) : Nat → Read Syntax
  | 0 => failure
  | fuel + 1 => do
    let next ← branch [] fuel
    if (← peek?) == some '|' then
      advance
      alternatives (next :: branches) fuel
    else return alternationOf (next :: branches).reverse

end

/-- The deepest nesting that is read. -/
def nestingLimit : Nat := 250

/-- Reads a regular expression. -/
def Syntax.parse? (text : String) : Option Syntax := do
  let chars := text.toList
  let (result, reader) ← (alternatives [] (2 * chars.length + 2)).run ⟨chars, false, []⟩
  if reader.rest.isEmpty && result.depth ≤ nestingLimit then some result else none

end JsonSchema.Regex
