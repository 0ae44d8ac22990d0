import JsonSchema.Json
import JsonSchema.Text.Split
import JsonSchema.Members
import JsonSchema.Double.Decimal

/-!
Reading JSON text. Each reader takes the characters that are left and returns what it read with the
characters after it, or nothing where the text is not JSON. The members of an object come out in
ascending order of their keys, the last of each key.
-/

namespace JsonSchema.Json

/-! ## Numbers -/

/-- The largest significand that is collected. -/
def significandLimit : Nat := Nat.pow 2 64 - 1

/-- Collects decimal digits while the significand stays within its limit. Gives the significand and the
number of digits taken. -/
def collect (significand : Nat) (taken : Nat) : List Char → Nat × Nat
  | [] => (significand, taken)
  | c :: rest =>
    let next := 10 * significand + (c.toNat - '0'.toNat)
    if next ≤ significandLimit then collect next (taken + 1) rest else (significand, taken)

/-- A power of ten as a floating-point number. -/
def powerOfTen (n : Nat) : Double := Double.ofRatio false (Nat.pow 10 n) 1

/-- `x * 10^exponent` by one multiplication or division; smaller powers than `10^-308` take one division
by `10^308` each, and `fuel` bounds their number. A result that is too large is refused. -/
def scale (x : Double) (exponent : Int) : Nat → Option Double
  | 0 => some x
  | fuel + 1 =>
    if exponent.natAbs ≤ 308 then
      let y := if 0 ≤ exponent then x.mul (powerOfTen exponent.natAbs) else x.div (powerOfTen exponent.natAbs)
      if y.isFinite then some y else none
    else if x.eq (.zero false) then some x
    else if 0 ≤ exponent then none
    else scale (x.div (powerOfTen 308)) (exponent + 308) fuel

/-- A number token in its parts: digits before the point, digits after it, the exponent. -/
structure Token where
  negative : Bool
  whole : List Char
  fraction : List Char
  exponent : Int
  /-- There is neither a point nor an exponent. -/
  isInteger : Bool

/-- The floating-point number of a token: the significand has as many digits as 64 bits hold, the digits
after them count as zeros before the point and are dropped after it. -/
def Token.toDouble? (t : Token) : Option Double :=
  let (whole, taken) := collect 0 0 t.whole
  let skipped := t.whole.length - taken
  let (significand, places) := collect whole 0 t.fraction
  let x := scale (Double.ofInt significand) ((skipped : Int) - places + t.exponent) 4
  if t.negative then x.map Double.neg else x

/-- The number of a token: an integer where 64 bits hold it, with `-0` a floating-point number. -/
def Token.toNumber? (t : Token) : Option Number :=
  let n := Double.digitsValue t.whole
  if t.isInteger && n ≤ significandLimit then
    if t.negative then if n = 0 then some (.decimal (.zero true)) else some (.ofInt (-(n : Int)))
    else some (.ofInt n)
  else t.toDouble?.map .decimal

/-- Reads the sign of a number. -/
def Token.sign : List Char → Bool × List Char
  | '-' :: rest => (true, rest)
  | rest => (false, rest)

/-- Reads the digits before the point: there is at least one, and a zero only stands alone. -/
def Token.whole? (chars : List Char) : Option (List Char × List Char) :=
  let whole := chars.takeWhile Char.isDigit
  if whole.isEmpty || (whole.length > 1 && whole.head? == some '0') then none
  else some (whole, chars.dropWhile Char.isDigit)

/-- Reads a point and the digits behind it, if there is one. -/
def Token.fraction? : List Char → Option (Option (List Char) × List Char)
  | '.' :: more =>
    let digits := more.takeWhile Char.isDigit
    if digits.isEmpty then none else some (some digits, more.dropWhile Char.isDigit)
  | rest => some (none, rest)

/-- Reads an exponent, if there is one. -/
def Token.exponent? : List Char → Option (Option Int × List Char)
  | 'e' :: more | 'E' :: more =>
    let sign := more.takeWhile fun c => c == '-' || c == '+'
    let afterSign := more.dropWhile fun c => c == '-' || c == '+'
    (Double.exponentOf? (sign ++ afterSign.takeWhile Char.isDigit)).map fun e =>
      (some e, afterSign.dropWhile Char.isDigit)
  | rest => some (none, rest)

/-- Reads a number token. -/
def token? (chars : List Char) : Option (Token × List Char) := do
  let (negative, rest) := Token.sign chars
  let (whole, rest) ← Token.whole? rest
  let (fraction, rest) ← Token.fraction? rest
  let (exponent, rest) ← Token.exponent? rest
  some (⟨negative, whole, fraction.getD [], exponent.getD 0, fraction.isNone && exponent.isNone⟩, rest)

/-! ## Strings -/

/-- Reads four hexadecimal digits. -/
def hex4? : List Char → Option (Nat × List Char)
  | a :: b :: c :: d :: rest => do
    let a ← Text.hexValue? a
    let b ← Text.hexValue? b
    let c ← Text.hexValue? c
    let d ← Text.hexValue? d
    some (((a * 16 + b) * 16 + c) * 16 + d, rest)
  | _ => none

/-- Reads a numbered escape after its letter; two halves of a pair make one character, and half a pair
is refused. -/
def numberedEscape? (chars : List Char) : Option (Char × List Char) := do
  let (unit, rest) ← hex4? chars
  if 0xD800 ≤ unit ∧ unit < 0xDC00 then
    match rest with
    | '\\' :: 'u' :: more =>
      let (low, rest) ← hex4? more
      if 0xDC00 ≤ low ∧ low < 0xE000 then
        some (Char.ofNat (0x10000 + (unit - 0xD800) * 0x400 + (low - 0xDC00)), rest)
      else none
    | _ => none
  else if 0xDC00 ≤ unit ∧ unit < 0xE000 then none
  else some (Char.ofNat unit, rest)

/-- Reads an escape after its backslash. -/
def escape? : List Char → Option (Char × List Char)
  | '"' :: rest => some ('"', rest)
  | '\\' :: rest => some ('\\', rest)
  | '/' :: rest => some ('/', rest)
  | 'b' :: rest => some ('\x08', rest)
  | 'f' :: rest => some ('\x0c', rest)
  | 'n' :: rest => some ('\n', rest)
  | 'r' :: rest => some ('\r', rest)
  | 't' :: rest => some ('\t', rest)
  | 'u' :: rest => numberedEscape? rest
  | _ => none

/-- Reads the rest of a string after its opening quote. -/
def string? (acc : List Char) : Nat → List Char → Option (String × List Char)
  | 0, _ => none
  | _ + 1, [] => none
  | fuel + 1, c :: rest =>
    if c = '"' then some (String.ofList acc.reverse, rest)
    else if c = '\\' then
      match escape? rest with
      | some (c, rest) => string? (c :: acc) fuel rest
      | none => none
    else if c.toNat < 32 then none
    else string? (c :: acc) fuel rest

/-! ## Values -/

/-- Drops blanks. -/
def skip (chars : List Char) : List Char :=
  chars.dropWhile fun c => c == ' ' || c == '\n' || c == '\r' || c == '\t'

/-- The number of arrays and objects around each other that a reader allows if it is not told otherwise. -/
def usualLevels : Option Nat := some 127

/-- The levels that are left inside an array or object, where `none` is no limit. Nothing is read where
none is left. -/
def descend? : Option Nat → Option (Option Nat)
  | none => some none
  | some 0 => none
  | some (levels + 1) => some (some levels)

mutual

/-- Reads a value with `levels` for arrays and objects around each other. `fuel` bounds the nesting, the
number of entries and the length of a string: two for each character are enough. -/
def value? (levels : Option Nat) : Nat → List Char → Option (Json × List Char)
  | 0, _ => none
  | fuel + 1, chars =>
    match skip chars with
    | 'n' :: 'u' :: 'l' :: 'l' :: rest => some (.null, rest)
    | 't' :: 'r' :: 'u' :: 'e' :: rest => some (.bool true, rest)
    | 'f' :: 'a' :: 'l' :: 's' :: 'e' :: rest => some (.bool false, rest)
    | '"' :: rest => do
      let (s, rest) ← string? [] (fuel + 1) rest
      some (.string s, rest)
    | '[' :: rest => do
      let inner ← descend? levels
      match skip rest with
      | ']' :: rest => some (.array [], rest)
      | rest => do
        let (items, rest) ← items? inner fuel rest
        some (.array items, rest)
    | '\x7b' :: rest => do
      let inner ← descend? levels
      match skip rest with
      | '\x7d' :: rest => some (.object [], rest)
      | rest => do
        let (members, rest) ← members? inner fuel rest
        some (.object (Members.sorted members), rest)
    | rest => do
      let (token, rest) ← token? rest
      let number ← token.toNumber?
      some (.number number, rest)

/-- Reads the elements of an array up to the closing bracket. -/
def items? (levels : Option Nat) : Nat → List Char → Option (List Json × List Char)
  | 0, _ => none
  | fuel + 1, chars => do
    let (item, rest) ← value? levels fuel chars
    match skip rest with
    | ']' :: rest => some ([item], rest)
    | ',' :: rest => do
      let (items, rest) ← items? levels fuel rest
      some (item :: items, rest)
    | _ => none

/-- Reads the members of an object up to the closing brace. -/
def members? (levels : Option Nat) : Nat → List Char → Option (List (String × Json) × List Char)
  | 0, _ => none
  | fuel + 1, chars =>
    match skip chars with
    | '"' :: rest => do
      let (key, rest) ← string? [] (fuel + 1) rest
      match skip rest with
      | ':' :: rest => do
        let (value, rest) ← value? levels fuel rest
        match skip rest with
        | '\x7d' :: rest => some ([(key, value)], rest)
        | ',' :: rest => do
          let (members, rest) ← members? levels fuel rest
          some ((key, value) :: members, rest)
        | _ => none
      | _ => none
    | _ => none

end

/-- Reads a text that is one JSON value, with blanks around it and at most `levels` arrays and objects
around each other; `none` is no limit. -/
def ofText? (text : String) (levels : Option Nat) : Option Json := do
  let chars := text.toList
  let (json, rest) ← value? levels (2 * chars.length + 2) chars
  if (skip rest).isEmpty then some json else none

end JsonSchema.Json
