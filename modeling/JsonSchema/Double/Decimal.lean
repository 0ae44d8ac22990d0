import JsonSchema.Double

/-!
Floating-point numbers and decimal text. Reading takes the number nearest to the decimal. Writing
takes the fewest digits that read back to the same number, the nearest of those and in a tie the
larger, in positional notation without exponent.
-/

namespace JsonSchema.Double

/-! ## Reading -/

/-- The number nearest to `digits * 10^exponent`. Beyond `10^400` on either side the answer does not
depend on the digits, so huge powers are not computed. -/
def ofDecimal (negative : Bool) (digits : Nat) (exponent : Int) : Double :=
  let reach : Int := exponent + (digits.log2 / 3 + 1 : Nat)
  if digits = 0 then zero negative
  else if 400 < exponent then .infinity negative
  else if reach < -400 then zero negative
  else if 0 ≤ exponent then ofRatio negative (digits * Nat.pow 10 exponent.toNat) 1
  else ofRatio negative digits (Nat.pow 10 (-exponent).toNat)

/-- The value of decimal digits, most significant first. -/
def digitsValue (digits : List Char) : Nat :=
  digits.foldl (fun n c => 10 * n + (c.toNat - '0'.toNat)) 0

/-- Reads an exponent: an optional sign and at least one digit. -/
def exponentOf? (chars : List Char) : Option Int :=
  let (negative, digits) := match chars with
    | '-' :: rest => (true, rest)
    | '+' :: rest => (false, rest)
    | rest => (false, rest)
  if digits.isEmpty || !digits.all Char.isDigit then none
  else some (if negative then -(digitsValue digits : Int) else digitsValue digits)

/-- Reads a decimal without sign: digits with at most one point among them, then an optional exponent. -/
def ofUnsigned? (negative : Bool) (chars : List Char) : Option Double :=
  let whole := chars.takeWhile Char.isDigit
  let afterWhole := chars.dropWhile Char.isDigit
  let (fraction, rest) := match afterWhole with
    | '.' :: more => (more.takeWhile Char.isDigit, more.dropWhile Char.isDigit)
    | rest => ([], rest)
  if whole.isEmpty && fraction.isEmpty then none
  else
    let exponent := match rest with
      | [] => some 0
      | 'e' :: more | 'E' :: more => exponentOf? more
      | _ => none
    exponent.map fun e => ofDecimal negative (digitsValue (whole ++ fraction)) (e - fraction.length)

/-- Reads the text of a number: a decimal, `inf`, `infinity` or `nan`, with an optional sign. -/
def ofText? (text : String) : Option Double :=
  let (negative, chars) := match text.toList with
    | '-' :: rest => (true, rest)
    | '+' :: rest => (false, rest)
    | rest => (false, rest)
  let word := String.ofList (chars.map Char.toLower)
  if word = "inf" ∨ word = "infinity" then some (.infinity negative)
  else if word = "nan" then some .nan
  else ofUnsigned? negative chars

/-! ## Writing -/

/-- The reals that read back to a number form an interval. A point `digits * 10^power` of a decimal
grid lies in it: bounds are in quarters of the last bit, and belong to it when the mantissa is even. -/
def readsBack (mantissa : Nat) (exponent : Int) (digits : Nat) (power : Int) : Bool :=
  let scale (n : Nat) (base : Nat) (e : Int) : Nat := n * Nat.pow base e.toNat
  let quarter := exponent - 2
  let point := scale (scale digits 10 power) 2 (-quarter)
  let bound (n : Nat) := scale (scale n 2 quarter) 10 (-power)
  let low := bound (if mantissa = Nat.pow 2 52 ∧ -1074 < exponent then 4 * mantissa - 1 else 4 * mantissa - 2)
  let high := bound (4 * mantissa + 2)
  if mantissa % 2 = 0 then low ≤ point && point ≤ high else low < point && point < high

/-- The least power of ten above `num / den`, as an exponent; `fuel` bounds the zeros after the point. -/
def magnitude (num den : Nat) : Nat → Nat → Int
  | 0, zeros => -(zeros : Int)
  | fuel + 1, zeros =>
    if den ≤ num then ((Nat.toDigits 10 (num / den)).length : Int) - zeros
    else magnitude (num * 10) den fuel (zeros + 1)

/-- The point of the grid of `10^power` that reads back, if one of the two neighbours of the number
does: the nearer one, the upper in a tie. -/
def onGrid? (mantissa : Nat) (exponent : Int) (power : Int) : Option Nat :=
  let num := units mantissa exponent * Nat.pow 10 (-power).toNat
  let den := one * Nat.pow 10 power.toNat
  let below := num / den
  let rest := num % den
  match readsBack mantissa exponent below power, readsBack mantissa exponent (below + 1) power with
  | false, false => none
  | true, false => some below
  | false, true => some (below + 1)
  | true, true => some (if 2 * rest < den then below else below + 1)

/-- The digits and the power of ten of the shortest decimal that reads back, among those of more than
`17 - fuel` digits; 17 digits always suffice. -/
def shortest (mantissa : Nat) (exponent : Int) (top : Int) : Nat → Nat × Int
  | 0 => (mantissa, exponent)
  | fuel + 1 =>
    let power := top - (17 - fuel : Nat)
    match onGrid? mantissa exponent power with
    | some digits => (digits, power)
    | none => shortest mantissa exponent top fuel

/-- Positional notation of `digits * 10^power`, without zeros at the end of a fraction. -/
def positional (digits : Nat) (power : Int) : String :=
  let ds := Nat.toDigits 10 digits
  if 0 ≤ power then String.ofList (ds ++ List.replicate power.toNat '0')
  else
    let places := (-power).toNat
    let padded := List.replicate (places + 1 - ds.length) '0' ++ ds
    let whole := padded.take (padded.length - places)
    let fraction := ((padded.drop (padded.length - places)).reverse.dropWhile (· == '0')).reverse
    String.ofList (if fraction.isEmpty then whole else whole ++ '.' :: fraction)

/-- The text of a number: the shortest decimal that reads back, or the name of what is not finite. -/
def toText : Double → String
  | .nan => "NaN"
  | .infinity negative => if negative then "-inf" else "inf"
  | .finite negative m e _ =>
    let sign := if negative then "-" else ""
    if m = 0 then sign ++ "0"
    else
      let (digits, power) := shortest m e (magnitude (units m e) one 400 0) 17
      sign ++ positional digits power

instance : ToString Double := ⟨toText⟩

end JsonSchema.Double
