/-!
Floating-point numbers of 64 bits as exact data. A finite number is a sign, a mantissa below `2^53`
and a power of two, held in the one form the format gives it, so equality of the data is equality of
the bits. Every operation is computed on exact integers, in units of `2^-1074`, and rounded once, to
the nearest number and in a tie to the even mantissa.
-/

namespace JsonSchema

/-! ## The numbers -/

/-- `mantissa * 2^exponent` is written as the format writes it: the mantissa has 53 bits, or fewer at
the least exponent. -/
def Double.Canonical (mantissa : Nat) (exponent : Int) : Prop :=
  mantissa < Nat.pow 2 53 ∧ -1074 ≤ exponent ∧ exponent ≤ 971 ∧ (Nat.pow 2 52 ≤ mantissa ∨ exponent = -1074)

instance (mantissa : Nat) (exponent : Int) : Decidable (Double.Canonical mantissa exponent) :=
  inferInstanceAs (Decidable (_ ∧ _ ∧ _ ∧ _))

/-- A floating-point number of 64 bits. All payloads of a NaN are the same value here. -/
inductive Double where
  | nan
  | infinity (negative : Bool)
  | finite (negative : Bool) (mantissa : Nat) (exponent : Int)
      (canonical : Double.Canonical mantissa exponent)
  deriving DecidableEq

namespace Double

/-- Zero with the given sign. -/
def zero (negative : Bool) : Double := .finite negative 0 (-1074) (by decide)

instance : Inhabited Double := ⟨zero false⟩

/-- The number of units `2^-1074` in one. -/
def one : Nat := Nat.pow 2 1074

/-- The size of a finite number in units of `2^-1074`. -/
def units (mantissa : Nat) (exponent : Int) : Nat := mantissa * Nat.pow 2 (exponent + 1074).toNat

/-- A finite number in units of `2^-1074`; other values count as zero. -/
def signedUnits : Double → Int
  | .finite true m e _ => -(units m e : Int)
  | .finite false m e _ => units m e
  | _ => 0

/-- A NaN or an infinity is not finite. -/
def isFinite : Double → Bool
  | .finite .. => true
  | _ => false

/-! ## Rounding -/

/-- The quotient rounded to the nearest integer, a tie to the even one. -/
def roundHalfEven (num den : Nat) : Nat :=
  let q := num / den
  let r := num % den
  if 2 * r < den then q
  else if den < 2 * r then q + 1
  else if q % 2 = 0 then q else q + 1

/-- The exponent of the last bit that the format keeps of `num / den`: the quotient by this power of
two has 53 bits, or the exponent is the least one. -/
def lastBit (num den : Nat) : Int :=
  let k : Int := (num.log2 : Int) - (den.log2 : Int)
  let reaches := if 0 ≤ k then den * Nat.pow 2 k.toNat ≤ num else den ≤ num * Nat.pow 2 (-k).toNat
  max (if reaches then k - 52 else k - 53) (-1074)

/-- The number with the given parts; a mantissa of `2^53` moves up, and what is too large is infinite. -/
def ofParts (negative : Bool) (mantissa : Nat) (exponent : Int) : Double :=
  if h : Canonical mantissa exponent then .finite negative mantissa exponent h
  else if h : Canonical (mantissa / 2) (exponent + 1) then
    .finite negative (mantissa / 2) (exponent + 1) h
  else .infinity negative

/-- The number nearest to `num / den`, with the given sign. -/
def ofRatio (negative : Bool) (num den : Nat) : Double :=
  if num = 0 then zero negative
  else
    let e := lastBit num den
    let mantissa :=
      if 0 ≤ e then roundHalfEven num (den * Nat.pow 2 e.toNat)
      else roundHalfEven (num * Nat.pow 2 (-e).toNat) den
    ofParts negative mantissa e

/-- The number nearest to an integer. -/
def ofInt (i : Int) : Double := ofRatio (i < 0) i.natAbs 1

/-! ## Order -/

/-- Equality of numbers: a NaN differs from itself, and the two zeros are equal. -/
def eq : Double → Double → Bool
  | .infinity a, .infinity b => a == b
  | x@(.finite ..), y@(.finite ..) => x.signedUnits == y.signedUnits
  | _, _ => false

/-- Strict order of numbers, false when one side is a NaN. -/
def lt : Double → Double → Bool
  | .infinity a, .infinity b => a && !b
  | .infinity a, .finite .. => a
  | .finite .., .infinity b => !b
  | x@(.finite ..), y@(.finite ..) => x.signedUnits < y.signedUnits
  | _, _ => false

/-- Order of numbers, false when one side is a NaN. -/
def le (x y : Double) : Bool := lt x y || eq x y

/-! ## Arithmetic -/

/-- The size of a number, without its sign. -/
def abs : Double → Double
  | .nan => .nan
  | .infinity _ => .infinity false
  | .finite _ m e h => .finite false m e h

/-- The number with the other sign. -/
def neg : Double → Double
  | .nan => .nan
  | .infinity n => .infinity !n
  | .finite n m e h => .finite (!n) m e h

/-- The larger number; a NaN gives way to the other side. -/
def max (x y : Double) : Double :=
  match x, y with
  | .nan, y => y
  | x, .nan => x
  | x, y => if lt x y then y else x

/-- The quotient of two numbers. -/
def div : Double → Double → Double
  | .nan, _ => .nan
  | _, .nan => .nan
  | .infinity _, .infinity _ => .nan
  | .infinity a, .finite b .. => .infinity (a != b)
  | .finite a .., .infinity b => zero (a != b)
  | .finite a m e _, .finite b m' e' _ =>
    if m' = 0 then if m = 0 then .nan else .infinity (a != b)
    else ofRatio (a != b) (units m e) (units m' e')

/-- The product of two numbers. -/
def mul : Double → Double → Double
  | .nan, _ => .nan
  | _, .nan => .nan
  | .infinity a, .infinity b => .infinity (a != b)
  | .infinity a, .finite b m .. => if m = 0 then .nan else .infinity (a != b)
  | .finite a m .., .infinity b => if m = 0 then .nan else .infinity (a != b)
  | .finite a m e _, .finite b m' e' _ => ofRatio (a != b) (units m e * units m' e') (one * one)

/-- The difference of two numbers; equal numbers differ by positive zero, save `-0 - 0`. -/
def sub : Double → Double → Double
  | .nan, _ => .nan
  | _, .nan => .nan
  | .infinity a, .infinity b => if a == b then .nan else .infinity a
  | .infinity a, .finite .. => .infinity a
  | .finite .., .infinity b => .infinity (!b)
  | x@(.finite a m ..), y@(.finite b ..) =>
    let d := x.signedUnits - y.signedUnits
    if d = 0 then zero (m == 0 && a && !b) else ofRatio (d < 0) d.natAbs one

/-- The nearest integral number, a tie away from zero. -/
def round : Double → Double
  | .finite negative m e _ => ofRatio negative ((2 * units m e + one) / (2 * one)) 1
  | x => x

/-- A finite number without fractional part. -/
def isIntegral : Double → Bool
  | .finite _ m e _ => units m e % one == 0
  | _ => false

/-- The integral part of a number that is not negative, and zero for other values. -/
def toNat : Double → Nat
  | .finite false m e _ => units m e / one
  | _ => 0

end Double

end JsonSchema
