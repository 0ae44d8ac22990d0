/-!
Date-times: a point of the timeline with an optional offset from universal time. A text gives the year
in four digits or more, the rest of the date and the time of the day, with a fraction of the second of
at most 18 digits that count. Two date-times with an offset, or two without, compare by their points;
one of each compare only when 14 hours either way do not matter.
-/

namespace JsonSchema

/-- A date-time. The point is counted in `10^-18` seconds from the first day of the year 1, and is the
one at universal time if there is an offset; offsets are in minutes. -/
structure DateTime where
  point : Int
  offset : Option Int
  deriving DecidableEq, Inhabited

namespace DateTime

/-- The number of ticks in a second. -/
def second : Int := Int.pow 10 18

/-! ## Days of the calendar -/

/-- A year with a 29th of February. -/
def isLeap (year : Int) : Bool :=
  year.emod 4 == 0 && (year.emod 100 != 0 || year.emod 400 == 0)

/-- The number of days of a month. -/
def daysInMonth (year : Int) (month : Nat) : Nat :=
  match month with
  | 2 => if isLeap year then 29 else 28
  | 4 | 6 | 9 | 11 => 30
  | _ => 31

/-- Days from the first day of the year 1 to the first day of a year. -/
def daysBeforeYear (year : Int) : Int :=
  let y := year - 1
  365 * y + y.fdiv 4 - y.fdiv 100 + y.fdiv 400

/-- Days of a year before a month. -/
def daysBeforeMonth (year : Int) (month : Nat) : Nat :=
  (List.range (month - 1)).foldl (fun days m => days + daysInMonth year (m + 1)) 0

/-- The year that holds a day, counted from the first day of the year 1. The day's cycle of 400 years
gives an estimate that is at most one year early. -/
def yearOfDay (day : Int) : Int :=
  let estimate := (400 * day).fdiv 146097 + 1
  if day < daysBeforeYear estimate then estimate - 1
  else if daysBeforeYear (estimate + 1) ≤ day then estimate + 1
  else estimate

/-- The month and the day of the month, from a month on and a number of days after its first. -/
def monthAndDay (year : Int) (day : Nat) : Nat → Nat → Nat × Nat
  | 0, month => (month, day + 1)
  | fuel + 1, month =>
    let days := daysInMonth year month
    if day < days then (month, day + 1) else monthAndDay year (day - days) fuel (month + 1)

/-! ## Reading -/

/-- Reads exactly `count` digits. -/
def number? (count : Nat) (chars : List Char) : Option (Nat × List Char) :=
  let digits := chars.takeWhile Char.isDigit
  if digits.length = count then
    some (digits.foldl (fun n c => 10 * n + (c.toNat - '0'.toNat)) 0, chars.dropWhile Char.isDigit)
  else none

/-- Reads one given character. -/
def char? (c : Char) : List Char → Option (List Char)
  | [] => none
  | d :: rest => if d = c then some rest else none

/-- Reads a year: an optional minus sign and four digits, or more without leading zeros. -/
def year? (chars : List Char) : Option (Int × List Char) := do
  let (negative, chars) := match chars with
    | '-' :: rest => (true, rest)
    | rest => (false, rest)
  let count := (chars.takeWhile Char.isDigit).length
  if count < 4 || (4 < count && chars.head? == some '0') then none
  let (n, rest) ← number? count chars
  if n < Nat.pow 2 63 then some (if negative then -(n : Int) else n, rest) else none

/-- Reads the ticks of a second: two digits and an optional fraction. -/
def seconds? (chars : List Char) : Option (Int × List Char) := do
  let (whole, rest) ← number? 2 chars
  if 60 ≤ whole then none
  match rest with
  | '.' :: more =>
    let digits := more.takeWhile Char.isDigit
    let counted := (digits.reverse.dropWhile (· == '0')).reverse
    if digits.isEmpty || 18 < counted.length then none
    let ticks := counted.foldl (fun n c => 10 * n + (c.toNat - '0'.toNat)) 0 * Nat.pow 10 (18 - counted.length)
    some (whole * second + ticks, more.dropWhile Char.isDigit)
  | rest => some (whole * second, rest)

/-- Reads an offset up to the end: `Z`, or a sign, hours up to 14 and minutes. -/
def offset? (chars : List Char) : Option (Option Int) :=
  match chars with
  | [] => some none
  | ['Z'] => some (some 0)
  | sign :: rest => do
    if sign != '+' && sign != '-' then none
    let (hours, rest) ← number? 2 rest
    let rest ← char? ':' rest
    let (minutes, rest) ← number? 2 rest
    if 59 < minutes || 14 * 60 < hours * 60 + minutes || !rest.isEmpty then none
    let offset : Int := hours * 60 + minutes
    some (some (if sign == '-' then -offset else offset))

/-- The largest size of a point, in ticks. -/
def limit : Int := Int.pow 2 127 - 1

/-- Reads a date-time. The time `24:00:00` is the first of the next day. -/
def parse? (text : String) : Option DateTime := do
  let (year, rest) ← year? text.toList
  let rest ← char? '-' rest
  let (month, rest) ← number? 2 rest
  let rest ← char? '-' rest
  let (day, rest) ← number? 2 rest
  let rest ← char? 'T' rest
  let (hour, rest) ← number? 2 rest
  let rest ← char? ':' rest
  let (minute, rest) ← number? 2 rest
  let rest ← char? ':' rest
  let (ticks, rest) ← seconds? rest
  let offset ← offset? rest
  if month < 1 || 12 < month || day < 1 || daysInMonth year month < day then none
  if 24 < hour || 59 < minute || (hour == 24 && (minute != 0 || ticks != 0)) then none
  let days : Int := daysBeforeYear year + daysBeforeMonth year month + (day - 1)
  let whole : Int := (86400 * days + 3600 * hour + 60 * (minute - offset.getD 0)) * second
  if whole < -limit - 1 || limit < whole || limit < whole + ticks then none
  some ⟨whole + ticks, offset⟩

/-- Reads a date-time that has an offset. -/
def parseZoned? (text : String) : Option DateTime :=
  (parse? text).filter fun t => t.offset.isSome

/-! ## Order -/

/-- Fourteen hours in ticks. -/
def reach : Int := 14 * 3600 * second

/-- Compares two date-times, where an answer does not depend on an unknown offset. -/
def compare? (a b : DateTime) : Option Ordering :=
  if a.offset.isSome == b.offset.isSome then some (compare a.point b.point)
  else if compare a.point (b.point - reach) == compare a.point (b.point + reach) then
    some (compare a.point b.point)
  else none

/-! ## Writing -/

/-- A number in at least `width` digits. -/
def padded (width n : Nat) : String :=
  let digits := Nat.toDigits 10 n
  String.ofList (List.replicate (width - digits.length) '0' ++ digits)

/-- The fraction of a second with its point, without zeros at the end. -/
def fractionText (ticks : Nat) : String :=
  let digits := ((padded 18 ticks).toList.reverse.dropWhile (· == '0')).reverse
  if digits.isEmpty then "" else String.ofList ('.' :: digits)

/-- The text of an offset. -/
def offsetText : Option Int → String
  | none => ""
  | some offset =>
    if offset = 0 then "Z"
    else
      let n := offset.natAbs
      (if offset < 0 then "-" else "+") ++ padded 2 (n / 60) ++ ":" ++ padded 2 (n % 60)

/-- The text of a date-time, in its own offset. -/
def toText (t : DateTime) : String :=
  let here := t.point + 60 * t.offset.getD 0 * second
  let day := here.fdiv (86400 * second)
  let ofDay := (here.fmod (86400 * second)).toNat
  let ticks := ofDay % second.toNat
  let seconds := ofDay / second.toNat
  let year := yearOfDay day
  let (month, dayOfMonth) := monthAndDay year (day - daysBeforeYear year).toNat 11 1
  (if year < 0 then "-" else "") ++ padded 4 year.natAbs ++ "-" ++ padded 2 month ++ "-" ++
    padded 2 dayOfMonth ++ "T" ++ padded 2 (seconds / 3600) ++ ":" ++ padded 2 (seconds / 60 % 60) ++ ":" ++
    padded 2 (seconds % 60) ++ fractionText ticks ++ offsetText t.offset

instance : ToString DateTime := ⟨toText⟩

end DateTime

end JsonSchema
