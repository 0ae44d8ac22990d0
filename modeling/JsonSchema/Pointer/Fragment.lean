import JsonSchema.Pointer

/-!
Pointers as fragments of URIs. The bytes of a pointer that a fragment may hold stand for themselves,
every other byte is a percent sign with two hexadecimal digits.
-/

namespace JsonSchema.Pointer

/-! ## Writing -/

/-- A byte that may stand for itself in a fragment. -/
def isFragmentByte (b : UInt8) : Bool :=
  let c := Char.ofNat b.toNat
  b < 128 && (c.isAlphanum || "-._~!$&'()*+,;=:@/?".toList.contains c)

/-- The upper-case hexadecimal digit of a number below 16. -/
def hexDigit (n : Nat) : Char := (Nat.digitChar n).toUpper

/-- A byte as it is written in a fragment. -/
def percentEncodeByte (b : UInt8) : List Char :=
  if isFragmentByte b then [Char.ofNat b.toNat]
  else ['%', hexDigit (b.toNat / 16), hexDigit (b.toNat % 16)]

/-- The bytes of a text. -/
def bytes (text : String) : List UInt8 := text.toUTF8.data.toList

/-- The pointer as a fragment, without the number sign. -/
def toFragment (p : Pointer) : String :=
  String.ofList ((bytes p.toText).flatMap percentEncodeByte)

/-! ## Reading -/

/-- The value of a hexadecimal digit given as a byte. -/
def hexValue? (b : UInt8) : Option Nat :=
  if 48 ≤ b ∧ b ≤ 57 then some (b.toNat - 48)
  else if 65 ≤ b ∧ b ≤ 70 then some (b.toNat - 55)
  else if 97 ≤ b ∧ b ≤ 102 then some (b.toNat - 87)
  else none

/-- The byte that two bytes after a percent sign stand for. They form a hexadecimal number, and its
first digit may give way to a plus sign. -/
def percentPair? (a b : UInt8) : Option UInt8 := do
  let low ← hexValue? b
  let high ← if a = 43 then some 0 else hexValue? a
  some (UInt8.ofNat (16 * high + low))

/-- Replaces every percent escape by its byte. -/
def percentDecode? : List UInt8 → Option (List UInt8)
  | [] => some []
  | b :: rest =>
    if b = 37 then
      match rest with
      | high :: low :: rest => do
        let byte ← percentPair? high low
        (percentDecode? rest).map (byte :: ·)
      | _ => none
    else (percentDecode? rest).map (b :: ·)

/-- Reads a fragment, without the number sign, as a pointer. -/
def ofFragment (fragment : String) : Except PointerError Pointer :=
  match percentDecode? (bytes fragment) with
  | none => .error (.invalid fragment .percent)
  | some decoded =>
    match String.fromUTF8? ⟨decoded.toArray⟩ with
    | none => .error (.invalid fragment .encoding)
    | some text => parse text

end JsonSchema.Pointer
