import JsonSchema.DateTime
import JsonSchema.Regex
import JsonSchema.Uri

/-!
The formats of strings that a schema may ask for. A string of an unknown format is not checked.
-/

namespace JsonSchema

/-- A format of strings. -/
inductive Format where
  | dateTime
  | uri
  | uriReference
  | email
  | hostname
  | ipv4
  | ipv6
  | regex
  deriving DecidableEq

namespace Format

open Text

/-- The name of a format. -/
def name : Format → String
  | .dateTime => "date-time"
  | .uri => "uri"
  | .uriReference => "uri-reference"
  | .email => "email"
  | .hostname => "hostname"
  | .ipv4 => "ipv4"
  | .ipv6 => "ipv6"
  | .regex => "regex"

/-- All formats. -/
def all : List Format := [.dateTime, .uri, .uriReference, .email, .hostname, .ipv4, .ipv6, .regex]

/-- The format of a name. -/
def ofName? (name : String) : Option Format := all.find? fun f => f.name == name

/-! ## Mail addresses and host names -/

/-- The length in bytes. -/
def byteLength (chars : List Char) : Nat := chars.foldr (fun c n => c.utf8Size + n) 0

/-- A label of a host name: up to 63 bytes, ASCII letters, digits and hyphens, with no hyphen at either end. -/
def isLabel (chars : List Char) : Bool :=
  !chars.isEmpty && byteLength chars ≤ 63 && chars.head? != some '-' && chars.getLast? != some '-' &&
    chars.all fun c => c.isAlphanum || c == '-'

/-- The characters without one final point. -/
def withoutFinalPoint (chars : List Char) : List Char :=
  if chars.getLast? = some '.' then chars.dropLast else chars

/-- A host name: labels between points, up to 253 bytes without a final point. -/
def isHostname (chars : List Char) : Bool :=
  let name := withoutFinalPoint chars
  !name.isEmpty && byteLength name ≤ 253 && (fields '.' name).all isLabel

/-- Two points stand side by side. -/
def hasPointPair : List Char → Bool
  | [] => false
  | c :: rest => (c == '.' && rest.head? == some '.') || hasPointPair rest

/-- A character of the local part of a mail address. -/
def isLocalChar (c : Char) : Bool := c.isAlphanum || "!#$%&'*+-/=?^_\x60\x7b|\x7d~.".toList.contains c

/-- The local part of a mail address: up to 64 bytes, with no point at either end and no two side by side. -/
def isLocalPart (chars : List Char) : Bool :=
  !chars.isEmpty && byteLength chars ≤ 64 && chars.head? != some '.' && chars.getLast? != some '.' &&
    !hasPointPair chars && chars.all isLocalChar

/-- A mail address: a local part and a host name, around the last sign. -/
def isEmail (chars : List Char) : Bool :=
  match cutLast '@' chars with
  | none => false
  | some (name, domain) => isLocalPart name && isHostname domain

/-! ## Checking -/

/-- The string is in the format. -/
def accepts (format : Format) (text : String) : Bool :=
  match format with
  | .dateTime => (DateTime.parseZoned? text).isSome
  | .uri => (Uri.parse text).isOk
  | .uriReference => (UriReference.parse text).isOk
  | .email => isEmail text.toList
  | .hostname => isHostname text.toList
  | .ipv4 => Ip.isV4 text.toList
  | .ipv6 => Ip.isV6 text.toList
  | .regex => (Regex.ofText? text).isSome

end Format

end JsonSchema
