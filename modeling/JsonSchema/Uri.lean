import JsonSchema.Ip
import JsonSchema.Text.Split

/-!
URIs and URI references, with the characters beyond ASCII that the international form allows. A text is
cut into its components, which joined again give the text, and is well formed when each component is.
Nothing is normalised: the components are the text.
-/

namespace JsonSchema

open Text

/-! ## Components -/

/-- A URI reference in its components. -/
structure UriReference where
  scheme : Option (List Char)
  authority : Option (List Char)
  path : List Char
  query : Option (List Char)
  fragment : Option (List Char)
  deriving DecidableEq, Inhabited

/-- A URI: a reference with a scheme. -/
structure Uri where
  scheme : List Char
  authority : Option (List Char)
  path : List Char
  query : Option (List Char)
  fragment : Option (List Char)
  deriving DecidableEq, Inhabited

/-- The family of a URI, by its scheme. A data URI holds its content and has no hierarchy. -/
inductive UriKind where
  | http
  | file
  | data
  | generic
  deriving DecidableEq

/-- A URI that cannot be read, or a reference that has no meaning against its base. -/
inductive UriError where
  | malformed (text : String)
  | notHierarchical (reference base : String)
  deriving DecidableEq

/-- The whole message. The wording of a syntax fault is left open. -/
def UriError.message? : UriError → Option String
  | .malformed _ => none
  | .notHierarchical reference base =>
    some ("Cannot resolve '" ++ reference ++ "' against the non-hierarchical URI '" ++ base ++ "'")

/-! ## Characters -/

namespace UriChar

/-- The character's number lies in one of the ranges. -/
def within (ranges : List (Nat × Nat)) (c : Char) : Bool :=
  ranges.any fun (low, high) => low ≤ c.toNat && c.toNat ≤ high

/-- Characters beyond ASCII that may stand anywhere in a name. -/
def isUniversal (c : Char) : Bool :=
  within [(0xA0, 0xD7FF), (0xF900, 0xFDCF), (0xFDF0, 0xFFEF), (0x10000, 0x1FFFD), (0x20000, 0x2FFFD),
    (0x30000, 0x3FFFD), (0x40000, 0x4FFFD), (0x50000, 0x5FFFD), (0x60000, 0x6FFFD), (0x70000, 0x7FFFD),
    (0x80000, 0x8FFFD), (0x90000, 0x9FFFD), (0xA0000, 0xAFFFD), (0xB0000, 0xBFFFD), (0xC0000, 0xCFFFD),
    (0xD0000, 0xDFFFD), (0xE1000, 0xEFFFD)] c

/-- Characters for private use, allowed in a query alone. -/
def isPrivate (c : Char) : Bool :=
  within [(0xE000, 0xF8FF), (0xF0000, 0xFFFFD), (0x100000, 0x10FFFD)] c

/-- Characters without any reserved purpose, in ASCII. -/
def isAsciiUnreserved (c : Char) : Bool := c.isAlphanum || "-._~".toList.contains c

/-- Characters without any reserved purpose. -/
def isUnreserved (c : Char) : Bool := isAsciiUnreserved c || isUniversal c

/-- Characters reserved for use inside a component. -/
def isSubDelimiter (c : Char) : Bool := "!$&'()*+,;=".toList.contains c

/-- Characters of a registered host name. -/
def isName (c : Char) : Bool := isUnreserved c || isSubDelimiter c

/-- Characters of a user name. -/
def isUser (c : Char) : Bool := isName c || c == ':'

/-- Characters of a path, the slash included. -/
def isPath (c : Char) : Bool := isName c || c == ':' || c == '@' || c == '/'

/-- Characters of a query. -/
def isQuery (c : Char) : Bool := isPath c || c == '?' || isPrivate c

/-- Characters of a fragment. -/
def isFragment (c : Char) : Bool := isPath c || c == '?'

/-- Characters of a scheme after its first letter. -/
def isScheme (c : Char) : Bool := c.isAlphanum || "+-.".toList.contains c

/-- Every character is allowed, or begins an escape: a percent sign and two hexadecimal digits. -/
def escaped (allowed : Char → Bool) : List Char → Bool
  | [] => true
  | '%' :: a :: b :: rest => isHexDigit a && isHexDigit b && escaped allowed rest
  | c :: rest => allowed c && c != '%' && escaped allowed rest

end UriChar

/-! ## Cutting and joining -/

namespace UriReference

/-- The characters are a scheme: a letter, then letters, digits and three signs. -/
def isScheme : List Char → Bool
  | [] => false
  | c :: rest => c.isAlpha && rest.all UriChar.isScheme

/-- Cuts the scheme off, where the characters before the first colon are one. -/
def cutScheme (chars : List Char) : Option (List Char) × List Char :=
  match cut ':' chars with
  | (name, some rest) => if isScheme name then (some name, rest) else (none, chars)
  | (_, none) => (none, chars)

/-- Cuts the authority off, which stands between two slashes and the next one. -/
def cutAuthority : List Char → Option (List Char) × List Char
  | '/' :: '/' :: rest => (some (rest.takeWhile (· != '/')), rest.dropWhile (· != '/'))
  | chars => (none, chars)

/-- Cuts a text into its components. -/
def ofChars (chars : List Char) : UriReference :=
  let (chars, fragment) := cut '#' chars
  let (chars, query) := cut '?' chars
  let (scheme, chars) := cutScheme chars
  let (authority, path) := cutAuthority chars
  ⟨scheme, authority, path, query, fragment⟩

/-- The components joined to the text they were cut from. -/
def chars (r : UriReference) : List Char :=
  (r.scheme.elim [] (· ++ [':'])) ++ (r.authority.elim [] (['/', '/'] ++ ·)) ++ r.path ++
    (r.query.elim [] ('?' :: ·)) ++ (r.fragment.elim [] ('#' :: ·))

/-- The text of a reference. -/
def toText (r : UriReference) : String := String.ofList r.chars

instance : ToString UriReference := ⟨toText⟩

/-! ## Well-formed references -/

/-- A future form of address: `v`, a hexadecimal version, a point, and a name. -/
def isFutureAddress : List Char → Bool
  | [] => false
  | v :: rest =>
    match cut '.' rest with
    | (version, some name) =>
      (v == 'v' || v == 'V') && !version.isEmpty && version.all isHexDigit && !name.isEmpty &&
        name.all fun c => UriChar.isAsciiUnreserved c || UriChar.isSubDelimiter c || c == ':'
    | (_, none) => false

/-- A port: nothing, or a colon and digits. -/
def isPort : List Char → Bool
  | [] => true
  | c :: rest => c == ':' && rest.all Char.isDigit

/-- A host and an optional port. An address in brackets is of version 6 or of a future form. -/
def isHost : List Char → Bool
  | '[' :: rest =>
    match cut ']' rest with
    | (address, some port) => (Ip.isV6 address || isFutureAddress address) && isPort port
    | (_, none) => false
  | chars =>
    UriChar.escaped UriChar.isName (chars.takeWhile (· != ':')) && isPort (chars.dropWhile (· != ':'))

/-- An authority: a host, after an optional user name and its sign. -/
def isAuthority (chars : List Char) : Bool :=
  match cut '@' chars with
  | (user, some host) => UriChar.escaped UriChar.isUser user && isHost host
  | (_, none) => isHost chars

/-- The first segment of a path. -/
def firstSegment (path : List Char) : List Char := path.takeWhile (· != '/')

/-- Every component is well formed, and a path that would read as a scheme has none. -/
def isWellFormed (r : UriReference) : Bool :=
  r.authority.all isAuthority && UriChar.escaped UriChar.isPath r.path &&
    r.query.all (UriChar.escaped UriChar.isQuery) && r.fragment.all (UriChar.escaped UriChar.isFragment) &&
    (r.scheme.isSome || r.authority.isSome || !(firstSegment r.path).contains ':')

/-- Reads a reference. -/
def parse (text : String) : Except UriError UriReference :=
  let r := ofChars text.toList
  if r.isWellFormed then .ok r else .error (.malformed text)

/-- The reference has a scheme of its own. -/
def isAbsolute (r : UriReference) : Bool := r.scheme.isSome

/-- The reference is a fragment alone, so it designates a place in the base document. -/
def isFragmentOnly (r : UriReference) : Bool :=
  r.scheme.isNone && r.authority.isNone && r.path.isEmpty && r.query.isNone && r.fragment.isSome

/-- The URI that a reference with a scheme is. -/
def toUri? (r : UriReference) : Option Uri :=
  r.scheme.map fun scheme => ⟨scheme, r.authority, r.path, r.query, r.fragment⟩

end UriReference

/-! ## URIs -/

namespace Uri

/-- A URI as a reference. -/
def toReference (u : Uri) : UriReference := ⟨some u.scheme, u.authority, u.path, u.query, u.fragment⟩

/-- The text of a URI. -/
def toText (u : Uri) : String := u.toReference.toText

instance : ToString Uri := ⟨toText⟩

/-- Reads a URI. -/
def parse (text : String) : Except UriError Uri :=
  match UriReference.parse text with
  | .error e => .error e
  | .ok r => match r.toUri? with
    | some u => .ok u
    | none => .error (.malformed text)

/-- The family of a URI; schemes are the same in either case. -/
def kind (u : Uri) : UriKind :=
  match String.ofList (u.scheme.map Char.toLower) with
  | "http" => .http
  | "https" => .http
  | "file" => .file
  | "data" => .data
  | _ => .generic

/-- The URI of the whole document. -/
def withoutFragment (u : Uri) : Uri := { u with fragment := none }

/-- The URI with its fragment replaced. -/
def withFragment (u : Uri) (fragment : String) : Uri := { u with fragment := some fragment.toList }

/-- The fragment as text. -/
def fragmentText (u : Uri) : Option String := u.fragment.map String.ofList

end Uri

end JsonSchema
