import JsonSchema.Text.Split
import JsonSchema.Value.Kind

/-!
Addresses into a document: a pointer is a list of atoms, each a member name or an element index in
decimal. In text every atom follows a slash, a tilde is written `~0` and a slash `~1`.
-/

namespace JsonSchema

/-- An address into a document. -/
structure Pointer where
  atoms : List String
  deriving DecidableEq, Inhabited

/-! ## Faults -/

/-- What is wrong with the text of a pointer. -/
inductive Pointer.Malformed where
  | noSlash
  | tilde
  | percent
  | encoding
  deriving DecidableEq

/-- Why an atom leads nowhere. -/
inductive Pointer.Missing where
  | notIndex (atom : String)
  | outOfBounds (index length : Nat)
  | noMember (name : String)
  | scalar (kind : Kind)
  deriving DecidableEq

/-- A pointer that cannot be read or followed. -/
inductive PointerError where
  | invalid (text : String) (fault : Pointer.Malformed)
  | noParent
  | undefined (pointer : Pointer) (position : Nat) (fault : Pointer.Missing)
  deriving DecidableEq

namespace Pointer

/-- The fault in words. -/
def Malformed.message : Malformed → String
  | .noSlash => "a non-empty pointer must start with '/'"
  | .tilde => "'~' must be followed by '0' or '1'"
  | .percent => "invalid percent-encoded sequence"
  | .encoding => "percent-decoded fragment is not valid UTF-8"

/-- The fault in words. -/
def Missing.message : Missing → String
  | .notIndex atom => "'" ++ atom ++ "' is not an array index"
  | .outOfBounds index length =>
    "index " ++ toString index ++ " is out of bounds (" ++ toString length ++ " elements)"
  | .noMember name => "no member named '" ++ name ++ "'"
  | .scalar kind => "cannot step into a " ++ kind.name ++ " value"

/-! ## Building pointers -/

/-- The address of the whole document. -/
def root : Pointer := ⟨[]⟩

/-- The address of the member `atom`. -/
def child (p : Pointer) (atom : String) : Pointer := ⟨p.atoms ++ [atom]⟩

/-- The address of the element `index`. -/
def childIndex (p : Pointer) (index : Nat) : Pointer := p.child (toString index)

/-- The address of what `q` designates in the value that `p` designates. -/
def append (p q : Pointer) : Pointer := ⟨p.atoms ++ q.atoms⟩

instance : Append Pointer := ⟨append⟩

/-- The number of atoms. -/
def length (p : Pointer) : Nat := p.atoms.length

/-- The pointer designates the whole document. -/
def isRoot (p : Pointer) : Bool := p.atoms.isEmpty

/-- The last atom. -/
def last? (p : Pointer) : Option String := p.atoms.getLast?

/-- The address of the container. -/
def parent (p : Pointer) : Except PointerError Pointer :=
  if p.atoms.isEmpty then .error .noParent else .ok ⟨p.atoms.dropLast⟩

/-! ## Text -/

/-- A character of an atom as it is written. -/
def escapeChar (c : Char) : List Char :=
  if c = '~' then ['~', '0'] else if c = '/' then ['~', '1'] else [c]

/-- An atom as it is written. -/
def escape (atom : List Char) : List Char := atom.flatMap escapeChar

/-- Reads a written atom; a tilde stands in an escape only. -/
def unescape? : List Char → Option (List Char)
  | [] => some []
  | '~' :: '0' :: rest => (unescape? rest).map ('~' :: ·)
  | '~' :: '1' :: rest => (unescape? rest).map ('/' :: ·)
  | c :: rest => if c = '~' then none else (unescape? rest).map (c :: ·)

/-- The characters of a pointer: a slash before each atom. -/
def chars (p : Pointer) : List Char := p.atoms.flatMap fun atom => '/' :: escape atom.toList

/-- The text of a pointer. -/
def toText (p : Pointer) : String := String.ofList p.chars

instance : ToString Pointer := ⟨toText⟩

/-- Reads the text of a pointer. -/
def parse (text : String) : Except PointerError Pointer :=
  match text.toList with
  | [] => .ok root
  | '/' :: rest =>
    match (Text.fields '/' rest).mapM unescape? with
    | some atoms => .ok ⟨atoms.map String.ofList⟩
    | none => .error (.invalid text .tilde)
  | _ => .error (.invalid text .noSlash)

end Pointer

namespace PointerError

/-- The fault in words, without the pointer. -/
def reason : PointerError → String
  | .invalid _ fault => fault.message
  | .noParent => "The root pointer has no parent"
  | .undefined _ position fault => "at atom " ++ toString position ++ ": " ++ fault.message

/-- The text that could not be read or followed. -/
def pointer : PointerError → String
  | .invalid text _ => text
  | .noParent => ""
  | .undefined p _ _ => p.toText

/-- The whole message. -/
def message (e : PointerError) : String :=
  match e with
  | .invalid .. => "Invalid pointer '" ++ e.pointer ++ "': " ++ e.reason
  | .noParent => e.reason
  | .undefined .. => "Pointer '" ++ e.pointer ++ "' does not designate a value: " ++ e.reason

end PointerError

end JsonSchema
