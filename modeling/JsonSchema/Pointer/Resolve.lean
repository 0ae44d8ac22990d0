import JsonSchema.Pointer
import JsonSchema.Value

/-!
Following pointers. At an array an atom is the decimal text of an index, without leading zeros, and at an
object it is the key of a member.
-/

namespace JsonSchema

/-- The largest number that is an index. -/
def Pointer.indexLimit : Nat := Nat.pow 2 64

/-- The index that an atom stands for. -/
def Pointer.index? (atom : String) : Option Nat :=
  let digits := atom.toList
  if digits.isEmpty || !digits.all Char.isDigit then none
  else if 1 < digits.length && digits.head? == some '0' then none
  else
    let n := digits.foldl (fun n c => 10 * n + (c.toNat - '0'.toNat)) 0
    if n < indexLimit then some n else none

/-- The child of a value that an atom designates. -/
def Value.step (v : Value) (atom : String) : Except Pointer.Missing Value :=
  match v.node with
  | .array items =>
    match Pointer.index? atom with
    | none => .error (.notIndex atom)
    | some index =>
      match v.at? index with
      | some child => .ok child
      | none => .error (.outOfBounds index items.length)
  | .object _ | .reference _ =>
    match v.get? atom with
    | some child => .ok child
    | none => .error (.noMember atom)
  | node => .error (.scalar node.kind)

/-- Follows atoms from a value; `position` counts the atoms before them. -/
def Value.follow (v : Value) (position : Nat) : List String → Except (Nat × Pointer.Missing) Value
  | [] => .ok v
  | atom :: rest =>
    match v.step atom with
    | .ok child => child.follow (position + 1) rest
    | .error fault => .error (position, fault)

/-- The value that a pointer designates below a root. -/
def Pointer.resolve (p : Pointer) (root : Value) : Except PointerError Value :=
  match root.follow 0 p.atoms with
  | .ok v => .ok v
  | .error (position, fault) => .error (.undefined p position fault)

end JsonSchema
