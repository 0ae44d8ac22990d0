import JsonSchema.Value

/-!
Equality of values. Two values are equal when their composite nodes can be paired one to one so that
paired nodes agree: arrays element by element, objects with objects and references with references key by
key in any order, scalars by what they stand for. Shared and cyclic data is equal only to data that is
shared and cyclic in the same way.
-/

namespace JsonSchema

/-- Two scalars stand for the same thing; an integer and a floating-point number compare as numbers. -/
def Node.scalarEq : Node → Node → Bool
  | .null, .null => true
  | .boolean a, .boolean b => a == b
  | .integer a, .integer b => a == b
  | .number a, .number b => a.eq b
  | .integer a, .number b => (Double.ofInt a.toInt).eq b
  | .number a, .integer b => (Double.ofInt b.toInt).eq a
  | .string a, .string b => a == b
  | _, _ => false

/-- The children of a list of members paired with the members of the same keys. -/
def Node.pairMembers (right : List (String × Nat)) : List (String × Nat) → Option (List (Nat × Nat))
  | [] => some []
  | (key, id) :: rest =>
    match right.lookup key, pairMembers right rest with
    | some other, some pairs => some ((id, other) :: pairs)
    | _, _ => none

/-- The pairs of children that have to agree for two composite nodes to agree, unless their kinds, lengths
or keys differ already. -/
def Node.pairChildren : Node → Node → Option (List (Nat × Nat))
  | .array a, .array b => if a.length = b.length then some (a.zip b) else none
  | .object a, .object b => if a.length = b.length then pairMembers b a else none
  | .reference a, .reference b => if a.length = b.length then pairMembers b a else none
  | _, _ => none

/-- Pairs of composite nodes, one from either graph, that have been taken for equal. -/
abbrev Pairing := List (Nat × Nat)

namespace Pairing

/-- Compares two nodes. Scalars are compared at once. Composite nodes that are new become a pair, and
their children join the pairs to be compared `later`; a node that has another partner already decides
against equality. -/
def absorb (left right : Graph) : Pairing × List (Nat × Nat) → Nat × Nat → Option (Pairing × List (Nat × Nat))
  | (p, later), (a, b) =>
    if (left.node a).isComposite && (right.node b).isComposite then
      if p.contains (a, b) then some (p, later)
      else if p.any fun (a', b') => a' == a || b' == b then none
      else ((left.node a).pairChildren (right.node b)).map fun pairs => ((a, b) :: p, pairs ++ later)
    else if (left.node a).scalarEq (right.node b) then some (p, later)
    else none

/-- Compares pairs of nodes, then the pairs of their children, and so on. Every round but the last one
pairs a node of the left graph that had no partner, so one round more than there are nodes is enough. -/
def agree (left right : Graph) : Nat → Pairing → List (Nat × Nat) → Bool
  | _, _, [] => true
  | 0, _, _ :: _ => false
  | rounds + 1, p, pair :: rest =>
    match (pair :: rest).foldlM (absorb left right) (p, []) with
    | some (p, later) => agree left right rounds p later
    | none => false

end Pairing

/-- Equality of values. -/
def Value.eq (v w : Value) : Bool :=
  Pairing.agree v.graph w.graph (v.graph.nodes.size + 1) [] [(v.id, w.id)]

instance : BEq Value := ⟨Value.eq⟩

/-- No two values of a list are equal. -/
def Value.distinct : List Value → Bool
  | [] => true
  | v :: rest => rest.all (fun w => !v.eq w) && distinct rest

end JsonSchema
