import JsonSchema.Heap
import JsonSchema.Value

/-!
Values from document trees and back. Both ways keep the order of elements and members, sharing and
cycles. Each cell becomes one node, registered when it is first met and filled later from a list of
pending work, so that cells may refer to themselves and deep trees need no deep recursion.
-/

namespace JsonSchema

/-- The kinds of items that no value has. -/
inductive Unsupported where
  | bytes
  | dateTime
  deriving DecidableEq

/-- The name of the kind. -/
def Unsupported.name : Unsupported → String
  | .bytes => "bytes"
  | .dateTime => "date-time"

/-- The whole message. -/
def Unsupported.message (kind : Unsupported) : String := "Unsupported value type '" ++ kind.name ++ "'"

/-! ## From trees to values -/

/-- A graph under construction: the nodes so far, the node of each cell met, and the cells whose nodes are
still to be filled, the last one registered first. -/
structure Transformation where
  nodes : Array Node
  known : Array (Option Nat)
  pending : List (Nat × Nat)

namespace Transformation

/-- Nothing is registered yet. -/
def start (heap : Heap) : Transformation := ⟨#[], Array.replicate heap.size none, []⟩

/-- Adds a node. -/
def add (t : Transformation) (node : Node) : Nat × Transformation :=
  (t.nodes.size, { t with nodes := t.nodes.push node })

/-- The node of a cell, registered if the cell is new. An address without cell counts as null. -/
def register (t : Transformation) (address : Nat) : Nat × Transformation :=
  match t.known[address]? with
  | none => t.add .null
  | some (some id) => (id, t)
  | some none =>
    let id := t.nodes.size
    (id, ⟨t.nodes.push .null, t.known.setIfInBounds address (some id), (id, address) :: t.pending⟩)

/-- The node of an item. -/
def intern (t : Transformation) : Item → Except Unsupported (Nat × Transformation)
  | .null => .ok (t.add .null)
  | .boolean b => .ok (t.add (.boolean b))
  | .integer i => .ok (t.add (.integer i))
  | .number x => .ok (t.add (.number x))
  | .string s => .ok (t.add (.string s))
  | .bytes _ => .error .bytes
  | .dateTime _ => .error .dateTime
  | .cell address => .ok (t.register address)

/-- The nodes of items, in order. -/
def internItems (t : Transformation) : List Item → Except Unsupported (List Nat × Transformation)
  | [] => .ok ([], t)
  | item :: rest => do
    let (id, t) ← t.intern item
    let (ids, t) ← t.internItems rest
    return (id :: ids, t)

/-- The nodes of members, in order. -/
def internMembers (t : Transformation) :
    List (String × Item) → Except Unsupported (List (String × Nat) × Transformation)
  | [] => .ok ([], t)
  | (key, item) :: rest => do
    let (id, t) ← t.intern item
    let (ids, t) ← t.internMembers rest
    return ((key, id) :: ids, t)

/-- Fills a registered node. -/
def fill (t : Transformation) (id : Nat) : Cell → Except Unsupported Transformation
  | .array items => do
    let (ids, t) ← t.internItems items
    return { t with nodes := t.nodes.setIfInBounds id (.array ids) }
  | .object members => do
    let (ids, t) ← t.internMembers members
    return { t with nodes := t.nodes.setIfInBounds id (.ofMembers t.nodes ids) }

/-- Fills pending nodes until none is left. Each cell is registered once, so `fuel` for every cell is
enough. -/
def drain (heap : Heap) : Nat → Transformation → Except Unsupported Transformation
  | 0, t => .ok t
  | fuel + 1, t =>
    match t.pending with
    | [] => .ok t
    | (id, address) :: rest => do
      let t ← { t with pending := rest }.fill id (heap.cells[address]?.getD (.array []))
      drain heap fuel t

end Transformation

/-- The value of an item of a document tree. -/
def Value.transform (tag : Nat) (heap : Heap) (item : Item) : Except Unsupported Value := do
  let (id, t) ← (Transformation.start heap).intern item
  let t ← t.drain heap heap.size
  return ⟨⟨tag, t.nodes⟩, id⟩

/-! ## From values to trees -/

/-- A tree under construction: the heap so far, the cell of each node met, and the nodes whose cells are
still to be filled, the last one registered first. -/
structure Rebuilding where
  heap : Heap
  known : Array (Option Nat)
  pending : List (Nat × Nat)

namespace Rebuilding

/-- The cell of a composite node, registered if the node is new. -/
def register (r : Rebuilding) (id : Nat) (blank : Cell) : Item × Rebuilding :=
  match r.known[id]? with
  | some (some address) => (.cell address, r)
  | _ =>
    let (item, heap) := r.heap.allocate blank
    (item, ⟨heap, r.known.setIfInBounds id (some r.heap.size), (r.heap.size, id) :: r.pending⟩)

/-- The item of a node. -/
def item (g : Graph) (r : Rebuilding) (id : Nat) : Item × Rebuilding :=
  match g.node id with
  | .null => (.null, r)
  | .boolean b => (.boolean b, r)
  | .integer i => (.integer i, r)
  | .number x => (.number x, r)
  | .string s => (.string s, r)
  | .array _ => r.register id (.array [])
  | .object _ => r.register id (.object [])
  | .reference _ => r.register id (.object [])

/-- The items of nodes, in order. -/
def items (g : Graph) (r : Rebuilding) : List Nat → List Item × Rebuilding
  | [] => ([], r)
  | id :: rest =>
    let (first, r) := item g r id
    let (others, r) := items g r rest
    (first :: others, r)

/-- Fills a registered cell. -/
def fill (g : Graph) (r : Rebuilding) (address : Nat) (node : Node) : Rebuilding :=
  let (children, r) := items g r node.children
  match node with
  | .array _ => { r with heap := r.heap.put address (.array children) }
  | .object members => { r with heap := r.heap.put address (.object ((members.map (·.1)).zip children)) }
  | .reference members => { r with heap := r.heap.put address (.object ((members.map (·.1)).zip children)) }
  | _ => r

/-- Fills pending cells until none is left; `fuel` for every node is enough. -/
def drain (g : Graph) : Nat → Rebuilding → Rebuilding
  | 0, r => r
  | fuel + 1, r =>
    match r.pending with
    | [] => r
    | (address, id) :: rest => drain g fuel ({ r with pending := rest }.fill g address (g.node id))

end Rebuilding

/-- Adds the tree of a value to a heap. -/
def Value.toItem (v : Value) (heap : Heap) : Item × Heap :=
  let size := v.graph.nodes.size
  let (item, r) := Rebuilding.item v.graph ⟨heap, Array.replicate size none, []⟩ v.id
  (item, (r.drain v.graph size).heap)

end JsonSchema
