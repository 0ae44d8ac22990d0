import JsonSchema.Json
import JsonSchema.Members
import JsonSchema.Value.Kind

/-!
Document values. The nodes of a document form a graph that never changes: arrays and objects refer to
their children by number, so a node may have several parents and may be its own ancestor. A value is a
node of a graph. Each graph has a tag of its own, and two values are the same instance when they are the
same node of the same graph.
-/

namespace JsonSchema

/-! ## Graphs -/

/-- A node of a document. The keys of an object are distinct and in the order of the document. -/
inductive Node where
  | null
  | boolean (b : Bool)
  | integer (i : Int64)
  | number (x : Double)
  | string (s : String)
  | array (items : List Nat)
  | object (members : List (String × Nat))
  | reference (members : List (String × Nat))
  deriving DecidableEq, Inhabited

/-- The nodes of a document, with a tag that no other graph has. -/
structure Graph where
  tag : Nat
  nodes : Array Node
  deriving Inhabited

/-- A node of a document. -/
structure Value where
  graph : Graph
  id : Nat
  deriving Inhabited

/-- The name of the member that makes an object a reference. -/
def referenceKey : String := "$ref"

namespace Node

/-- The kind of a node. -/
def kind : Node → Kind
  | .null => .null
  | .boolean _ => .boolean
  | .integer _ => .integer
  | .number _ => .number
  | .string _ => .string
  | .array _ => .array
  | .object _ => .object
  | .reference _ => .reference

/-- The members of an object or reference. -/
def members : Node → List (String × Nat)
  | .object members => members
  | .reference members => members
  | _ => []

/-- The elements of an array. -/
def items : Node → List Nat
  | .array items => items
  | _ => []

/-- The children of a node, in order. -/
def children : Node → List Nat
  | .array items => items
  | .object members => members.map (·.2)
  | .reference members => members.map (·.2)
  | _ => []

/-- Arrays, objects and references are composite. -/
def isComposite : Node → Bool
  | .array _ => true
  | .object _ => true
  | .reference _ => true
  | _ => false

/-- The node of an object: a reference if it holds a string under the reserved name. -/
def ofMembers (nodes : Array Node) (members : List (String × Nat)) : Node :=
  match (members.lookup referenceKey).bind fun id => nodes[id]? with
  | some (.string _) => .reference members
  | _ => .object members

end Node

namespace Graph

/-- The node with a number; beyond the last node there are only nulls. -/
def node (g : Graph) (id : Nat) : Node := g.nodes[id]?.getD .null

end Graph

/-! ## Values -/

namespace Value

/-- The node of a value. -/
def node (v : Value) : Node := v.graph.node v.id

/-- The value of another node of the same graph. -/
def atNode (v : Value) (id : Nat) : Value := ⟨v.graph, id⟩

/-- A value without children, in a graph of its own. -/
def scalar (tag : Nat) (node : Node) : Value := ⟨⟨tag, #[node]⟩, 0⟩

/-- The identity of a value: its graph and its node. -/
def identity (v : Value) : Nat × Nat := (v.graph.tag, v.id)

/-- Both are the same node of the same graph. -/
def same (a b : Value) : Bool := a.identity == b.identity

/-- The kind of a value. -/
def kind (v : Value) : Kind := v.node.kind

/-- The value of a boolean. -/
def asBool? (v : Value) : Option Bool :=
  match v.node with
  | .boolean b => some b
  | _ => none

/-- The value of an integer. -/
def asInteger? (v : Value) : Option Int64 :=
  match v.node with
  | .integer i => some i
  | _ => none

/-- The value of a number; an integer counts as the nearest floating-point number. -/
def asDouble? (v : Value) : Option Double :=
  match v.node with
  | .integer i => some (Double.ofInt i.toInt)
  | .number x => some x
  | _ => none

/-- The value of a string. -/
def asString? (v : Value) : Option String :=
  match v.node with
  | .string s => some s
  | _ => none

/-- Objects and references. -/
def isObject (v : Value) : Bool :=
  match v.node with
  | .object _ => true
  | .reference _ => true
  | _ => false

/-- The value is an array. -/
def isArray (v : Value) : Bool :=
  match v.node with
  | .array _ => true
  | _ => false

/-- The elements of an array, in order; other values have none. -/
def elements (v : Value) : List Value := v.node.items.map v.atNode

/-- The members of an object or reference, in order; other values have none. -/
def members (v : Value) : List (String × Value) := v.node.members.map fun (key, id) => (key, v.atNode id)

/-- The keys of an object or reference, in order. -/
def keys (v : Value) : List String := v.node.members.map (·.1)

/-- The number of elements or members. -/
def length (v : Value) : Nat := v.node.children.length

/-- The element at an index. -/
def at? (v : Value) (index : Nat) : Option Value := v.node.items[index]?.map v.atNode

/-- The member with a key. -/
def get? (v : Value) (key : String) : Option Value := (v.node.members.lookup key).map v.atNode

/-- What a reference refers to, as it is written. -/
def reference? (v : Value) : Option String :=
  match v.node with
  | .reference members =>
    (members.lookup referenceKey).bind fun id => (v.atNode id).asString?
  | _ => none

end Value

/-! ## JSON as a value -/

/-- The node of a JSON number: an integer where it is one of 64 bits with a sign. -/
def Node.ofNumber (n : Json.Number) : Node :=
  match n.asInteger? with
  | some i => .integer i
  | none => .number n.toDouble

theorem Node.ofNumber_of_integer {n : Json.Number} {i : Int64} (h : n.asInteger? = some i) : ofNumber n = .integer i := by
  rw [ofNumber, h]

theorem Node.ofNumber_of_none {n : Json.Number} (h : n.asInteger? = none) : ofNumber n = .number n.toDouble := by
  rw [ofNumber, h]

@[simp] theorem Node.isComposite_ofNumber (n : Json.Number) : (ofNumber n).isComposite = false := by
  unfold ofNumber
  split <;> rfl

@[simp] theorem Node.children_ofNumber (n : Json.Number) : (ofNumber n).children = [] := by
  unfold ofNumber
  split <;> rfl

mutual

/-- Adds JSON data to the nodes of a graph, children first. Gives the number of its node. -/
def Node.addJson (nodes : Array Node) : Json → Nat × Array Node
  | .null => (nodes.size, nodes.push .null)
  | .bool b => (nodes.size, nodes.push (.boolean b))
  | .number n => (nodes.size, nodes.push (.ofNumber n))
  | .string s => (nodes.size, nodes.push (.string s))
  | .array items =>
    let (ids, nodes) := Node.addItems nodes items
    (nodes.size, nodes.push (.array ids))
  | .object members =>
    let (ids, nodes) := Node.addMembers nodes members
    (nodes.size, nodes.push (.ofMembers nodes (Members.ofList ids)))

/-- Adds the elements of an array. -/
def Node.addItems (nodes : Array Node) : List Json → List Nat × Array Node
  | [] => ([], nodes)
  | json :: rest =>
    let (id, nodes) := Node.addJson nodes json
    let (ids, nodes) := Node.addItems nodes rest
    (id :: ids, nodes)

/-- Adds the members of an object. -/
def Node.addMembers (nodes : Array Node) : List (String × Json) → List (String × Nat) × Array Node
  | [] => ([], nodes)
  | (key, json) :: rest =>
    let (id, nodes) := Node.addJson nodes json
    let (ids, nodes) := Node.addMembers nodes rest
    ((key, id) :: ids, nodes)

end

/-- JSON data as a value in a graph of its own; nothing in it is shared. -/
def Value.ofJson (tag : Nat) (json : Json) : Value :=
  let (id, nodes) := Node.addJson #[] json
  ⟨⟨tag, nodes⟩, id⟩

end JsonSchema
