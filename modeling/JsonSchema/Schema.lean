import JsonSchema.Schema.Constraint

/-!
Schemas as graphs. A node of the graph is a list of constraints with annotations, and constraints refer
to nodes of the same graph, so a schema may refer to itself. A builder allocates nodes first and fills
them later; the first node asks for nothing.
-/

namespace JsonSchema

/-- Constraints in the order in which they are checked, and annotations. -/
structure SchemaNode where
  constraints : List Constraint := []
  default? : Option Value := none
  title : Option String := none
  description : Option String := none
  deriving Inhabited

/-- There are neither constraints nor annotations. -/
def SchemaNode.isEmpty (node : SchemaNode) : Bool :=
  node.constraints.isEmpty && node.default?.isNone && node.title.isNone && node.description.isNone

/-- The nodes of a schema, with a tag that no other graph of schemas has. -/
structure SchemaGraph where
  tag : Nat
  nodes : Array SchemaNode
  deriving Inhabited

/-- The node with a number; beyond the last node there are only empty ones. -/
def SchemaGraph.node (g : SchemaGraph) (id : SchemaId) : SchemaNode := g.nodes[id.index]?.getD {}

/-- A schema: a node of a graph. -/
structure Schema where
  graph : SchemaGraph
  id : SchemaId
  deriving Inhabited

namespace Schema

/-- The node of a schema. -/
def node (s : Schema) : SchemaNode := s.graph.node s.id

/-- Another schema of the same graph. -/
def atId (s : Schema) (id : SchemaId) : Schema := ⟨s.graph, id⟩

/-- The schemas that the constraints refer to, in order. -/
def nested (s : Schema) : List Schema := s.node.constraints.flatMap fun c => c.nested.map s.atId

/-- The number of nodes of the graph. -/
def size (s : Schema) : Nat := s.graph.nodes.size

/-- Both are the same node of the same graph. -/
def same (s t : Schema) : Bool := s.graph.tag == t.graph.tag && s.id == t.id

/-- Marks the nodes that can be reached from those on a list; each node is entered once. -/
def mark (g : SchemaGraph) : Nat → List SchemaId → List SchemaId → List SchemaId
  | 0, _, marked => marked
  | _, [], marked => marked
  | fuel + 1, id :: rest, marked =>
    if marked.contains id then mark g fuel rest marked
    else mark g fuel ((g.node id).constraints.flatMap Constraint.nested ++ rest) (id :: marked)

/-- The numbers of the nodes that can be reached from the schema, in ascending order. -/
def reachable (s : Schema) : List SchemaId :=
  let references := s.graph.nodes.toList.foldl (fun n node =>
    n + (node.constraints.flatMap Constraint.nested).length) 0
  (mark s.graph (references + s.size + 1) [s.id] []).mergeSort fun a b => a.index ≤ b.index

end Schema

/-! ## Building -/

/-- A schema graph under construction, with the node that accepts nothing if there is one yet. -/
structure SchemaBuilder where
  nodes : Array SchemaNode
  never? : Option SchemaId

namespace SchemaBuilder

/-- The graph with the empty node alone. -/
def start : SchemaBuilder := ⟨#[{}], none⟩

/-- The number of nodes. -/
def size (b : SchemaBuilder) : Nat := b.nodes.size

/-- Adds a node without constraints. -/
def allocate (b : SchemaBuilder) : SchemaId × SchemaBuilder :=
  (⟨b.size⟩, { b with nodes := b.nodes.push {} })

/-- Adds a node with constraints. -/
def add (b : SchemaBuilder) (constraints : List Constraint) : SchemaId × SchemaBuilder :=
  (⟨b.size⟩, { b with nodes := b.nodes.push { constraints } })

/-- The node that accepts nothing, added when it is first asked for. -/
def never (b : SchemaBuilder) : SchemaId × SchemaBuilder :=
  match b.never? with
  | some id => (id, b)
  | none =>
    let (id, b) := b.add [.not .empty]
    (id, { b with never? := some id })

/-- Changes a node; a number beyond the last node changes nothing. -/
def update (b : SchemaBuilder) (id : SchemaId) (change : SchemaNode → SchemaNode) : SchemaBuilder :=
  { b with nodes := b.nodes.modify id.index change }

/-- Appends a constraint to a node. -/
def push (b : SchemaBuilder) (id : SchemaId) (c : Constraint) : SchemaBuilder :=
  b.update id fun node => { node with constraints := node.constraints ++ [c] }

/-- Sets the default of a node. -/
def setDefault (b : SchemaBuilder) (id : SchemaId) (value : Value) : SchemaBuilder :=
  b.update id fun node => { node with default? := some value }

/-- Sets the title of a node. -/
def setTitle (b : SchemaBuilder) (id : SchemaId) (title : String) : SchemaBuilder :=
  b.update id fun node => { node with title := some title }

/-- Sets the description of a node. -/
def setDescription (b : SchemaBuilder) (id : SchemaId) (description : String) : SchemaBuilder :=
  b.update id fun node => { node with description := some description }

/-- The schema of a node in the finished graph. -/
def build (b : SchemaBuilder) (tag : Nat) (root : SchemaId) : Schema := ⟨⟨tag, b.nodes⟩, root⟩

end SchemaBuilder

/-! ## Shared graphs -/

/-- The tag of the graph of the empty schema. -/
def emptySchemaTag : Nat := 0

/-- The tag of the graph of the meta-schema. -/
def metaSchemaTag : Nat := 1

/-- The first tag for graphs that are made later. -/
def firstFreeTag : Nat := 2

/-- The schema that accepts every value. -/
def Schema.empty : Schema := SchemaBuilder.start.build emptySchemaTag .empty

end JsonSchema
