import JsonSchema.Reference

/-!
Data without references: a new value in which what a reference leads to stands in its place. Each array
and object, of the document or of one that is loaded, becomes one cell of a new tree, registered when it
is first met and filled later, so that sharing and cycles are kept and references may close further
cycles. The tree is then read as a value.
-/

namespace JsonSchema

/-- A tree under construction: the documents at hand, the tree, the items that stand for arrays, objects
and references met so far, and the cells still to be filled, each with its value and the document of that,
the last one registered first. -/
structure Dereferencing where
  store : Store
  heap : Heap
  known : List ((Nat × Nat) × Item)
  pending : List (Item × Value × Document)

namespace Dereferencing

/-- A step of the construction. -/
abbrev Step := ExceptT ReferenceError (StateM Dereferencing)

/-- Follows references within the construction. -/
def resolving {α : Type} (x : Resolving α) : Step α := fun d =>
  let (result, store) := x d.store
  (result, { d with store })

/-- Remembers the item of a value. -/
def remember (v : Value) (item : Item) : Step Unit :=
  modify fun d => { d with known := (v.identity, item) :: d.known }

/-- Registers an empty cell for an array or object. -/
def register (v : Value) (context : Document) (blank : Cell) : Step Item := do
  let (item, heap) := (← get).heap.allocate blank
  modify fun d => { d with heap, pending := (item, v, context) :: d.pending }
  remember v item
  return item

/-- The item of a value that is no reference. -/
def item (v : Value) (context : Document) : Step Item := do
  match (← get).known.lookup v.identity with
  | some item => return item
  | none =>
    match v.node with
    | .null => return .null
    | .boolean b => return .boolean b
    | .integer i => return .integer i
    | .number x => return .number x
    | .string s => return .string s
    | .array _ => register v context (.array [])
    | .object _ => register v context (.object [])
    | .reference _ => register v context (.object [])

/-- The item of a value, or of what it leads to if it is a reference. -/
def target (r : Resolver) (v : Value) (context : Document) : Step Item := do
  if v.kind = .reference then
    match (← get).known.lookup v.identity with
    | some item => return item
    | none =>
      let t ← resolving (r.resolve v context)
      let item ← item t.value t.document
      remember v item
      return item
  else item v context

/-- Fills a cell with the items of the elements or members of a value. -/
def fill (r : Resolver) (cell : Item) (v : Value) (context : Document) : Step Unit := do
  v.elements.forM fun element => do
    let item ← target r element context
    modify fun d => { d with heap := d.heap.push cell item }
  v.members.forM fun (key, member) => do
    let item ← target r member context
    modify fun d => { d with heap := d.heap.insert cell key item }

/-- Fills cells until none is pending. Each array and object is registered once, so `fuel` for all that
can be met is enough. -/
def drain (r : Resolver) : Nat → Step Unit
  | 0 => return
  | fuel + 1 => do
    match (← get).pending with
    | [] => return
    | (cell, v, context) :: rest =>
      modify fun d => { d with pending := rest }
      fill r cell v context
      drain r fuel

/-- Gives up if a cell is still pending: there is more than the loader was said to have. -/
def close (document : Document) : Step Unit := do
  unless (← get).pending.isEmpty do throw ⟨document.name, document.name, .endless⟩

/-- The whole construction, with fuel for a number of arrays and objects. -/
def build (r : Resolver) (document : Document) (fuel : Nat) : Step Item := do
  let root ← target r document.root document
  drain r fuel
  close document
  return root

/-- Nothing is known yet. -/
def start (store : Store) : Dereferencing := ⟨store, .empty, [], []⟩

end Dereferencing

/-- The number of nodes of the documents that references in a document can lead to. -/
def Resolver.reachSize (r : Resolver) (document : Document) (store : Store) : Nat :=
  document.root.graph.nodes.size +
    store.cache.entries.foldr (fun entry n => entry.2.root.graph.nodes.size + n) 0 +
    (r.loader?.map Loader.size).getD 0

/-- The data of a document without references. -/
def Resolver.dereference (r : Resolver) (document : Document) : Resolving Value := fun store =>
  let (result, d) := Dereferencing.build r document (r.reachSize document store) (.start store)
  let (tag, store) := Store.newTag d.store
  match result with
  | .error e => (.error e, store)
  | .ok root =>
    match Value.transform tag d.heap root with
    | .error kind => (.error ⟨document.name, document.name, .unsupported kind⟩, store)
    | .ok v => (.ok v, store)

end JsonSchema
