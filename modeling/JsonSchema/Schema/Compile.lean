import JsonSchema.Schema.Error
import JsonSchema.Schema.Keyword
import JsonSchema.Schema.Vocabulary
import JsonSchema.Validation

/-!
Schemas from documents. Each place of a document that holds a schema becomes a node of a graph, and a
reference becomes the node of the place that it leads to in the end. A place is entered into the list of
nodes before the schemas in it are looked at, so recursive schemas become cyclic graphs. A document, and
each place that a reference leads to, is checked against the meta-schema first.
-/

namespace JsonSchema

/-- A schema under construction: the documents at hand, the graph, the node of each place met so far, and
the places that were checked against the meta-schema. -/
structure Compilation where
  store : Store
  builder : SchemaBuilder
  known : List (Location × SchemaId)
  checked : List Location

/-- A step of the construction. -/
abbrev Compiling := ExceptT SchemaError (StateM Compilation)

/-- What is needed to make schemas: a way to follow references, and limits. -/
structure Compiler where
  resolver : Resolver
  limits : Limits

namespace Compilation

/-- Nothing has been looked at. -/
def start (store : Store) : Compilation := ⟨store, .start, [], []⟩

/-- Follows references within the construction. -/
def resolving {α : Type} (x : Resolving α) : Compiling α := fun c =>
  let (result, store) := x c.store
  (result.mapError .unresolved, { c with store })

/-- Adds to the graph. -/
def building {α : Type} (change : SchemaBuilder → α × SchemaBuilder) : Compiling α :=
  modifyGet fun c =>
    let (a, builder) := change c.builder
    (a, { c with builder })

/-- Enters the node of a place. -/
def enter (place : Location) (id : SchemaId) : Compiling Unit :=
  modify fun c => { c with known := (place, id) :: c.known }

end Compilation

/-- The URI of a document as errors show it. -/
def Document.label (d : Document) : String := d.uriText?.getD ""

/-! ## The parts of a schema -/

/-- A schema document with its place, and the way to compile the schemas in it. -/
structure SchemaSource where
  value : Value
  document : Document
  pointer : Pointer
  child : Value → Pointer → Compiling SchemaId
  maxRegexLength : Nat

namespace SchemaSource

/-- The place of the value of a keyword. -/
def place (s : SchemaSource) (keyword : String) : Pointer := s.pointer.child keyword

/-- Compiles the schema that a keyword holds. -/
def single (s : SchemaSource) (keyword : String) : Compiling (Option SchemaId) :=
  match s.value.get? keyword with
  | none => return none
  | some v => some <$> s.child v (s.place keyword)

/-- Compiles the schemas of the array that a keyword holds. -/
def sequence (s : SchemaSource) (keyword : String) : Compiling (Option (List SchemaId)) :=
  match s.value.get? keyword with
  | none => return none
  | some v =>
    some <$> v.elements.zipIdx.mapM fun (element, index) => s.child element ((s.place keyword).childIndex index)

/-- Compiles what a keyword says of the parts that no other keyword covers: `false` forbids them, a schema
restricts them. -/
def additional (s : SchemaSource) (keyword : String) : Compiling (Option SchemaId) :=
  match s.value.get? keyword with
  | none => return none
  | some v =>
    if v.asBool? = some false then some <$> Compilation.building SchemaBuilder.never
    else if v.isObject then s.single keyword
    else return none

/-- Reads a regular expression at a place. -/
def regex (s : SchemaSource) (pattern : String) (place : Pointer) : Except SchemaError Regex :=
  if s.maxRegexLength < pattern.utf8ByteSize then
    .error (.invalidPattern s.document.label place pattern (.tooLong s.maxRegexLength))
  else
    match Regex.ofText? pattern with
    | some regex => .ok regex
    | none => .error (.invalidPattern s.document.label place pattern .malformed)

/-- The constraint of a pattern. -/
def pattern (s : SchemaSource) : Compiling (List Constraint) :=
  match Keyword.string? s.value "pattern" with
  | none => return []
  | some text => do return [.pattern (← s.regex text (s.place "pattern"))]

/-- The constraint on the elements of arrays. Only schemas for the first elements leave others over. -/
def items (s : SchemaSource) : Compiling (List Constraint) := do
  match s.value.get? "items" with
  | none => return []
  | some v =>
    if v.isArray then
      let additional ← s.additional "additionalItems"
      let schemas ← s.sequence "items"
      return [.items (.tuple (schemas.getD [])) additional]
    else
      let schema ← s.single "items"
      return [.items (.single (schema.getD .empty)) none]

/-- The schemas of members with a given name. -/
def named (s : SchemaSource) : Compiling (List (String × SchemaId)) :=
  match s.value.get? "properties" with
  | none => return []
  | some v => v.members.mapM fun (name, schema) => do
    return (name, ← s.child schema ((s.place "properties").child name))

/-- The schemas of members whose names match a pattern. -/
def patterns (s : SchemaSource) : Compiling (List (Regex × SchemaId)) :=
  match s.value.get? "patternProperties" with
  | none => return []
  | some v => v.members.mapM fun (pattern, schema) => do
    let place := (s.place "patternProperties").child pattern
    let regex ← s.regex pattern place
    return (regex, ← s.child schema place)

/-- The constraint on the members of objects. -/
def properties (s : SchemaSource) : Compiling (List Constraint) := do
  let additional ← s.additional "additionalProperties"
  if (s.value.get? "properties").isSome || (s.value.get? "patternProperties").isSome || additional.isSome then
    let named ← s.named
    let patterns ← s.patterns
    return [.properties named patterns additional]
  else return []

/-- The constraints that combine schemas. -/
def combinations (s : SchemaSource) : Compiling (List Constraint) := do
  let all ← s.sequence "allOf"
  let any ← s.sequence "anyOf"
  let one ← s.sequence "oneOf"
  let not ← s.single "not"
  return (all.map .allOf).toList ++ (any.map .anyOf).toList ++ (one.map .oneOf).toList ++
    (not.map .not).toList

/-- The constraints of all keywords, in the order in which they are checked. -/
def constraints (s : SchemaSource) : Compiling (List Constraint) := do
  let pattern ← s.pattern
  let items ← s.items
  let properties ← s.properties
  let combinations ← s.combinations
  return Keyword.type s.value ++ Keyword.numeric s.value ++ Keyword.stringLengths s.value ++ pattern ++
    Keyword.stringForms s.value ++ Keyword.arraySizes s.value ++ items ++ Keyword.objectSizes s.value ++
    properties ++ Keyword.required s.value ++ Keyword.enum s.value ++ combinations

/-- The node of all keywords. -/
def node (s : SchemaSource) : Compiling SchemaNode := do
  return ⟨← s.constraints, s.value.get? "default", Keyword.string? s.value "title",
    Keyword.string? s.value "description"⟩

end SchemaSource

/-! ## Schemas -/

namespace Compiler

/-- Checks the schema at a place against the meta-schema, unless that was done before. -/
def check (c : Compiler) (v : Value) (document : Document) (p : Pointer) : Compiling Unit := do
  let place := document.location p
  if (← get).checked.contains place then return
  modify fun s => { s with checked := place :: s.checked }
  let report := metaSchema.validate c.limits.maxDepth v
  match report.find? fun issue => issue.violation.isTooDeep with
  | some issue => throw (.tooDeep document.label (p ++ issue.pointer) c.limits.maxDepth)
  | none =>
    if report.isEmpty then return
    throw (.invalidSpecification document.label p report)

/-- Compiles the schema at a place, where `remaining` levels may still be looked at. A place that was met
before has its node already. -/
def node (c : Compiler) : Nat → Value → Document → Pointer → Compiling SchemaId
  | remaining, v, document, p => do
    let place := document.location p
    match (← get).known.lookup place with
    | some id => return id
    | none =>
      match remaining with
      | 0 => throw (.tooDeep document.label p c.limits.maxDepth)
      | remaining + 1 =>
        if v.kind = .reference then
          let target ← Compilation.resolving (c.resolver.resolve v document)
          if ((← get).known.lookup target.location).isNone then
            c.check target.value target.document target.pointer
          let id ← node c remaining target.value target.document target.pointer
          Compilation.enter place id
          return id
        else
          let id ← Compilation.building SchemaBuilder.allocate
          Compilation.enter place id
          let node ← SchemaSource.node ⟨v, document, p, fun v p => node c remaining v document p,
            c.limits.maxRegexLength⟩
          Compilation.building fun b => ((), b.update id fun _ => node)
          return id

/-- The schema of a document. While it is compiled, the document is cached under its URI, so that
references of other documents lead back to it; afterwards that entry of the cache is what it was. -/
def compile (c : Compiler) (document : Document) : Loading SchemaError Schema := fun store =>
  let opened := match document.uri? with
    | some uri => { store with cache := store.cache.insertAs uri document }
    | none => store
  let work : Compiling SchemaId := do
    c.check document.root document .root
    c.node (c.limits.maxDepth + 1) document.root document .root
  let (result, s) := work (.start opened)
  let closed := match document.uri? with
    | some uri => { s.store with cache := s.store.cache.restore uri (store.cache.get? uri) }
    | none => s.store
  let (tag, closed) := Store.newTag closed
  (result.map (s.builder.build tag), closed)

/-- The schema of a value that was retrieved from a URI, if there is one. -/
def compileValue (c : Compiler) (v : Value) (uri? : Option String) : Loading SchemaError Schema := do
  match uri? with
  | none => c.compile (.anonymous v)
  | some text => c.compile (.retrieved (← (Uri.parse text).mapError SchemaError.badUri) v)

end Compiler

end JsonSchema
