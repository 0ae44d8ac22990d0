import JsonSchema.Json
import JsonSchema.Members

/-!
Document trees as a format reader leaves them: arrays and objects are cells of a heap, and a place holds
a scalar or the address of a cell. Two places may hold the same address, and a cell may hold its own, so
data may be shared and cyclic. Cells are changed in place.
-/

namespace JsonSchema

/-- What a place of a document tree holds: a scalar, or the address of an array or object. Bytes and
native date-times occur in trees but not in values. -/
inductive Item where
  | null
  | boolean (b : Bool)
  | integer (i : Int64)
  | number (x : Double)
  | string (s : String)
  | bytes (content : List UInt8)
  | dateTime (text : String)
  | cell (address : Nat)
  deriving DecidableEq, Inhabited

/-- An array or an object of a document tree; the keys of an object are distinct. -/
inductive Cell where
  | array (items : List Item)
  | object (members : List (String × Item))
  deriving DecidableEq, Inhabited

/-- The cells of document trees by their addresses. -/
structure Heap where
  cells : Array Cell
  deriving Inhabited

/-- Both places hold the same array or object; scalars have no identity. -/
def Item.same : Item → Item → Bool
  | .cell a, .cell b => a == b
  | _, _ => false

/-- The item of a JSON number: an integer where it is one of 64 bits with a sign. -/
def Item.ofNumber (n : Json.Number) : Item :=
  match n.asInteger? with
  | some i => .integer i
  | none => .number n.toDouble

namespace Heap

/-- The heap without cells. -/
def empty : Heap := ⟨#[]⟩

/-- The number of cells. -/
def size (h : Heap) : Nat := h.cells.size

/-- Adds a cell. -/
def allocate (h : Heap) (cell : Cell) : Item × Heap := (.cell h.size, ⟨h.cells.push cell⟩)

/-- Adds an array. -/
def newArray (h : Heap) (items : List Item) : Item × Heap := h.allocate (.array items)

/-- Adds an object; of members with the same key the last one gives the value. -/
def newObject (h : Heap) (members : List (String × Item)) : Item × Heap :=
  h.allocate (.object (Members.ofList members))

/-- Puts a cell in place of the one at an address. -/
def put (h : Heap) (address : Nat) (cell : Cell) : Heap := ⟨h.cells.setIfInBounds address cell⟩

/-- Changes the cell that an item designates; an item that is no cell changes nothing. -/
def update (h : Heap) (target : Item) (change : Cell → Cell) : Heap :=
  match target with
  | .cell address =>
    match h.cells[address]? with
    | some cell => h.put address (change cell)
    | none => h
  | _ => h

/-- Appends an element to an array. -/
def push (h : Heap) (target item : Item) : Heap :=
  h.update target fun
    | .array items => .array (items ++ [item])
    | cell => cell

/-- Sets a member of an object; an existing key keeps its place. -/
def insert (h : Heap) (target : Item) (key : String) (item : Item) : Heap :=
  h.update target fun
    | .object members => .object (Members.insert key item members)
    | cell => cell

/-- Removes all elements or members of a cell. -/
def clear (h : Heap) (target : Item) : Heap :=
  h.update target fun
    | .array _ => .array []
    | .object _ => .object []

/-! ## JSON as a document tree -/

mutual

/-- Adds JSON data to a heap. -/
def addJson (h : Heap) : Json → Item × Heap
  | .null => (.null, h)
  | .bool b => (.boolean b, h)
  | .number n => (.ofNumber n, h)
  | .string s => (.string s, h)
  | .array items =>
    let (items, h) := h.addItems items
    h.newArray items
  | .object members =>
    let (members, h) := h.addMembers members
    h.newObject members

/-- Adds the elements of an array. -/
def addItems (h : Heap) : List Json → List Item × Heap
  | [] => ([], h)
  | json :: rest =>
    let (item, h) := h.addJson json
    let (items, h) := h.addItems rest
    (item :: items, h)

/-- Adds the members of an object. -/
def addMembers (h : Heap) : List (String × Json) → List (String × Item) × Heap
  | [] => ([], h)
  | (key, json) :: rest =>
    let (item, h) := h.addJson json
    let (members, h) := h.addMembers rest
    ((key, item) :: members, h)

end

end Heap

end JsonSchema
