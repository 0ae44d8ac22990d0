import JsonSchema.Pointer.Fragment
import JsonSchema.Pointer.Resolve
import JsonSchema.Uri.Resolve

/-!
Documents and places in them. A document is a value with the URI it was retrieved from; without a URI its
references can only lead into the document itself or name a URI of their own.
-/

namespace JsonSchema

/-- A document: a value, and the URI it was retrieved from, without fragment. -/
structure Document where
  uri? : Option Uri
  root : Value
  deriving Inhabited

/-- A place, told apart from others by the text of the document's URI and the pointer. -/
structure Location where
  document? : Option String
  pointer : Pointer
  deriving DecidableEq, Inhabited

namespace Document

/-- A document without URI. -/
def anonymous (root : Value) : Document := ⟨none, root⟩

/-- The document retrieved from a URI, whose fragment is dropped. -/
def retrieved (uri : Uri) (root : Value) : Document := ⟨some uri.withoutFragment, root⟩

/-- The text of the URI. -/
def uriText? (d : Document) : Option String := d.uri?.map Uri.toText

/-- What the document is called in messages. -/
def name (d : Document) : String := d.uriText?.getD "<anonymous>"

/-- The URI designates a place in the document. -/
def isAt (d : Document) (uri : Uri) : Bool := d.uriText? == some uri.withoutFragment.toText

/-- A place in the document. -/
def location (d : Document) (p : Pointer) : Location := ⟨d.uriText?, p⟩

end Document

/-! ## Places with their values -/

/-- A place that a reference leads to, with the value there. -/
structure Target where
  document : Document
  pointer : Pointer
  value : Value
  deriving Inhabited

namespace Target

/-- The URI of the place, if its document has one. -/
def uri? (t : Target) : Option Uri := t.document.uri?.map fun uri => uri.withFragment t.pointer.toFragment

/-- The place without its value. -/
def location (t : Target) : Location := t.document.location t.pointer

end Target

/-- The place of a document that a fragment designates. -/
def Document.target (d : Document) (fragment : String) : Except PointerError Target := do
  let p ← Pointer.ofFragment fragment
  return ⟨d, p, ← p.resolve d.root⟩

end JsonSchema
