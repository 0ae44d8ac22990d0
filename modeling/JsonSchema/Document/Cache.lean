import JsonSchema.Document

/-!
A cache of documents: a finite map from URIs, of which the fragment does not count, to documents.
-/

namespace JsonSchema

/-- Documents by the texts of URIs without fragment; the texts are distinct. -/
structure Cache where
  entries : List (String × Document)
  deriving Inhabited

namespace Cache

/-- The cache without documents. -/
def empty : Cache := ⟨[]⟩

/-- The text under which a URI is entered. -/
def key (uri : Uri) : String := uri.withoutFragment.toText

/-- The document of a URI. -/
def get? (c : Cache) (uri : Uri) : Option Document := c.entries.lookup (key uri)

/-- Enters a document under a URI, in place of an earlier one. -/
def insertAs (c : Cache) (uri : Uri) (document : Document) : Cache :=
  ⟨Members.insert (key uri) document c.entries⟩

/-- Enters a document under its own URI; without one there is nothing to enter. -/
def insert (c : Cache) (document : Document) : Cache :=
  match document.uri? with
  | some uri => c.insertAs uri document
  | none => c

/-- Drops the document of a URI. -/
def remove (c : Cache) (uri : Uri) : Cache := ⟨c.entries.filter fun entry => entry.1 != key uri⟩

/-- The entry of a URI as it was in another cache. -/
def restore (c : Cache) (uri : Uri) (previous : Option Document) : Cache :=
  match previous with
  | some document => c.insertAs uri document
  | none => c.remove uri

/-- The number of documents. -/
def size (c : Cache) : Nat := c.entries.length

/-- There are no documents. -/
def isEmpty (c : Cache) : Bool := c.entries.isEmpty

end Cache

end JsonSchema
