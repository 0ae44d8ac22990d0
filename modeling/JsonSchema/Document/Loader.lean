import JsonSchema.Document.Cache
import JsonSchema.Value.Transform

/-!
Documents from elsewhere. What a loader answers may depend on the URI and on how often it was asked for it before, in
any way; no two requests of a run are the same in both, so any sequence of answers is possible. A table of documents is
a loader whose answers to a URI are listed, those of the first requests one by one.
-/

namespace JsonSchema

/-- A loaded document: a document tree, and the URI it was found under in the end. -/
structure Remote where
  heap : Heap
  root : Item
  finalUri : String
  deriving Inhabited

/-- How a request ends: with a document, or with the message of an error. -/
abbrev Answer := Except String Remote

/-- Where documents come from: how a request of a URI ends after some earlier ones of it, and the number of arrays and
objects in all documents. If these are infinitely many, any number stands for it, and data that takes more is given up. -/
structure Loader where
  answer (uri : String) (earlier : Nat) : Answer
  size : Nat

/-! ## Tables of documents -/

/-- What a table has for a URI: how the first requests end, and how every later one does. -/
structure Source where
  uri : String
  first : List Answer
  answer : Answer

/-- The number of arrays and objects of an answer. -/
def Answer.weight : Answer → Nat
  | .ok remote => remote.heap.size
  | .error _ => 0

/-- The weights of all entries together. -/
def total {α : Type} (weight : α → Nat) (entries : List α) : Nat := entries.foldr (fun entry n => weight entry + n) 0

/-- All answers for a URI. -/
def Source.answers (source : Source) : List Answer := source.answer :: source.first

/-- The number of arrays and objects that a source can give. -/
def Source.weight (source : Source) : Nat := total Answer.weight source.answers

/-- The loader that answers from a table. -/
def Loader.ofSources (sources : List Source) : Loader where
  answer uri earlier :=
    match sources.find? fun source => source.uri == uri with
    | none => .error (uri ++ " not found")
    | some source => source.first.getD earlier source.answer
  size := total Source.weight sources

/-! ## The documents at hand -/

/-- The documents at hand, the URIs that the loader was asked for, in order, and a tag that no graph has
yet. -/
structure Store where
  cache : Cache
  requests : List String
  nextTag : Nat
  deriving Inhabited

/-- A computation that loads documents and may fail; what it loaded before a failure stays at hand. -/
abbrev Loading (ε : Type) := ExceptT ε (StateM Store)

namespace Store

/-- Nothing is at hand. -/
def start (nextTag : Nat) : Store := ⟨.empty, [], nextTag⟩

/-- A tag for a new graph. -/
def newTag : StateM Store Nat := modifyGet fun s => (s.nextTag, { s with nextTag := s.nextTag + 1 })

/-- Enters a document into the cache. -/
def insert (document : Document) : StateM Store Unit :=
  modify fun s => { s with cache := s.cache.insert document }

/-- The document of a URI, taken from the cache or else loaded and cached. A failed load leaves the cache
as it was. -/
def getOrLoad {ε : Type} (uri : Uri) (load : Uri → Loading ε Document) : Loading ε Document := do
  match (← get).cache.get? uri with
  | some document => return document
  | none =>
    let document ← load uri.withoutFragment
    modify fun s => { s with cache := s.cache.insertAs uri document }
    return document

end Store

/-! ## Loading -/

/-- Why a document could not be loaded. -/
inductive LoadFault where
  | noLoader
  | refused (message : String)
  | unsupported (kind : Unsupported)
  | finalUri (e : UriError)
  deriving DecidableEq

/-- The fault in words, where these are laid down. -/
def LoadFault.message? : LoadFault → Option String
  | .noLoader => some "no load document callback has been set"
  | .refused message => some message
  | .unsupported kind => some kind.message
  | .finalUri e => e.message?

/-- Asks a loader for the document of a URI. -/
def Loader.request (loader : Loader) (uri : String) : Loading LoadFault Remote := do
  let earlier := (← get).requests.count uri
  modify fun s => { s with requests := s.requests ++ [uri] }
  match loader.answer uri earlier with
  | .ok remote => return remote
  | .error message => throw (.refused message)

/-- Loads the document of a URI. -/
def Loader.fetch (loader? : Option Loader) (uri : Uri) : Loading LoadFault Document := do
  match loader? with
  | none => throw .noLoader
  | some loader =>
    let remote ← loader.request uri.toText
    match Value.transform (← Store.newTag) remote.heap remote.root with
    | .error kind => throw (.unsupported kind)
    | .ok root =>
      match Uri.parse remote.finalUri with
      | .error e => throw (.finalUri e)
      | .ok finalUri => return .retrieved finalUri root

end JsonSchema
