import JsonSchema.Document.Loader
import JsonSchema.Limits
import JsonSchema.Value.Text

/-!
References. What a reference leads to is found in the document that holds it or in the document of the
URI that it designates, and may be a reference itself; following a reference means going on until a value
is none. A place visited twice, or more places than the limit allows, end the search.
-/

namespace JsonSchema

/-! ## Faults -/

/-- Why a reference leads nowhere. -/
inductive ReferenceFault where
  | relativeWithoutBase
  | notReference
  | cycle
  | chainTooLong (limit : Nat)
  | badUri (e : UriError)
  | badPointer (e : PointerError)
  | notLoaded (uri : String) (fault : LoadFault)
  | unsupported (kind : Unsupported)
  /-- There is no end to what references lead to. No run ends so if the loader has finitely many documents. -/
  | endless
  | other (message : String)
  deriving DecidableEq

/-- A reference that could not be resolved, and the name of the document that holds it. -/
structure ReferenceError where
  reference : String
  context : String
  fault : ReferenceFault
  deriving DecidableEq

/-- The message of an unresolved reference. -/
def ReferenceError.wording (reference context message : String) : String :=
  "Unable to resolve reference '" ++ reference ++ "' in context '" ++ context ++ "': " ++ message

/-- The fault in words, where these are laid down. -/
def ReferenceFault.message? : ReferenceFault → Option String
  | .relativeWithoutBase => some "relative reference in a document without URI"
  | .notReference => some "the value is not a reference"
  | .cycle => some "reference cycle detected"
  | .chainTooLong limit => some ("more than " ++ toString limit ++ " chained references")
  | .badUri e => e.message?
  | .badPointer e => some e.message
  | .notLoaded uri fault => fault.message?.map (ReferenceError.wording uri uri)
  | .unsupported kind => some kind.message
  | .endless => none
  | .other message => some message

/-- The whole message, where its words are laid down. -/
def ReferenceError.message? (e : ReferenceError) : Option String :=
  e.fault.message?.map (wording e.reference e.context)

/-! ## Where a reference leads -/

/-- Where a reference leads: to a fragment of the document that holds it, or to a URI elsewhere. -/
inductive Destination where
  | here (fragment : String)
  | elsewhere (uri : Uri)
  deriving DecidableEq

/-- The destination of a URI seen from a document. -/
def Document.destinationOfUri (context : Document) (uri : Uri) : Destination :=
  if context.isAt uri then .here (uri.fragmentText.getD "") else .elsewhere uri

/-- The destination of a reference in a document. -/
def Document.destination (context : Document) (reference : String) : Except ReferenceFault Destination := do
  let parsed ← (UriReference.parse reference).mapError .badUri
  match context.uri? with
  | some base => return context.destinationOfUri (← (base.resolve parsed).mapError .badUri)
  | none =>
    if parsed.isFragmentOnly then return .here ((parsed.fragment.map String.ofList).getD "")
    else if parsed.isAbsolute then return .elsewhere (← (Uri.parse reference).mapError .badUri)
    else throw .relativeWithoutBase

/-! ## Resolution -/

/-- What is needed to follow references: a source of documents, if there is one, and limits. -/
structure Resolver where
  loader? : Option Loader
  limits : Limits

/-- A computation that follows references. -/
abbrev Resolving := Loading ReferenceError

namespace Resolver

/-- The document of a URI. A loaded document that has another URI is cached under that one too, unless
one is there. -/
def load (r : Resolver) (uri : Uri) : Loading LoadFault Document := do
  let document ← Store.getOrLoad uri (Loader.fetch r.loader?)
  match document.uri? with
  | none => return document
  | some finalUri =>
    if !document.isAt uri && ((← get).cache.get? finalUri).isNone then Store.insert document
    return document

/-- The place that a destination designates. -/
def reach (r : Resolver) (context : Document) : Destination → Loading ReferenceFault Target
  | .here fragment => do (context.target fragment).mapError ReferenceFault.badPointer
  | .elsewhere uri => do
    let document ← (r.load uri).adapt (.notLoaded uri.withoutFragment.toText)
    (document.target (uri.fragmentText.getD "")).mapError ReferenceFault.badPointer

/-- The place that a reference in a document leads to. Its value may be a reference itself. -/
def resolveTarget (r : Resolver) (reference : String) (context : Document) : Resolving Target :=
  ExceptT.adapt (fun fault => ⟨reference, context.name, fault⟩) do
    r.reach context (← context.destination reference)

/-- Follows a reference until a value is none. `more` references may follow the first one, and `visited`
are the places of references met before. -/
def chase (r : Resolver) : Nat → List Location → String → Document → Resolving Target
  | 0, visited, reference, context => do
    let target ← r.resolveTarget reference context
    match target.value.reference? with
    | none => return target
    | some _ =>
      if visited.contains target.location then throw ⟨reference, context.name, .cycle⟩
      else throw ⟨reference, context.name, .chainTooLong r.limits.maxReferenceChain⟩
  | more + 1, visited, reference, context => do
    let target ← r.resolveTarget reference context
    match target.value.reference? with
    | none => return target
    | some next =>
      if visited.contains target.location then throw ⟨reference, context.name, .cycle⟩
      else chase r more (target.location :: visited) next target.document

/-- The place that a reference value leads to in the end. -/
def resolve (r : Resolver) (reference : Value) (context : Document) : Resolving Target :=
  match reference.reference? with
  | none => throw ⟨reference.toText, context.name, .notReference⟩
  | some link => r.chase (r.limits.maxReferenceChain - 1) [] link context

end Resolver

end JsonSchema
