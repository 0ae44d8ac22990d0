import JsonSchema.Uri

/-!
Resolution of a reference against a base URI. A reference with a scheme is taken as it is. Against a
hierarchical base the reference gives its own components and takes the others from the base; a relative
path follows the base path up to its last slash, and dot segments are removed as the path is walked. A
data URI has no hierarchy, so it takes fragments alone.
-/

namespace JsonSchema.Uri

open Text

/-! ## Paths -/

/-- One step up from a list of directories, innermost first. Under an authority the outermost directory
stays; without one the path may become empty. -/
def climb (rooted : Bool) : List (List Char) → List (List Char)
  | [] => []
  | [outermost] => if rooted then [outermost] else []
  | _ :: rest => rest

/-- A path from its directories, innermost first, and its last segment. -/
def joinPath (directories : List (List Char)) (last : List Char) : List Char :=
  directories.reverse.flatMap (· ++ ['/']) ++ last

/-- A path that begins with two slashes would read as an authority where there is none. -/
def readsAsAuthority (rooted : Bool) (path : List Char) : Bool := !rooted && ['/', '/'].isPrefixOf path

/-- The directories after a dot segment, which may not read as an authority. -/
def enter? (rooted : Bool) (directories : List (List Char)) : Option (List (List Char)) :=
  if readsAsAuthority rooted (joinPath directories []) then none else some directories

/-- Walks the segments of a path from a directory: `.` stays and `..` goes one step up. -/
def walk? (rooted : Bool) (directories : List (List Char)) : List (List Char) → Option (List Char)
  | [] => some (joinPath directories [])
  | [last] =>
    if last = ['.'] then some (joinPath directories [])
    else if last = ['.', '.'] then some (joinPath (climb rooted directories) [])
    else some (joinPath directories last)
  | segment :: rest =>
    if segment = ['.'] then do walk? rooted (← enter? rooted directories) rest
    else if segment = ['.', '.'] then do walk? rooted (← enter? rooted (climb rooted directories)) rest
    else walk? rooted (segment :: directories) rest

/-- The directories of a base path, innermost first; under an authority an empty path is the root. -/
def directories (u : Uri) : List (List Char) :=
  if u.authority.isSome && u.path.isEmpty then [[]] else (fields '/' u.path).dropLast.reverse

/-- The path of a relative reference with a path of its own. No path of a URI without authority reads as
one, neither at a dot segment on the way nor at the end. -/
def mergePath? (base : Uri) (path : List Char) : Option (List Char) :=
  let rooted := base.authority.isSome
  let start := if path.head? = some '/' then [] else base.directories
  (walk? rooted start (fields '/' path)).filter fun path => !readsAsAuthority rooted path

/-! ## References -/

/-- The components of a reference without scheme against a hierarchical base. -/
def merge? (base : Uri) (r : UriReference) : Option Uri :=
  if r.authority.isSome then some ⟨base.scheme, r.authority, r.path, r.query, r.fragment⟩
  else if r.path.isEmpty then
    some ⟨base.scheme, base.authority, base.path, r.query <|> base.query, r.fragment⟩
  else (base.mergePath? r.path).map fun path => ⟨base.scheme, base.authority, path, r.query, r.fragment⟩

/-- Resolves a reference against a base. -/
def resolve (base : Uri) (r : UriReference) : Except UriError Uri :=
  match r.toUri? with
  | some u => .ok u
  | none =>
    if base.kind = .data then
      if r.isFragmentOnly then .ok { base with fragment := r.fragment }
      else .error (.notHierarchical r.toText base.toText)
    else
      match base.merge? r with
      | some u => .ok u
      | none => .error (.malformed r.toText)

/-- Reads a reference and resolves it, or reads a URI where there is no base. -/
def resolveText (base : Option Uri) (reference : String) : Except UriError Uri :=
  match base with
  | none => parse reference
  | some base => do base.resolve (← UriReference.parse reference)

end JsonSchema.Uri
