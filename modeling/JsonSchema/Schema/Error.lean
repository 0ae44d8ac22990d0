import JsonSchema.Reference
import JsonSchema.Validation.Issue

/-!
Why a schema document does not become a schema.
-/

namespace JsonSchema

/-- What is wrong with a regular expression. -/
inductive PatternFault where
  | tooLong (limit : Nat)
  | malformed
  deriving DecidableEq

/-- The fault in words, where these are laid down. -/
def PatternFault.message? : PatternFault → Option String
  | .tooLong limit => some ("the pattern is longer than " ++ toString limit ++ " bytes")
  | .malformed => none

/-- A schema document that does not become a schema. The place is the URI of a document, empty if it has
none, and a pointer. -/
inductive SchemaError where
  | invalidSpecification (uri : String) (pointer : Pointer) (report : Report)
  | invalidPattern (uri : String) (pointer : Pointer) (pattern : String) (fault : PatternFault)
  | tooDeep (uri : String) (pointer : Pointer) (limit : Nat)
  | unresolved (e : ReferenceError)
  | badUri (e : UriError)

/-- The whole message, where its words are laid down. -/
def SchemaError.message? : SchemaError → Option String
  | .invalidSpecification uri p report =>
    some ("Invalid schema specification at '" ++ uri ++ "#" ++ p.toText ++ "':\n" ++ report.toText)
  | .invalidPattern uri p pattern fault =>
    fault.message?.map fun message =>
      "Invalid regex pattern '" ++ pattern ++ "' at '" ++ uri ++ "#" ++ p.toText ++ "': " ++ message
  | .tooDeep uri p limit =>
    some ("Maximum schema depth (" ++ toString limit ++ ") exceeded at '" ++ uri ++ "#" ++ p.toText ++ "'")
  | .unresolved e => e.message?
  | .badUri e => e.message?

end JsonSchema
