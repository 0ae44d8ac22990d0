/-!
Bounds on the work that untrusted schemas and documents can cause.
-/

namespace JsonSchema

/-- Bounds on nesting, on references followed one after the other, and on the bytes of a regular
expression. -/
structure Limits where
  maxDepth : Nat := 256
  maxReferenceChain : Nat := 64
  maxRegexLength : Nat := 1000
  deriving DecidableEq, Inhabited

namespace Limits

/-- The bounds that hold unless others are given. -/
def standard : Limits := {}

/-- Wide bounds, for schemas and documents that are trusted. -/
def permissive : Limits := { maxDepth := 512, maxReferenceChain := 1024, maxRegexLength := 100000 }

/-- Narrow bounds, for public services. -/
def strict : Limits := { maxDepth := 64, maxReferenceChain := 16, maxRegexLength := 256 }

end Limits

end JsonSchema
