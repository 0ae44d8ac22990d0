import JsonSchema.Pointer
import JsonSchema.Schema.Constraint

/-!
What validation reports: the places of a value that break a constraint, and those that lie too deep to be
looked at.
-/

namespace JsonSchema

/-- What is wrong at a place: a constraint is broken, or the place lies beyond the depth limit. -/
inductive Violation where
  | constraint (c : Constraint)
  | tooDeep (limit : Nat)

namespace Violation

/-- The keyword of the violation. -/
def keyword : Violation → String
  | .constraint c => c.keyword
  | .tooDeep _ => "depth"

/-- The violation in words. -/
def message : Violation → String
  | .constraint c => c.message
  | .tooDeep limit => "The maximum validation depth (" ++ toString limit ++ ") has been exceeded."

/-- The constraint that is broken. -/
def constraint? : Violation → Option Constraint
  | .constraint c => some c
  | .tooDeep _ => none

/-- The violation is that the place lies too deep. -/
def isTooDeep : Violation → Bool
  | .constraint _ => false
  | .tooDeep _ => true

end Violation

/-- A violation at a place. The message is that of the violation unless another one is given. -/
structure Issue where
  pointer : Pointer
  violation : Violation
  message : String

namespace Issue

/-- The issue of a violation. -/
def of (pointer : Pointer) (violation : Violation) : Issue := ⟨pointer, violation, violation.message⟩

/-- The issue of a broken constraint. -/
def broken (pointer : Pointer) (c : Constraint) : Issue := of pointer (.constraint c)

/-- The issue of a place beyond the depth limit. -/
def tooDeep (pointer : Pointer) (limit : Nat) : Issue := of pointer (.tooDeep limit)

/-- The keyword of the issue. -/
def keyword (i : Issue) : String := i.violation.keyword

/-- The text of an issue: the place and the message. -/
def toText (i : Issue) : String := "#" ++ i.pointer.toText ++ ": " ++ i.message

instance : ToString Issue := ⟨toText⟩

end Issue

/-- The issues of a value, in the order in which they were found. -/
abbrev Report := List Issue

namespace Report

/-- There are issues, and all of them are places that lie too deep. -/
def isDepthLimited (r : Report) : Bool := !r.isEmpty && r.all fun i => i.violation.isTooDeep

/-- The text of a report, a line for each issue. -/
def toText (r : Report) : String := String.join (r.map fun i => i.toText ++ "\n")

/-- The places with the messages. -/
def places (r : Report) : List (String × String) := r.map fun i => (i.pointer.toText, i.message)

end Report

end JsonSchema
