import JsonSchema.Json.Parse
import JsonSchema.Json.Text
import JsonSchema.Reference.Dereference
import JsonSchema.Schema.Compile
import JsonSchema.Value.Equality
import JsonSchema.Proofs.DepthLimit
import JsonSchema.Proofs.Verdict
import JsonSchema.Proofs.Transform
import JsonSchema.Proofs.Environment
import JsonSchema.Proofs.Dereference
import JsonSchema.Proofs.Compile.Meaning
import JsonSchema.Proofs.Places
import JsonSchema.Proofs.Issues
import JsonSchema.Proofs.Compile.Invariant
import JsonSchema.Proofs.Compile
import JsonSchema.Proofs.Dereference.Residual
import JsonSchema.Proofs.Vocabulary
import JsonSchema.Proofs.Compile.Logic
import JsonSchema.Proofs.Compile.Complete
import JsonSchema.Proofs.Completeness
import JsonSchema.Proofs.Compile.Approved
import JsonSchema.Proofs.Reordered.Compile
import JsonSchema.Proofs.Equality.Bijection
import JsonSchema.Proofs.Equality.Equivalence
import JsonSchema.Proofs.Compile.Limits
import JsonSchema.Proofs.Compile.Relocation
import JsonSchema.Proofs.UriText
import JsonSchema.Proofs.Requests
import JsonSchema.Proofs.Compile.Scoped
import JsonSchema.Proofs.Sessions
import JsonSchema.Proofs.SideBySide
import JsonSchema.Proofs.Copies
import JsonSchema.Proofs.Compile.Construction
import JsonSchema.Proofs.Copies.Environment
import JsonSchema.Proofs.Copies.Compile
import JsonSchema.Proofs.Engine
import JsonSchema.Proofs.Compile.Overlong
import JsonSchema.Proofs.PointerText
import JsonSchema.Proofs.Mirror
import JsonSchema.Proofs.Rebuilding
import JsonSchema.Proofs.RoundTrip
import JsonSchema.Proofs.Dereference.Return
import JsonSchema.Proofs.Reordered.Validation
import JsonSchema.Proofs.Builder
import JsonSchema.Proofs.Vocabulary.Recognition
import JsonSchema.Proofs.TargetUri
import JsonSchema.Proofs.FragmentText
import JsonSchema.Proofs.JsonValue
import JsonSchema.Proofs.Bounds
import JsonSchema.Proofs.Following
import JsonSchema.Proofs.Paths
import JsonSchema.Proofs.Slots
import JsonSchema.Proofs.Multiples
import JsonSchema.Proofs.Display
import JsonSchema.Proofs.SharedReport
import JsonSchema.Proofs.Addresses
import JsonSchema.Proofs.Resolution
