import StructuralSchema.Json.Comparison
import StructuralSchema.Main
import StructuralSchema.Predicate.Address
import StructuralSchema.Schema.Canonical
import StructuralSchema.Schema.Grammar
import StructuralSchema.Schema.Place
import StructuralSchema.Validation.Violations
import StructuralSchema.Proofs.Fields
import StructuralSchema.Proofs.Trees
import StructuralSchema.Proofs.Equivalence
import StructuralSchema.Proofs.Copies
import StructuralSchema.Proofs.Acceptance
import StructuralSchema.Proofs.Inference
import StructuralSchema.Proofs.Json.Reading
import StructuralSchema.Proofs.Modes
import StructuralSchema.Proofs.SameShape
import StructuralSchema.Proofs.Json.Integers
import StructuralSchema.Proofs.Json.Lexemes
import StructuralSchema.Proofs.Json.RoundTrip
import StructuralSchema.Proofs.Canonical
import StructuralSchema.Proofs.Alternatives
import StructuralSchema.Proofs.Documents
import StructuralSchema.Proofs.Grammar
import StructuralSchema.Proofs.FieldNames
import StructuralSchema.Proofs.Saving
import StructuralSchema.Proofs.Fits
import StructuralSchema.Proofs.Violations
import StructuralSchema.Proofs.Grounds
import StructuralSchema.Proofs.Json.Reordering
import StructuralSchema.Proofs.KeyOrder
import StructuralSchema.Proofs.Reloading
import StructuralSchema.Proofs.Instances
import StructuralSchema.Proofs.Interchange
import StructuralSchema.Proofs.Command.Judging
import StructuralSchema.Proofs.Address
import StructuralSchema.Proofs.LooseTyping
import StructuralSchema.Proofs.Registered
import StructuralSchema.Proofs.Files
import StructuralSchema.Proofs.Command.Writing
import StructuralSchema.Proofs.Json.Continuation
import StructuralSchema.Proofs.Options
import StructuralSchema.Proofs.Construction
import StructuralSchema.Proofs.PathText
import StructuralSchema.Proofs.Registration
