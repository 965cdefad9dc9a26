import ClassSchema.Main
import ClassSchema.Proofs.Batch.Basic
import ClassSchema.Proofs.Batch.Order
import ClassSchema.Proofs.Batch.Failure
import ClassSchema.Proofs.Resolve.Agree
import ClassSchema.Proofs.Resolve.Alike
import ClassSchema.Proofs.Resolve.Languages
import ClassSchema.Proofs.Resolve.Noted
import ClassSchema.Proofs.Text.Cut
import ClassSchema.Proofs.TypeExpr.Brackets
import ClassSchema.Proofs.TypeExpr.Form
import ClassSchema.Proofs.TypeExpr.RoundTrip
import ClassSchema.Proofs.FileTree.Writes
import ClassSchema.Proofs.Generate.Write
import ClassSchema.Proofs.Generate.Plan
import ClassSchema.Proofs.Generate.Effect
import ClassSchema.Proofs.Path
import ClassSchema.Proofs.FileTree.Documents
import ClassSchema.Proofs.Artifact.Head
import ClassSchema.Proofs.Generate.Again
import ClassSchema.Proofs.Literal.RawString
import ClassSchema.Proofs.Resolve.Steps
import ClassSchema.Proofs.Resolve.Coherent
import ClassSchema.Proofs.Artifact.Getters
import ClassSchema.Proofs.ClassName
import ClassSchema.Proofs.Artifact.Imports
import ClassSchema.Proofs.Generate.Distinct
import ClassSchema.Proofs.Batch.Ancestry
import ClassSchema.Proofs.Namespace
import ClassSchema.Proofs.Resolve.Members
import ClassSchema.Proofs.Batch.Permutation
import ClassSchema.Proofs.Artifact.Lines
import ClassSchema.Proofs.Artifact.Registration
import ClassSchema.Proofs.Generate.Contained
import ClassSchema.Proofs.Resolve.Blame
import ClassSchema.Proofs.TypeExpr.Nodes
import ClassSchema.Proofs.Resolve.Written
import ClassSchema.Proofs.Resolve.References
import ClassSchema.Proofs.Resolve.Candidates
import ClassSchema.Proofs.Artifact.Forward
import ClassSchema.Proofs.Artifact.Overloads
import ClassSchema.Proofs.TypeExpr.Accepted
import ClassSchema.Proofs.TypeExpr.Kept
import ClassSchema.Proofs.TypeExpr.Reference
import ClassSchema.Proofs.Text.Substitute
import ClassSchema.Proofs.TypeExpr.Rendered
import ClassSchema.Proofs.TypeExpr.Pieces
import ClassSchema.Proofs.Text.Join
import ClassSchema.Proofs.Number
import ClassSchema.Proofs.Literal.Supported
import ClassSchema.Proofs.Literal.Unambiguous
import ClassSchema.Proofs.Resolve.Walk
import ClassSchema.Proofs.Resolve.Levels
