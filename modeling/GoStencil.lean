import GoStencil.Main
import GoStencil.CommandLine
import GoStencil.FileTree
import GoStencil.Command
import GoStencil.OutputPlan
import GoStencil.Toml.Document
import GoStencil.Specialization
import GoStencil.Matching
import GoStencil.Naming
import GoStencil.Instantiation
import GoStencil.Text.Search
import GoStencil.Complexity
import GoStencil.Substitution
import GoStencil.Diagnosis
import GoStencil.Grammar.Attempts
import GoStencil.SourceFile.Summary
import GoStencil.SourceFile.Parser
import GoStencil.Grammar.Declarations
import GoStencil.Grammar.Pattern
import GoStencil.TypeExpr.Equivalence
import GoStencil.SourceFile
import GoStencil.TypeExpr.Printer
import GoStencil.Text.Identifier
import GoStencil.Text.Blank
import GoStencil.Text.Case
import GoStencil.Text.Lines
import GoStencil.Proofs.Specialization.Acceptance
import GoStencil.Proofs.Specialization.Implementation
import GoStencil.Proofs.Specialization.Leaks
import GoStencil.Proofs.Specialization.Rejection
import GoStencil.Proofs.TypeExpr.RoundTrip
import GoStencil.Proofs.Naming
import GoStencil.Proofs.SourceFile.Declarations
import GoStencil.Proofs.SourceFile.RoundTrip
import GoStencil.Proofs.Specialization.WellFormed
import GoStencil.Proofs.Matching.Confluence
import GoStencil.Proofs.Matching.Equivalents
import GoStencil.Proofs.Matching.Instances
import GoStencil.Proofs.SourceFile.Reparse
import GoStencil.Proofs.SourceFile.Streams
import GoStencil.Proofs.Stream.Pieces
import GoStencil.Proofs.Stream.Cuts
import GoStencil.Proofs.TypeExpr.Pieces
import GoStencil.Proofs.TypeExpr.Transcription
import GoStencil.Proofs.Stream.Layout
import GoStencil.Proofs.Matching.Footprint
import GoStencil.Proofs.Specialization.Search
import GoStencil.Proofs.Extension
import GoStencil.Proofs.Markers
import GoStencil.Proofs.Specialization.Imports
import GoStencil.Proofs.Specialization.TypeNames
import GoStencil.Proofs.Specialization.Unrelated
import GoStencil.Proofs.Specialization.Outcomes
import GoStencil.Proofs.Shape
import GoStencil.Proofs.WritePaths
import GoStencil.Proofs.Composition
import GoStencil.Proofs.Interchange
import GoStencil.Proofs.TypeExpr.Instances
import GoStencil.Proofs.Matching.Fields
import GoStencil.Proofs.Matching.LookThrough
import GoStencil.Proofs.Matching.Ground
import GoStencil.Proofs.Complexity
import GoStencil.Proofs.Specialization.Reorder
import GoStencil.Proofs.Diagnosis
import GoStencil.Proofs.Grammar.Trees
import GoStencil.Proofs.Proposals
import GoStencil.Proofs.SourceFile.ParsedTypes
import GoStencil.Proofs.TypeExpr.Total
import GoStencil.Proofs.SourceFile.Outcome
import GoStencil.Proofs.Resolution
import GoStencil.Proofs.Matching.Termination
