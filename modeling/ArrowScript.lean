import ArrowScript.Editor
import ArrowScript.Main
import ArrowScript.Tree.Comparison
import ArrowScript.Proofs.Ty.Acyclicity
import ArrowScript.Proofs.Ty.Links
import ArrowScript.Proofs.Ty.Compression
import ArrowScript.Proofs.Ty.Occurrence
import ArrowScript.Proofs.Ty.Expansion
import ArrowScript.Proofs.Ty.Renaming
import ArrowScript.Proofs.Ty.Solutions
import ArrowScript.Proofs.Ty.Unification
import ArrowScript.Proofs.Ty.Descent
import ArrowScript.Proofs.Ty.Frame
import ArrowScript.Proofs.Inference.Walks
import ArrowScript.Proofs.Inference.Ascriptions
import ArrowScript.Proofs.Inference.Rules
import ArrowScript.Proofs.Inference.Sums
import ArrowScript.Proofs.Inference.Trees
import ArrowScript.Proofs.Inference.Reachability
import ArrowScript.Proofs.Ty.Refinement
import ArrowScript.Proofs.Inference.Refinement
import ArrowScript.Proofs.Inference.Generality
import ArrowScript.Proofs.Inference.Separation
import ArrowScript.Proofs.Scope.Propriety
import ArrowScript.Proofs.Inference.Soundness
import ArrowScript.Proofs.Inference.Completeness
import ArrowScript.Proofs.Inference.Finality
import ArrowScript.Proofs.Scope.Events
import ArrowScript.Proofs.Scope.Agreement
import ArrowScript.Proofs.Parser.Grammar
import ArrowScript.Proofs.Parser.Reading
import ArrowScript.Proofs.Parser.Soundness
import ArrowScript.Proofs.Parser.Consumption
import ArrowScript.Proofs.Parser.Annotations
import ArrowScript.Proofs.Parser.Lookahead
import ArrowScript.Proofs.Parser.Completeness
import ArrowScript.Proofs.Parser.Recognition
import ArrowScript.Proofs.Parser.Braces
import ArrowScript.Proofs.Parser.Locality
import ArrowScript.Proofs.Parser.Recovery
import ArrowScript.Proofs.Parser.Blocks
import ArrowScript.Proofs.Parser.Diagnostics
import ArrowScript.Proofs.Parser.Composition
import ArrowScript.Proofs.Token.Patterns
import ArrowScript.Proofs.Token.Measures
import ArrowScript.Proofs.Token.Pieces
import ArrowScript.Proofs.Token.Layout
import ArrowScript.Proofs.Token.Exactness
import ArrowScript.Proofs.Relocation.Trees
import ArrowScript.Proofs.Relocation.Parsing
import ArrowScript.Proofs.Relocation.Analyses
import ArrowScript.Proofs.Relocation.Inference
import ArrowScript.Proofs.Compilation.Stages
import ArrowScript.Proofs.Relocation.Formatting
import ArrowScript.Proofs.Scope.Lexical
import ArrowScript.Proofs.Scope.Sites
import ArrowScript.Proofs.Scope.Linking
import ArrowScript.Proofs.Scope.References
import ArrowScript.Proofs.Problems.Codes
import ArrowScript.Proofs.Problems.Parsing
import ArrowScript.Proofs.Problems.Naming
import ArrowScript.Proofs.Problems.Typing
import ArrowScript.Proofs.Compilation.Rules
import ArrowScript.Proofs.Compilation.Totality
import ArrowScript.Proofs.Compilation.Stopping
import ArrowScript.Proofs.Tree.Order
import ArrowScript.Proofs.Parser.Positions
import ArrowScript.Proofs.Editor.Marks
import ArrowScript.Proofs.Ty.Mirrors
import ArrowScript.Proofs.Ty.Mirroring
import ArrowScript.Proofs.Inference.Mirroring
import ArrowScript.Proofs.Inference.MirroredTrees
import ArrowScript.Proofs.Inference.Commutation
import ArrowScript.Proofs.Tree.Revisions
import ArrowScript.Proofs.Inference.Coverage
import ArrowScript.Proofs.Inference.Visits
import ArrowScript.Proofs.Inference.Repetition
import ArrowScript.Proofs.Parser.Spending
import ArrowScript.Proofs.Parser.Progress
import ArrowScript.Proofs.Parser.Rejection
import ArrowScript.Proofs.Parser.Omission
import ArrowScript.Proofs.Ty.Instances
import ArrowScript.Proofs.Inference.Instances
import ArrowScript.Proofs.Inference.Moments
import ArrowScript.Proofs.Inference.Monomorphism
import ArrowScript.Proofs.Token.Writing
import ArrowScript.Proofs.Ty.Printing
import ArrowScript.Proofs.Ty.Naming
import ArrowScript.Proofs.Inference.Printing
import ArrowScript.Proofs.Inference.Operands
import ArrowScript.Proofs.Inference.Calls
import ArrowScript.Proofs.Tree.Constants
import ArrowScript.Proofs.Token.Words
import ArrowScript.Proofs.Editor.Hovering
import ArrowScript.Proofs.Parser.Adjacency
import ArrowScript.Proofs.Scope.Placement
import ArrowScript.Proofs.Editor.Uses
import ArrowScript.Proofs.Inference.Places
import ArrowScript.Proofs.Inference.Rebinding
import ArrowScript.Proofs.Binary64.Rounding
import ArrowScript.Proofs.Binary64.Shortest
import ArrowScript.Proofs.Binary64.Writing
import ArrowScript.Proofs.Json.Escapes
import ArrowScript.Proofs.Json.Numerals
import ArrowScript.Proofs.Json.Layout
import ArrowScript.Proofs.Artifact.Recording
import ArrowScript.Proofs.Problems.Returns
import ArrowScript.Proofs.Ty.Invariance
import ArrowScript.Proofs.Tree.Places
import ArrowScript.Proofs.Tree.Views
import ArrowScript.Proofs.Tree.Differences
import ArrowScript.Proofs.Inference.Layers
import ArrowScript.Proofs.Inference.Drafts
import ArrowScript.Proofs.Inference.Scoping
