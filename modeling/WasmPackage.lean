import WasmPackage.Main
import WasmPackage.Proofs.Module.Accessors
import WasmPackage.Proofs.Module.Cuts
import WasmPackage.Proofs.Module.Frame
import WasmPackage.Proofs.Module.Offsets
import WasmPackage.Proofs.Module.References
import WasmPackage.Proofs.Module.SecondRun
import WasmPackage.Proofs.Package.Agreement
import WasmPackage.Proofs.Package.Atomicity
import WasmPackage.Proofs.Package.Banner
import WasmPackage.Proofs.SExpr.Lexemes
import WasmPackage.Proofs.SExpr.Pieces
import WasmPackage.Proofs.SExpr.Tokens
import WasmPackage.Proofs.SExpr.Gaps
import WasmPackage.Proofs.SExpr.Spans
import WasmPackage.Proofs.SExpr.Printing
import WasmPackage.Proofs.Text.Revision
import WasmPackage.Proofs.Text.Composition
import WasmPackage.Proofs.Tool.Installed
import WasmPackage.Proofs.Script.Literals
import WasmPackage.Proofs.Script.Lexemes
import WasmPackage.Proofs.Script.Substitution
import WasmPackage.Proofs.Script.Comments
import WasmPackage.Proofs.Script.Constructs
import WasmPackage.Proofs.Script.Enclosures
import WasmPackage.Proofs.Script.Losslessness
import WasmPackage.Proofs.Script.Layout
import WasmPackage.Proofs.Script.Brackets
import WasmPackage.Proofs.Script.Formatting
import WasmPackage.Proofs.Script.Walks
import WasmPackage.Proofs.Script.Nesting
import WasmPackage.Proofs.Script.Tiling
import WasmPackage.Proofs.Script.Reading
import WasmPackage.Proofs.Script.Faces
import WasmPackage.Proofs.Bindings.Recording
import WasmPackage.Proofs.Script.DocTags
import WasmPackage.Proofs.Script.Parts
import WasmPackage.Proofs.Bindings.EditPlaces
import WasmPackage.Proofs.Script.KnownCode
import WasmPackage.Proofs.Bindings.Generated
import WasmPackage.Proofs.Bindings.GeneratedOutline
import WasmPackage.Proofs.Bindings.Completeness
import WasmPackage.Proofs.Text.Rearrangement
import WasmPackage.Proofs.Package.DryRun
import WasmPackage.Proofs.SExpr.Escapes
import WasmPackage.Proofs.Module.Outcomes
import WasmPackage.Proofs.Script.Failures
import WasmPackage.Proofs.Script.Checked
import WasmPackage.Proofs.Script.Lookups
import WasmPackage.Proofs.Bindings.Removals
import WasmPackage.Proofs.Bindings.Outcomes
import WasmPackage.Proofs.Bindings.LastStatement
import WasmPackage.Proofs.Tool.Outcomes
import WasmPackage.Proofs.Project.Configuration
import WasmPackage.Proofs.Project.Versions
import WasmPackage.Proofs.Project.GeneratorGate
import WasmPackage.Proofs.Script.Stretches
import WasmPackage.Proofs.Text.Spans
import WasmPackage.Proofs.Script.Cuts
import WasmPackage.Proofs.Script.Renaming
import WasmPackage.Proofs.Script.Bound
import WasmPackage.Proofs.Bindings.Recorded
import WasmPackage.Proofs.Bindings.Declarations
import WasmPackage.Proofs.Bindings.Bodies
import WasmPackage.Proofs.Bindings.BodyCode
import WasmPackage.Proofs.Bindings.Returns
import WasmPackage.Proofs.Bindings.Loader
import WasmPackage.Proofs.Bindings.InternalName
import WasmPackage.Proofs.Bindings.Recovery
import WasmPackage.Proofs.Script.Signatures
import WasmPackage.Proofs.Bindings.GlueFrame
import WasmPackage.Proofs.Text.WholeLines
import WasmPackage.Proofs.Project.ExactVersions
import WasmPackage.Proofs.Project.VersionSources
import WasmPackage.Proofs.Bindings.Extensions
import WasmPackage.Proofs.Package.Delivery
import WasmPackage.Proofs.Script.Retyping
import WasmPackage.Proofs.Script.Matching
import WasmPackage.Proofs.SExpr.Spellings
import WasmPackage.Proofs.Text.Positions
import WasmPackage.Proofs.SExpr.Faults
import WasmPackage.Proofs.Script.FaultPlaces
import WasmPackage.Proofs.CommandLine.Answers
