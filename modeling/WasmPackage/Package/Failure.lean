import WasmPackage.Bindings.RevisionError
import WasmPackage.Module.Strip
import WasmPackage.Project.ProjectError
import WasmPackage.Tool.Basic

/-!
# Failures of a run

Everything that can end a run, each with its cause.  Most failures are reported to the user in a
line of their own; those that are not come from values, programs or files that nobody meant to be
so.
-/

namespace WasmPackage

/-- What is wrong with an artifact that is read or written. -/
inductive ArtifactError
  | absent
  | unreadable (error : StoreError)
  | undecodable
  | noModule
  | notStaged (error : StoreError)
  | notWritten (error : StoreError)
  | notReplaced (error : StoreError)
deriving DecidableEq, Repr

/-- The words for it. -/
def ArtifactError.message : ArtifactError → String
  | absent => "source artifact not found"
  | unreadable error => error.message
  | undecodable => "not valid UTF-8 text"
  | noModule => "not a wasm module"
  | notStaged error => s!"cannot stage outputs: {error.message}"
  | notWritten error => s!"cannot write: {error.message}"
  | notReplaced error => s!"cannot replace: {error.message}"

/-- Why a run ended. -/
inductive Failure
  | project (error : ProjectError)
  | artifact (path : Path) (error : ArtifactError)
  | strip (error : Module.StripError)
  | headerMissing
  | revision (error : Bindings.RevisionError)
  | tool (error : ToolError)
  | store (error : StoreError)
  | unencodable
deriving Repr

namespace Failure

/-- The words for a failure. -/
def message : Failure → String
  | project error => error.message
  | artifact path error => s!"{path.text}: {error.message}"
  | strip error => error.message
  | headerMissing => "Assembled module is missing the wasm header"
  | revision error => error.message
  | tool error => error.message
  | store error => error.message
  | unencodable => "a text holds half of a surrogate pair by itself"

/-- Is the failure reported to the user in a line of its own? -/
def isReported : Failure → Bool
  | project error => error.isReported
  | artifact _ _ => true
  | strip (.conflict _) => false
  | strip _ => true
  | headerMissing => true
  | revision (.missing _ _ _) => true
  | revision _ => false
  | tool error => error.isReported
  | store _ => false
  | unencodable => false

end Failure

end WasmPackage
