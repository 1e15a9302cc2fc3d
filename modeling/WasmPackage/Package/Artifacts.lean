import WasmPackage.Package.Session

/-!
# Artifacts

The files of a package, as the generator writes them and as they are shipped.
-/

namespace WasmPackage

/-- The artifacts of one name in a package's directory. -/
structure Artifacts where
  directory : Path
  name : String
deriving DecidableEq, Repr

namespace Artifacts

/-- The binary module. -/
def binary (a : Artifacts) : Path := a.directory.child (a.name ++ "_bg.wasm")

/-- The text of the module. -/
def moduleText (a : Artifacts) : Path := a.directory.child (a.name ++ "_bg.wast")

/-- The declarations that users see. -/
def declarations (a : Artifacts) : Path := a.directory.child (a.name ++ ".d.ts")

/-- The declarations of the module's own functions. -/
def internalDeclarations (a : Artifacts) : Path := a.directory.child (a.name ++ "_bg.d.ts")

/-- The glue, in the end its inlined variant. -/
def glue (a : Artifacts) : Path := a.directory.child (a.name ++ ".js")

/-- The split variant of the glue. -/
def splitGlue (a : Artifacts) : Path := a.directory.child (a.name ++ ".split.js")

/-- The name that the split variant imports the module by. -/
def importPath (a : Artifacts) : String := s!"./{a.name}_bg"

end Artifacts

/-- The bytes of an artifact. -/
def readArtifact (p : Path) : Action Bytes := do
  let s ← get
  let failure := fun (e : StoreError) =>
    if e = .notFound then Failure.artifact p .absent else .artifact p (.unreadable e)
  Action.ofStore failure (s.store.read s.directory p)

/-- The text of an artifact. -/
def readArtifactText (p : Path) : Action Text := do
  match Text.decode? (← readArtifact p) with
  | some t => return t
  | none => throw (.artifact p .undecodable)

end WasmPackage
