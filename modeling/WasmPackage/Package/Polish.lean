import WasmPackage.Bindings.Agreement
import WasmPackage.Bindings.Declarations
import WasmPackage.Bindings.Variants
import WasmPackage.Package.Artifacts
import WasmPackage.Package.Outputs
import WasmPackage.Package.Transform
import WasmPackage.Project.GeneratorCheck

/-!
# Polishing a package

All inputs are read and all outputs computed before anything is written, so that a package which
cannot be polished is left as it was.
-/

namespace WasmPackage

/-- What a run did. -/
structure RunReport where
  generator : Option Generator
  module : Module.Report
  accessors : List String
  outMethods : List Bindings.OutMethod
  outputs : List (Path × Nat)
  written : Bool
deriving DecidableEq, Repr

/-- Checks the generator of a project, and warns of one that the settings let pass. -/
def checkGeneratorAction [Limits] (c : Config) : Action (Option Generator) := do
  let s ← get
  let (generator, objection) ← Action.ofExcept .project (checkGenerator s.store c)
  match objection with
  | some e =>
    Action.say .warning (e.message ++ "; continuing because the check is skipped")
  | none => pure ()
  return generator

/-- The artifacts that a run starts from. -/
structure Sources where
  binary : Bytes
  glue : Text
  declarations : Text
  internalDeclarations : Text
deriving DecidableEq, Repr

/-- Reads the artifacts that a run starts from. -/
def readSources (a : Artifacts) : Action Sources := do
  let binary ← readArtifact a.binary
  if !Module.isBinary binary then throw (.artifact a.binary .noModule)
  let glue ← readArtifactText a.glue
  let declarations ← readArtifactText a.declarations
  let internalDeclarations ← readArtifactText a.internalDeclarations
  return ⟨binary, glue, declarations, internalDeclarations⟩

/-- Revises the declarations and the glue around a transformed module. -/
def reviseBindings [Limits] (c : Config) (a : Artifacts) (header : Text) (sources : Sources)
    (binary : Bytes) :
    Except Bindings.RevisionError (Bindings.Revised × Bindings.Variants) := do
  let declarations ← Bindings.reviseDeclarations sources.declarations
  let variants ← Bindings.glueVariants sources.glue c.offsets binary header a.importPath
    c.internalName
  Bindings.checkAgreement declarations variants.body
  return (declarations, variants)

/-- The outputs of a run. -/
def outputsOf (a : Artifacts) (header : Text) (module : TransformedModule)
    (declarations : Bindings.Revised) (variants : Bindings.Variants) (internal : Text) :
    List Output :=
  [⟨a.binary, module.binary⟩,
    ⟨a.moduleText, module.text.encode⟩,
    ⟨a.declarations, (header ++ declarations.text).encode⟩,
    ⟨a.glue, variants.inlined.encode⟩,
    ⟨a.splitGlue, variants.split.encode⟩,
    ⟨a.internalDeclarations, (header ++ internal).encode⟩]

/-- Says what was cut out of a module. -/
def sayModule (r : Module.Report) : Action Unit := do
  if r.deadBranches = 0 then
    Action.say .note "no dead bounds-check branches found; module left as is"
  let stubs := r.stubs.length
  let exports := r.exports.length
  Action.say .note
    s!"module: removed {r.deadBranches} dead branches, {stubs} stubs, {exports} exports"

/-- The text of codes that are to be written; half of a surrogate pair cannot be. -/
def writableText (t : CodeText) : Action Text :=
  match t.text? with
  | some t => pure t
  | none => throw .unencodable

/-- Polishes the package of a project; a dry run does everything but write. -/
def polishPackage [Limits] (c : Config) (search : ToolSearch) (dryRun : Bool) :
    Action RunReport := do
  let generator ← checkGeneratorAction c
  let a : Artifacts := ⟨c.packageDirectory, String.ofList (← writableText c.outName)⟩
  let sources ← readSources a
  let tools ← search c.flags
  let module ← transformModule tools sources.binary
  sayModule module.report
  let (declarations, variants) ← Action.ofExcept .revision
    (reviseBindings c a (c.header.text?.getD []) sources module.binary)
  let accessors := variants.body.accessors
  let outMethods := variants.body.outMethods
  Action.say .note
    s!"bindings: {accessors.length} accessors, {outMethods.length} output-parameter methods"
  -- the edits do not depend on the header, so it matters only now whether it can be written
  let header ← writableText c.header
  let outputs := outputsOf a header module declarations variants sources.internalDeclarations
  let report : RunReport :=
    { generator
      module := module.report
      accessors
      outMethods
      outputs := outputs.map (fun o => (o.target, o.content.length))
      written := false }
  if dryRun then return report
  -- every output is computed by now; nothing but writing can fail from here on
  writeOutputs a.directory outputs
  outputs.forM (fun o => Action.say .note s!"wrote {o.target.text}")
  return { report with written := true }

end WasmPackage
