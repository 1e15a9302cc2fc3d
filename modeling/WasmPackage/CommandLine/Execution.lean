import WasmPackage.CommandLine.Arguments
import WasmPackage.Package.Polish

/-!
# Carrying out commands

A command answers with an exit status and lines for the user.  A failure that is meant for the user
becomes a line of its own; any other ends the command.
-/

namespace WasmPackage.CommandLine

/-- The answer of a command: its exit status and what it prints. -/
structure Answer where
  status : Nat
  output : List String
deriving DecidableEq, Repr

/-- Names with commas between them, or a dash if there are none. -/
def listedOrDash (names : List String) : String :=
  if names.isEmpty then "-" else ", ".intercalate names

/-- The lines that tell what a run did. -/
def reportLines (r : RunReport) : List String :=
  let generator := r.generator.map fun g =>
    s!"generator: {generatorName} {g.version.text} ({g.source.name})"
  let verb := if r.written then "wrote" else "would write"
  generator.toList ++
    [s!"dead branches removed: {r.module.deadBranches}",
      s!"stubs removed: {listedOrDash r.module.stubs}",
      s!"exports removed: {listedOrDash r.module.exports}",
      "accessors: " ++ ", ".intercalate r.accessors] ++
    r.outMethods.map (fun m => s!"out-parameter: {m.qualified} -> {m.type}") ++
    r.outputs.map (fun o => s!"{verb} {o.1.text} ({o.2} bytes)")

/-- The lines that list an offset table. -/
def offsetLines (t : OffsetTable) : List String :=
  t.entries.map (fun e => s!"{e.1}\t{e.2}")

/-- The configuration of the project that a command names. -/
def configure [Limits] (project : String) (overrides : Overrides) : Action Config := do
  let s ← get
  Action.ofExcept .project (configFor s.store ⟨1, s.directory⟩ project overrides)

/-- The lines of a command. -/
def linesOf [Limits] (search : ToolSearch) : Command → Action (List String)
  | .run project packageDirectory outName dryRun skips => do
    let c ← configure project
      ⟨packageDirectory, outName, if skips then some true else none⟩
    return reportLines (← polishPackage c search dryRun)
  | .offsets project => do
    let c ← configure project ⟨none, none, none⟩
    if !c.offsets.isWritable then throw (.project (.numeral .tooLongToWrite))
    return offsetLines c.offsets

/-- Carries out a command. -/
def execute [Limits] (search : ToolSearch) (c : Command) : Action Answer :=
  tryCatch (do return ⟨0, ← linesOf search c⟩) fun failure =>
    if failure.isReported then do
      Action.say .error failure.message
      return ⟨1, []⟩
    else throw failure

end WasmPackage.CommandLine
