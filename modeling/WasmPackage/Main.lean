import WasmPackage.CommandLine.Execution
import WasmPackage.Tool.Installed

/-!
# The program

A run works on a store.  This module fills one with the files that a run may look at, carries out
the command that the arguments ask for, and writes back the files that are different afterwards.
Here, and nowhere else in the program, the usual limits of depth are meant.
-/

open WasmPackage

namespace WasmPackage.Program

/-! ## From disk -/

/-- The store with the directories on the way to a location. -/
def withDirectories (s : Store) (l : Location) : Store :=
  (List.range l.length).foldl (fun s n => s.put (l.take (n + 1)) .directory) s

/-- The store with what stands on disk at a path from the root.  A file that begins as a script does
counts as executable; any other program is a compiled one.  `contents` says that the path is not one
of a program. -/
def load (contents : Bool) (s : Store) (p : Path) : IO Store := do
  let here ← IO.currentDir
  let file := here / p.text
  if ← file.isDir then return withDirectories s p.parts.toList
  else if ← file.pathExists then
    let bytes := (← IO.FS.readBinFile file).toList
    let isScript := bytes.take 2 = [35, 33]
    let content := if contents || isScript then bytes else Shell.compiledContent p.name
    return (withDirectories s p.parts.dropLast.toList).put p.parts.toList
      (.file content (isScript || !contents))
  else
    match file.parent with
    | some parent =>
      if ← parent.isDir then return withDirectories s p.parts.dropLast.toList else return s
    | none => return s

/-- The store with more paths from disk. -/
def loadAll (contents : Bool) (s : Store) (ps : List Path) : IO Store :=
  ps.foldlM (load contents) s

/-- The variables of the environment that matter to a run. -/
def variableNames : List String :=
  ["PATH", "WASM_POLISH_QUIET"] ++ Tool.all.map Tool.variableName

/-- Those of the variables that are set, with their values. -/
def environment : IO (List (String × String)) :=
  variableNames.filterMapM fun name => do return (← IO.getEnv name).map (name, ·)

/-- The files of a project that say how to polish its package. -/
def projectFiles (root : Path) : List Path :=
  ["Cargo.toml", "Cargo.lock", "package.json"].map root.child

/-- The files of a package. -/
def packageFiles (c : Config) : List Path :=
  let a : Artifacts := ⟨c.packageDirectory, String.ofList (c.outName.text?.getD [])⟩
  [a.directory, a.binary, a.moduleText, a.declarations, a.internalDeclarations, a.glue, a.splitGlue]

/-- The programs that tools may be, or may call. -/
def programFiles (directory : Path) (environment : List (String × String)) : List Path :=
  let searchPath := (environment.lookup "PATH").getD InstalledTools.standardSearchPath
  let named := Tool.all.filterMap (fun t => environment.lookup t.variableName)
  let names := Tool.all.map Tool.name ++ Shell.interpreters ++ ["env"] ++ Shell.utilities ++ named
  (Shell.searchDirectories searchPath).flatMap (fun d =>
      names.map (fun n => directory.resolve (Path.ofString (Shell.nameIn d n)))) ++
    ["/bin/sh", "/bin/dash", "/bin/bash", "/usr/bin/env"].map Path.ofString ++
    named.map (fun n => directory.resolve (Path.ofString n))

/-! ## To disk -/

/-- Writes the files that a run changed, each beside its place first.  A file that the run could not
see stays as it is. -/
def save (before after : Store) : IO Unit :=
  after.entries.forM fun (l, entry) => do
    match entry with
    | .directory => return
    | .file content _ =>
      if before.entry? l = some entry then return
      let target := (⟨1, l⟩ : Path).text
      if (before.entry? l).isNone && (← ((← IO.currentDir) / target).pathExists) then
        throw (IO.userError s!"{target}: there already, but unknown to the run")
      let staged := target ++ ".new"
      IO.FS.writeBinFile staged ⟨content.toArray⟩
      IO.FS.rename staged target

/-! ## Commands -/

/-- The project of a command, and where it says that the package is. -/
def projectOf : CommandLine.Command → String × Overrides
  | .run project packageDirectory outName _ _ => (project, ⟨packageDirectory, outName, none⟩)
  | .offsets project => (project, ⟨none, none, none⟩)

/-- The session that a command starts with. -/
def sessionFor (c : CommandLine.Command) : IO Session := do
  let directory := Path.ofString (← IO.currentDir).toString
  let environment ← environment
  let (project, overrides) := projectOf c
  let root := directory.resolve (Path.ofString project)
  let store ← loadAll true ⟨[]⟩ (directory :: Path.ofString "/tmp" :: root :: projectFiles root)
  let store ← match configFor store directory project overrides with
    | .ok config => loadAll true store (packageFiles config)
    | .error _ => pure store
  let store ← loadAll false store (programFiles directory environment)
  return { store, directory := directory.parts.toList, environment, said := [], steps := [] }

/-- How the program is used. -/
def usageLine : String := "usage: wasm-polish [-h] \x7brun,offsets\x7d ..."

end WasmPackage.Program

open WasmPackage.Program in
/-- Carries out the command that the arguments ask for. -/
def main (arguments : List String) : IO UInt32 := do
  match CommandLine.parseArguments arguments with
  | .error usage =>
    if usage = .help then IO.println usageLine else IO.eprintln usageLine
    return usage.status.toUInt32
  | .ok c =>
    let start ← sessionFor c
    let (result, done) := (CommandLine.execute InstalledTools.search c).run.run start
    done.said.forM IO.eprintln
    save start.store done.store
    match result with
    | .ok answer =>
      answer.output.forM IO.println
      return answer.status.toUInt32
    | .error failure =>
      IO.eprintln failure.message
      return 1
