import WasmPackage.Shell.Evaluation
import WasmPackage.Tool.Launcher
import WasmPackage.Tool.Toolchain

/-!
# Installed tools

The tools as programs in the store.  They are found through environment variables or along the
search path, and started from the files that are there.
-/

namespace WasmPackage

/-- The programs of the tools, and the flags for the optimizer. -/
structure InstalledTools where
  optimizer : String
  disassembler : String
  assembler : String
  flags : List String
deriving DecidableEq, Repr

namespace InstalledTools

/-! ## Finding -/

/-- The directories that are searched when the environment names none. -/
def standardSearchPath : String := "/bin:/usr/bin"

/-- The executable file that a command names: itself if it has a slash, else the first along the
search path. -/
def commandFile? (s : Session) (command : String) : Option String :=
  -- the search path is for plain names only
  if command.toList.contains '/' then
    if Shell.isExecutable s.store s.directory (Path.exact command) then some command else none
  else
    let searchPath := (s.environmentValue? "PATH").getD standardSearchPath
    if searchPath = "" then none else Shell.searchFor s.store s.directory searchPath command

/-- The program of a tool.  A variable that names an existing path is taken at its word. -/
def find? (s : Session) (tool : Tool) : Except StoreError (Option String) := do
  let override := String.ofList (Text.trim ((s.environmentValue? tool.variableName).getD "").toList)
  if override = "" then return commandFile? s tool.name
  else if ← s.store.contains s.directory (Path.ofString override) then return some override
  else return commandFile? s override

/-- The programs of all tools; if some are missing, all of those are named. -/
def discover (flags : List String) : Action InstalledTools := do
  let s ← get
  let found ← Action.ofExcept .store (Tool.all.mapM (fun t => do return (t, ← find? s t)))
  match found.map (·.2) with
  | [some optimizer, some disassembler, some assembler] =>
    return ⟨optimizer, disassembler, assembler, flags⟩
  | _ =>
    throw (.tool (.missing ((found.filter (fun x => x.2.isNone)).map (·.1))))

/-! ## Starting -/

/-- The files that a program may be started from: itself if it has a slash, else one in each
directory along the search path, whether or not it is there. -/
def startFiles (s : Session) (program : String) : List String :=
  if program.toList.contains '/' then [program]
  else
    let searchPath := (s.environmentValue? "PATH").getD standardSearchPath
    (Shell.searchDirectories searchPath).map (Shell.nameIn · program)

/-- Runs the first of some files that can be started.  If there is none, the failure is that of a
file that is there, or else the given one. -/
def runFirst (s : Session) (program : String) (arguments : List String) (failure : StoreError) :
    List String → Except StoreError (Shell.Result × Store)
  | [] => .error failure
  | file :: r =>
    match Shell.runTool s.store s.directory s.environment program file arguments with
    | .ok done => .ok done
    | .error e =>
      let isThere := e ≠ .notFound && e ≠ .notDirectory
      runFirst s program arguments (if isThere then e else failure) r

/-- Starts a program from the files in the store. -/
def launcher : Launcher := fun s program arguments =>
  runFirst s program arguments .notFound (startFiles s program)

/-- Optimizes a module. -/
def optimize (t : InstalledTools) (binary : Bytes) : Action Bytes :=
  launcher.optimize t.optimizer t.flags binary

/-- Writes a module as text, with its lines ended by newlines. -/
def disassemble (t : InstalledTools) (binary : Bytes) : Action Text :=
  launcher.disassemble t.disassembler binary

/-- Reads the text of a module. -/
def assemble (t : InstalledTools) (text : Text) : Action Bytes :=
  launcher.assemble t.assembler text

/-- The installed tools as a toolchain. -/
def toolchain (t : InstalledTools) : Toolchain := ⟨t.optimize, t.disassemble, t.assemble⟩

/-- Finds the installed tools. -/
def search : ToolSearch := fun flags => do
  let t ← discover flags
  Action.record (.found flags)
  return t.toolchain

end InstalledTools

end WasmPackage
