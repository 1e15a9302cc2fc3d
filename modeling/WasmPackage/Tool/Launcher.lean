import WasmPackage.Package.Session
import WasmPackage.Shell.Program
import WasmPackage.Tool.Basic

/-!
# Calls of tools

A tool is called with files in a temporary directory that is gone afterwards.  How its program is
started, and what that does, is a parameter here.
-/

namespace WasmPackage

/-- A way to start programs: what comes of a program that is called with arguments in a session, and
the store that it leaves; or why it cannot be started. -/
abbrev Launcher := Session → String → List String → Except StoreError (Shell.Result × Store)

namespace Launcher

/-- The text that a program printed, with its lines ended by newlines. -/
def printed (bytes : Bytes) : Except ToolError Text :=
  match Text.decode? bytes with
  | some t => .ok t.withNewlines
  | none => .error .undecodable

/-- The detail of a failed call: what the program complained of, or else printed, or else its
status. -/
def reasonOf (status : Int) (output errors : Text) : String :=
  if !errors.trim.isEmpty then String.ofList errors.trim
  else if !output.trim.isEmpty then String.ofList output.trim
  else s!"exit status {status}"

/-- Calls the program of a tool.  It fails if the program cannot be started or has another status
than zero. -/
def call (launch : Launcher) (tool : Tool) (program : String) (arguments : List String) :
    Action Unit := do
  let s ← get
  -- no argument of a program can hold the character zero
  if (program :: arguments).any (·.toList.contains '\x00') then throw (.store .zeroInName)
  let (result, store) ← Action.ofStore (fun e => .tool (.notStarted program e))
    (launch s program arguments)
  -- what the program did to the files stays, even if it failed
  set { s with store }
  let output ← Action.ofExcept .tool (printed result.output)
  let errors ← Action.ofExcept .tool (printed result.errors)
  if result.status ≠ 0 then
    throw (.tool (.failed tool (reasonOf result.status output errors)))

/-- Calls a tool on a file that holds the input, and gives the bytes of the file that it wrote.
`arguments` makes the arguments from the names of both files. -/
def convert (launch : Launcher) (tool : Tool) (program source target : String) (input : Bytes)
    (arguments : String → String → List String) : Action Bytes :=
  Action.withDirectory .store (Path.ofString "/tmp") "wasm-polish-" fun directory => do
    let sourcePath := directory.child source
    let targetPath := directory.child target
    let s ← get
    Action.changeStore .store (fun store => store.write s.directory sourcePath input)
    launch.call tool program (arguments sourcePath.text targetPath.text)
    let s ← get
    Action.ofExcept (.tool ∘ .noOutput) (s.store.read s.directory targetPath)

/-- Optimizes a module. -/
def optimize (launch : Launcher) (program : String) (flags : List String) (binary : Bytes) :
    Action Bytes :=
  launch.convert .optimizer program "input.wasm" "optimized.wasm" binary
    (fun source target => source :: flags ++ ["-o", target])

/-- Writes a module as text, with its lines ended by newlines. -/
def disassemble (launch : Launcher) (program : String) (binary : Bytes) : Action Text := do
  let bytes ← launch.convert .disassembler program "module.wasm" "module.wast" binary
    (fun source target => [source, "-o", target])
  Action.ofExcept .tool (printed bytes)

/-- Reads the text of a module. -/
def assemble (launch : Launcher) (program : String) (text : Text) : Action Bytes :=
  launch.convert .assembler program "module.wast" "module.wasm" text.encode
    (fun source target => [source, "-o", target])

end Launcher

end WasmPackage
