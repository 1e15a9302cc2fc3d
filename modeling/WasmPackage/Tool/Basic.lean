import WasmPackage.Store.Basic

/-!
# The tools

Three external programs turn modules into text and back.  This module names them and what can go
wrong with them.
-/

namespace WasmPackage

/-- The external programs. -/
inductive Tool
  | optimizer
  | disassembler
  | assembler
deriving DecidableEq, Repr

namespace Tool

/-- All tools, in the order in which they are looked for. -/
def all : List Tool := [optimizer, disassembler, assembler]

/-- The name of the program. -/
def name : Tool → String
  | optimizer => "wasm-opt"
  | disassembler => "wasm-dis"
  | assembler => "wasm-as"

/-- The environment variable that may say where the program is. -/
def variableName : Tool → String
  | optimizer => "WASM_POLISH_WASM_OPT"
  | disassembler => "WASM_POLISH_WASM_DIS"
  | assembler => "WASM_POLISH_WASM_AS"

end Tool

/-- What can go wrong with a tool. -/
inductive ToolError
  | missing (tools : List Tool)
  | unavailable (detail : String)
  | notStarted (program : String) (error : StoreError)
  | failed (tool : Tool) (detail : String)
  | noOutput (error : StoreError)
  | undecodable
deriving DecidableEq, Repr

namespace ToolError

/-- The words for it. -/
def message : ToolError → String
  | missing tools =>
    ", ".intercalate (tools.map Tool.name) ++ " not found; install binaryen or set " ++
      ", ".intercalate (tools.map Tool.variableName)
  | unavailable detail => detail
  | notStarted program error => s!"Failed to run {program}: {error.message}"
  | failed .assembler detail => s!"Edited module text failed to assemble: {detail}"
  | failed tool detail => s!"{tool.name} failed: {detail}"
  | noOutput error => error.message
  | undecodable => "a tool wrote text that is not valid UTF-8"

/-- Is the failure one that a run reports in a line of its own? -/
def isReported : ToolError → Bool
  | noOutput _ => false
  | undecodable => false
  | _ => true

end ToolError

end WasmPackage
