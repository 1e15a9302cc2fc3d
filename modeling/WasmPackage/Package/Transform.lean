import WasmPackage.Module.Binary
import WasmPackage.Tool.Toolchain

/-!
# Transforming a module

The module is optimized, written as text, pruned, and read back.
-/

namespace WasmPackage

/-- A transformed module: its bytes, the text they were read from, and what was cut out of it. -/
structure TransformedModule where
  binary : Bytes
  text : Text
  report : Module.Report
deriving DecidableEq, Repr

/-- Transforms a module. -/
def transformModule (tools : Toolchain) (binary : Bytes) : Action TransformedModule := do
  Action.record (.optimize binary)
  let optimized ← tools.optimize binary
  Action.record (.disassemble optimized)
  let text ← tools.disassemble optimized
  let (edited, report) ← Action.ofExcept .strip (Module.strip text)
  Action.record (.assemble edited)
  let final ← tools.assemble edited
  if !Module.isBinary final then throw .headerMissing
  return ⟨final, edited, report⟩

end WasmPackage
