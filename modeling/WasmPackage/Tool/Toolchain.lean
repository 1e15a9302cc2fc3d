import WasmPackage.Package.Session

/-!
# Toolchains

A toolchain is what the passes need of the tools: to optimize a module, to write it as text, and to
read it back.
-/

namespace WasmPackage

/-- The three things that the tools do. -/
structure Toolchain where
  optimize : Bytes → Action Bytes
  disassemble : Bytes → Action Text
  assemble : Text → Action Bytes

/-- A way to find a toolchain, given the flags for the optimizer. -/
abbrev ToolSearch := List String → Action Toolchain

/-- A toolchain whose steps depend on nothing but their input and change nothing. -/
def Toolchain.ofFunctions (optimize : Bytes → Except ToolError Bytes)
    (disassemble : Bytes → Except ToolError Text) (assemble : Text → Except ToolError Bytes) :
    Toolchain where
  optimize binary := Action.ofExcept .tool (optimize binary)
  disassemble binary := Action.ofExcept .tool (disassemble binary)
  assemble text := Action.ofExcept .tool (assemble text)

end WasmPackage
