import WasmPackage.Text.Utf8

/-!
# Module binaries

A binary module begins with four bytes of magic and four of version.
-/

namespace WasmPackage.Module

/-- The eight bytes that a binary module begins with. -/
def binaryHeader : Bytes := [0x00, 0x61, 0x73, 0x6d, 0x01, 0x00, 0x00, 0x00]

/-- Do the bytes begin as a binary module does? -/
def isBinary (bytes : Bytes) : Bool :=
  binaryHeader.isPrefixOf bytes

end WasmPackage.Module
