import WasmPackage.Text.Basic

/-!
# Bytes of texts

File contents and module binaries are lists of bytes; a text is written as UTF-8.
-/

namespace WasmPackage

/-- The content of a file. -/
abbrev Bytes := List UInt8

/-- The UTF-8 bytes of a text. -/
def Text.encode (t : Text) : Bytes :=
  (String.ofList t).toUTF8.toList

/-- The text that the bytes are the UTF-8 form of, if there is one. -/
def Text.decode? (bytes : Bytes) : Option Text :=
  (String.fromUTF8? (ByteArray.mk bytes.toArray)).map String.toList

end WasmPackage
