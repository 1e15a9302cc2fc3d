import WasmPackage.Bindings.Glue
import WasmPackage.Text.Utf8

/-!
# The variants of the glue

The glue is shipped twice: inlined, where a new loader holds the bytes of the module, and split,
where a bundler provides the module as an import.
-/

namespace WasmPackage.Bindings

/-- The bytes as a list of decimal numbers. -/
def byteList (bytes : Bytes) : Text :=
  (",".intercalate (bytes.map (fun b => toString b.toNat))).toList

/-- The loader of the inlined variant, which calls the one of the glue. -/
def inlinedLoader (internal : String) (binary : Bytes) : Text :=
  "\nexport async function init() \x7b\n  return ".toList ++ internal.toList ++
    "(new Uint8Array([".toList ++ byteList binary ++ "]));\n\x7d\n".toList

/-- The inlined variant of a revised body. -/
def inlinedVariant (body : Text) (binary : Bytes) (header : Text) (internal : String) :
    Except RevisionError Text :=
  if binary.isEmpty then .error (.missing glueArtifact .inlinedVariant .emptyModule)
  else .ok (header ++ body ++ inlinedLoader internal binary)

/-- The line that imports the module. -/
def importLine (importPath : String) : Text :=
  "import * as wasm from '".toList ++ importPath.toList ++ "';\n".toList

/-- The split variant of a revised body: the import takes the place of the variable that would
have held the module. -/
def splitVariant [Limits] (body : Text) (importPath : String) (header : Text) :
    Except RevisionError Text := do
  let o ← outlineOf glueArtifact body
  let placeholders := o.statementsOf ["let", "wasm", ";"]
  if placeholders.isEmpty then throw (.missing glueArtifact .splitVariant .noPlaceholder)
  let b ← deleteStatements (Revision.ofText body) placeholders
  return header ++ importLine importPath ++ b.apply

/-- The revised glue and its two variants. -/
structure Variants where
  inlined : Text
  split : Text
  body : Revised
deriving DecidableEq, Repr

/-- Revises the glue and makes both variants of it. -/
def glueVariants [Limits] (t : Text) (offsets : OffsetTable) (binary : Bytes) (header : Text)
    (importPath internal : String) : Except RevisionError Variants := do
  let body ← reviseGlue t offsets internal
  let inlined ← inlinedVariant body.text binary header internal
  let split ← splitVariant body.text importPath header
  return ⟨inlined, split, body⟩

end WasmPackage.Bindings
