import WasmPackage.Bindings.LastStatement
import WasmPackage.Bindings.OffsetTable
import WasmPackage.Bindings.OutMethod

/-!
# The glue

The glue is the script that loads the module and wraps its functions.  Accessors read the floats of
a value straight from memory, the loader is renamed so that a new one can call it, and output
methods end by returning their first parameter.
-/

namespace WasmPackage.Bindings

open Script (Outline Token)

/-- The artifact, as messages name it. -/
def glueArtifact : String := "glue"

/-- The name of the loader that the generator writes. -/
def loaderName : String := "init"

/-- The name that the loader gets if the settings give no other. -/
def defaultInternalName : String := "initModule"

/-- The number of floats of a type of the table, for an edit in an artifact. -/
def elementCount (offsets : OffsetTable) (name artifact : String) : Except RevisionError Nat :=
  match offsets.get? name with
  | some n => .ok n
  | none => .error (.missing artifact .accessor (.unknownType name))

/-! ## Accessors -/

/-- The leading spaces and tabs of a line. -/
def indentOf (line : Text) : Text :=
  line.takeWhile (fun c => c = ' ' || c = '\t')

/-- The indentation inside a body: that of its first line with text, if it is deeper than the
`outer` one, else four spaces more than that. -/
def bodyIndent (t : Text) (body : Nat × Nat) (outer : Text) : Text :=
  let inside := t.slice (body.1 + 1) (body.2 - 1)
  let found := (inside.lines.find? (fun line => !line.isBlank)).map indentOf
  match found with
  | some indent => if outer.length < indent.length then indent else outer ++ "    ".toList
  | none => outer ++ "    ".toList

/-- The body of an accessor, which copies `count` floats from behind the control word. -/
def elementsBody (count : Int) (outer inner : Text) : Text :=
  "\x7b\n".toList ++ inner ++ "const ptr = this.ptr / 4 + 1;\n".toList ++ inner ++
    s!"return new Float32Array(wasm.memory.buffer).slice(ptr, ptr + {count});\n".toList ++
    outer ++ "\x7d".toList

/-- Records the new body of an accessor; a getter without a body is left alone. -/
def reviseAccessor (o : Outline) (offsets : OffsetTable) (acc : Revision × List String)
    (c : Script.ClassShape × Script.Member) : Except RevisionError (Revision × List String) :=
  match c.2.body with
  | none => .ok acc
  | some body => do
    let count ← elementCount offsets c.1.name glueArtifact
    if !Decimal.isWritable count then throw (.numeral .tooLongToWrite)
    let outer := o.text.lineIndent c.2.start
    let b ← replaceIn acc.1 body (elementsBody count outer (bodyIndent o.text body outer))
    return (b, acc.2 ++ [c.1.name])

/-! ## The loader -/

/-- The tokens that name the loader: identifiers spelled like it that do not follow a point;
`previous` is the token before. -/
def loaderReferences (previous : Option Token) : List Token → List Token
  | [] => []
  | t :: r =>
    let isReference := t.kind = .identifier && t.text = loaderName &&
      !previous.any (fun p => p.text = ".")
    if isReference then t :: loaderReferences (some t) r else loaderReferences (some t) r

/-- Records that the loader is called `internal` in its declaration and in its body, and is not
exported any more. -/
def renameLoader (o : Outline) (internal : String) (b : Revision) :
    Except RevisionError Revision := do
  let some loader := o.function? loaderName
    | throw (.missing glueArtifact .initEntryPoint .noMatch)
  let some body := loader.body
    | throw (.missing glueArtifact .initEntryPoint .noMatch)
  -- the new name must not hide a definition of the script
  if o.names.contains internal then
    throw (.missing glueArtifact .initEntryPoint (.alreadyDefined internal))
  let b ← if loader.start ≠ loader.keywordStart then
      replaceIn b (loader.start, loader.keywordStart) []
    else pure b
  let b ← replaceIn b (loader.nameStart, loader.nameStop) internal.toList
  let references := loaderReferences none (o.tokensWithin body.1 body.2)
  let b ← references.foldlM (fun b t => replaceIn b (t.start, t.stop) internal.toList) b
  deleteStatements b (o.statementsOf ["export", "default", loaderName, ";"])

/-! ## Output methods -/

/-- The statement that ends an output method. -/
def outReturn : Text := ("return " ++ outName ++ ";").toList

/-- Records that a body ends by returning its first parameter: a last statement that returns gives
up its `return`, and one that returns nothing is replaced. -/
def returnOutParameter (o : Outline) (start : Nat) (body : Nat × Nat) (b : Revision) :
    Except RevisionError Revision :=
  let tokens := o.tokensWithin (body.1 + 1) (body.2 - 1)
  let outer := o.text.lineIndent start
  let behind := tokens.drop (lastStatement tokens)
  match behind, tokens.getLast? with
  | first :: rest, some tail =>
    let inner := o.text.lineIndent first.start
    -- the last statement may lack its semicolon; a block needs none
    let terminator := if [";", "\x7d"].contains tail.text then [] else [';']
    let ending := terminator ++ '\n' :: inner ++ outReturn
    if first.is "return" then
      match rest with
      | [] => insertIn b tail.stop ending
      | second :: _ =>
        -- a statement that returns nothing is replaced whole
        if second.text = ";" then replaceIn b (first.start, second.stop) outReturn
        -- one that returns a value keeps it as a statement, for what its evaluation does
        else do insertIn (← replaceIn b (first.start, second.start) []) tail.stop ending
    else insertIn b tail.stop ending
  | _, _ =>
    insertIn b (body.1 + 1) ('\n' :: outer ++ "    ".toList ++ outReturn ++ '\n' :: outer)

/-- Records that a method returns its output type; a member without a body is left alone. -/
def reviseOutput (o : Outline) (acc : Revision × List OutMethod)
    (c : Script.ClassShape × Script.Member) :
    Except RevisionError (Revision × List OutMethod) :=
  match c.2.body with
  | none => .ok acc
  | some body => do
    match ← outputType? glueArtifact c.2 with
    | some (type, span) =>
      let b ← replaceIn acc.1 span type.toList
      let b ← returnOutParameter o c.2.start body b
      return (b, acc.2 ++ [⟨c.1.name, c.2.name, type⟩])
    | none => return acc

/-- Revises the glue that both variants share. -/
def reviseGlue [Limits] (t : Text) (offsets : OffsetTable) (internal : String) :
    Except RevisionError Revised := do
  let o ← outlineOf glueArtifact t
  let (b, accessors) ←
    (accessorsOf o).foldlM (reviseAccessor o offsets) (Revision.ofText t, [])
  if accessors.isEmpty then throw (.missing glueArtifact .accessor .noMatch)
  let b ← renameLoader o internal b
  let (b, outMethods) ← (membersOf o).foldlM (reviseOutput o) (b, [])
  if outMethods.isEmpty then throw (.missing glueArtifact .outputMethod .noMatch)
  return ⟨b.apply, accessors, outMethods⟩

end WasmPackage.Bindings
