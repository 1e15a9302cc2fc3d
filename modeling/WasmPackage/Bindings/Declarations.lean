import WasmPackage.Bindings.OutMethod

/-!
# The type declarations

Users see the declarations.  Accessors become read-only properties, the loader takes no argument,
and output methods return the type of their first parameter.
-/

namespace WasmPackage.Bindings

/-- The artifact, as messages name it. -/
def declarationsArtifact : String := "declarations"

/-- The declaration of the loader in the inlined variant. -/
def initDeclaration : Text := "export function init(): Promise<any>;".toList

/-- Records that an accessor becomes a property; a getter without parameters is left alone. -/
def declareAccessor (acc : Revision × List String) (c : Script.ClassShape × Script.Member) :
    Except RevisionError (Revision × List String) :=
  match c.2.paramsStop with
  | none => .ok acc
  | some stop => do
    let b ← replaceIn acc.1 (c.2.start, stop) ("readonly " ++ accessorName).toList
    return (b, acc.2 ++ [c.1.name])

/-- Records that a method returns its output type, in its signature and in its documentation. -/
def declareOutput (acc : Revision × List OutMethod) (c : Script.ClassShape × Script.Member) :
    Except RevisionError (Revision × List OutMethod) :=
  match c.2.returnType with
  | some note =>
    if note.text = "void" then do
      match ← outputType? declarationsArtifact c.2 with
      | some (type, span) =>
        let b ← replaceIn acc.1 (note.start, note.stop) type.toList
        let b ← replaceIn b span type.toList
        return (b, acc.2 ++ [⟨c.1.name, c.2.name, type⟩])
      | none => return acc
    else .ok acc
  | none => .ok acc

/-- Revises the declarations. -/
def reviseDeclarations [Limits] (t : Text) : Except RevisionError Revised := do
  let o ← outlineOf declarationsArtifact t
  let (b, accessors) ← (accessorsOf o).foldlM declareAccessor (Revision.ofText t, [])
  if accessors.isEmpty then throw (.missing declarationsArtifact .accessor .noMatch)
  let some init := o.function? "init"
    | throw (.missing declarationsArtifact .initSignature .noMatch)
  let b ← replaceIn b (init.start, init.stop) initDeclaration
  let (b, outMethods) ← (membersOf o).foldlM declareOutput (b, [])
  if outMethods.isEmpty then throw (.missing declarationsArtifact .outputMethod .noMatch)
  return ⟨b.apply, accessors, outMethods⟩

end WasmPackage.Bindings
