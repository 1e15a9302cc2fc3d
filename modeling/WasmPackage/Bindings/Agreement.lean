import WasmPackage.Bindings.OutMethod

/-!
# Agreement of declarations and glue

Both artifacts must have received the same edits, each class and each method counted once.
-/

namespace WasmPackage.Bindings

/-- Both artifacts together, as messages name them. -/
def bothArtifacts : String := "declarations/glue"

/-- The members of the first list that are not in the second, each once. -/
def onlyIn {α : Type} [BEq α] (xs ys : List α) : List α :=
  xs.eraseDups.filter (fun x => !ys.contains x)

/-- The method with its class, and its type. -/
def OutMethod.signature (m : OutMethod) : String × String :=
  (m.qualified, m.type)

/-- The order of signatures: by name, then by type. -/
def signatureLE (a b : String × String) : Bool :=
  a.1 < b.1 || (a.1 = b.1 && a.2 ≤ b.2)

/-- Checks that the declarations and the glue have received the same edits. -/
def checkAgreement (declarations glue : Revised) : Except RevisionError Unit := do
  let declaredOnly := onlyIn declarations.accessors glue.accessors
  let glueOnly := onlyIn glue.accessors declarations.accessors
  if !declaredOnly.isEmpty || !glueOnly.isEmpty then
    throw (.missing bothArtifacts .accessor
      (.accessorsDiffer (declaredOnly.mergeSort nameLE) (glueOnly.mergeSort nameLE)))
  let declared := declarations.outMethods.map OutMethod.signature
  let revised := glue.outMethods.map OutMethod.signature
  let mismatched := onlyIn declared revised ++ onlyIn revised declared
  if !mismatched.isEmpty then
    throw (.missing bothArtifacts .outputMethod
      (.methodsDiffer (mismatched.mergeSort signatureLE)))

end WasmPackage.Bindings
