import WasmPackage.Module.Reference
import WasmPackage.Module.Shape
import WasmPackage.SExpr.Reader
import WasmPackage.Text.Revision

/-!
# Pruning a module's text

Stubs, their exports and the dead bounds checks are cut out of the text, whole nodes each, and every
other character stays.  The result is read again: it must be a module still, and no function that
was cut may be referred to.
-/

namespace WasmPackage.Module

open SExpr

/-- Why a module's text cannot be pruned. -/
inductive StripError
  | malformed (fault : Fault Malformed)
  | conflict (refusal : EditError)
  | spoiled (fault : Fault Malformed)
  | stillReferenced (name : String) (offset : Nat)
deriving DecidableEq, Repr

/-- The words for it. -/
def StripError.message : StripError → String
  | .malformed fault => s!"Module text is malformed: {fault.message Malformed.message}"
  | .conflict refusal => refusal.message
  | .spoiled fault => s!"Edited module text is malformed: {fault.message Malformed.message}"
  | .stillReferenced name offset =>
    s!"Removed function {name} is still referenced at offset {offset}"

/-- What was cut out of a module. -/
structure Report where
  deadBranches : Nat
  stubs : List String
  exports : List String
deriving DecidableEq, Repr

/-- Was anything cut? -/
def Report.changed (r : Report) : Bool :=
  r.deadBranches ≠ 0 || !r.stubs.isEmpty || !r.exports.isEmpty

/-- The named stubs of a module, each with its name. -/
def stubs (module : Node) : List (Node × String) :=
  let exported := exports module
  (module.children "func").filterMap fun func => do
    let name ← functionName? func
    let names := (exported.filter (fun e => e.target = name)).map Export.name
    if isStub func names then some (func, name) else none

/-- The standalone exports to be cut: those of an accessor, and those of a function that is cut. -/
def deadExports (module : Node) (removed : List String) : List Export :=
  (exports module).filter fun e => hasStubSuffix e.name || removed.contains e.target

/-- The dead bounds checks outside the functions that are cut. -/
def deadBranches (module : Node) (cut : List Node) : List Node :=
  module.walk.filter fun n =>
    isDeadBranch n && !cut.any (fun f => f.start ≤ n.start && n.start < f.stop)

/-- Records that the nodes are to be cut, in order. -/
def cutAll (b : Revision) (nodes : List Node) : Except StripError Revision :=
  nodes.foldlM (fun b n => (b.deleteLines n.start n.stop).mapError .conflict) b

/-- The first reference to one of the functions. -/
def danglingReference? (module : Node) (removed : List String) : Option Atom :=
  (references module).find? (fun a => removed.contains a.value)

/-- The text with stubs, their exports and dead bounds checks cut out, and what was cut. -/
def strip (t : Text) : Except StripError (Text × Report) := do
  let module ← (readModule t).mapError .malformed
  let cut := stubs module
  let removed := cut.map Prod.snd
  let dead := deadExports module removed
  let branches := deadBranches module (cut.map Prod.fst)
  let b ← cutAll (Revision.ofText t) (cut.map Prod.fst ++ dead.map Export.node ++ branches)
  let edited := b.apply
  let module' ← (readModule edited).mapError .spoiled
  -- the references are looked up in what is left, where those from other stubs are gone
  match danglingReference? module' removed with
  | some a => throw (.stillReferenced a.value a.start)
  | none =>
    return (edited,
      { deadBranches := branches.length
        stubs := removed
        exports := cut.flatMap (fun f => ownExportNames f.1) ++ dead.map Export.name })

end WasmPackage.Module
