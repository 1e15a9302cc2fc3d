import WasmPackage.Package.Session

/-!
# Writing outputs

Outputs are first written to a staging directory in the package's own directory, and moved to their
places when all of them are there.
-/

namespace WasmPackage

/-- An output: where it is to stand, and its content. -/
structure Output where
  target : Path
  content : Bytes
deriving DecidableEq, Repr

/-- The path of a staged output; its number keeps it apart from others of the same name. -/
def stagedPath (staging : Path) (index : Nat) (o : Output) : Path :=
  staging.child s!"{index}-{o.target.name}"

/-- Writes one output to the staging directory. -/
def stageOutput (staging : Path) (index : Nat) (o : Output) : Action Unit := do
  let s ← get
  Action.changeStore (fun e => .artifact o.target (.notWritten e))
    (fun store => store.write s.directory (stagedPath staging index o) o.content)

/-- Moves one staged output to its place. -/
def moveOutput (staging : Path) (index : Nat) (o : Output) : Action Unit := do
  let s ← get
  let failure := fun (e : StoreError) => Failure.artifact o.target (.notReplaced e)
  let source ← Action.ofStore failure
    (s.store.locate s.directory (stagedPath staging index o))
  Action.changeStore failure (fun store => store.moveTo s.directory source o.target)

/-- Does something for each output and its number, in order. -/
def forOutputs (action : Nat → Output → Action Unit) (index : Nat) : List Output → Action Unit
  | [] => pure ()
  | o :: r => do
    action index o
    forOutputs action (index + 1) r

/-- Writes outputs by way of a staging directory in `directory`. -/
def writeOutputs (directory : Path) (outputs : List Output) : Action Unit :=
  Action.withDirectory (fun e => .artifact directory (.notStaged e)) directory ".wasm-polish-"
    fun staging => do
      forOutputs (stageOutput staging) 0 outputs
      -- nothing is moved before all of it is staged
      forOutputs (moveOutput staging) 0 outputs

end WasmPackage
