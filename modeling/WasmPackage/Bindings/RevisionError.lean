import WasmPackage.Decimal.Numeral
import WasmPackage.Script.Reader
import WasmPackage.Text.Revision
import WasmPackage.Text.Quoted

/-!
# Failures of the bindings passes

The passes over declarations and glue look for shapes that must be there.  A failure says in which
artifact which edit was not possible, and why.
-/

namespace WasmPackage.Bindings

/-- The edits that a package cannot do without. -/
inductive RequiredEdit
  | outline
  | accessor
  | initSignature
  | initEntryPoint
  | outputMethod
  | inlinedVariant
  | splitVariant
deriving DecidableEq, Repr

/-- The name of an edit in messages. -/
def RequiredEdit.name : RequiredEdit → String
  | outline => "outline"
  | accessor => "elements accessor"
  | initSignature => "init signature"
  | initEntryPoint => "init entry point"
  | outputMethod => "output-parameter method"
  | inlinedVariant => "inlined variant"
  | splitVariant => "split variant"

/-- Why an edit was not possible. -/
inductive Obstacle
  | noMatch
  | malformed (fault : Fault Script.Malformed)
  | unknownType (name : String)
  | typesDisagree (method documented declared : String)
  | alreadyDefined (name : String)
  | emptyModule
  | noPlaceholder
  | accessorsDiffer (declarationsOnly glueOnly : List String)
  | methodsDiffer (mismatched : List (String × String))
deriving DecidableEq, Repr

namespace Obstacle

/-- Names in brackets, or a dash if there are none. -/
def listed (names : List String) : String :=
  if names.isEmpty then "-" else "[" ++ ", ".intercalate (names.map quotedString) ++ "]"

/-- The words for an obstacle, if it needs any. -/
def detail? : Obstacle → Option String
  | noMatch => none
  | malformed fault => some (fault.message Script.Malformed.message)
  | unknownType name => some s!"value type {quotedString name} has no offset table entry"
  | typesDisagree method documented declared =>
    some s!"{method} documents out as {documented} but declares {declared}"
  | alreadyDefined name => some s!"{name} is already defined"
  | emptyModule => some "module is empty"
  | noPlaceholder => some "no 'let wasm;' binding"
  | accessorsDiffer declarationsOnly glueOnly =>
    some s!"declarations only: {listed declarationsOnly}; glue only: {listed glueOnly}"
  | methodsDiffer mismatched =>
    some ("mismatched: " ++ ", ".intercalate (mismatched.map (fun m => s!"{m.1}: {m.2}")))

end Obstacle

/-- Why a pass failed: a required edit was not possible, two edits met in the text, a function of
the script has no name, a number cannot be written, or the script is too deep to be read. -/
inductive RevisionError
  | missing (artifact : String) (edit : RequiredEdit) (obstacle : Obstacle)
  | conflict (error : EditError)
  | namelessFunction
  | numeral (error : Decimal.NumeralError)
  | tooDeep
deriving DecidableEq, Repr

/-- The words for a failure. -/
def RevisionError.message : RevisionError → String
  | missing artifact edit obstacle =>
    match obstacle.detail? with
    | none => s!"{artifact}: required edit '{edit.name}' found no match"
    | some detail => s!"{artifact}: required edit '{edit.name}' failed: {detail}"
  | conflict error => error.message
  | namelessFunction => "function without a name"
  | numeral error => error.message
  | tooDeep => Script.Malformed.tooDeep.message

/-- The outline of an artifact. -/
def outlineOf [Limits] (artifact : String) (t : Text) : Except RevisionError Script.Outline :=
  match Script.outline t with
  | .ok o => .ok o
  | .error (.malformed fault) =>
    if fault.cause = .tooDeep then .error .tooDeep
    else .error (.missing artifact .outline (.malformed fault))
  | .error .namelessFunction => .error .namelessFunction

/-- Records a replacement in the course of a pass. -/
def replaceIn (b : Revision) (span : Nat × Nat) (replacement : Text) :
    Except RevisionError Revision :=
  (b.replace span.1 span.2 replacement).mapError .conflict

/-- Records an insertion in the course of a pass. -/
def insertIn (b : Revision) (offset : Nat) (inserted : Text) :
    Except RevisionError Revision :=
  (b.insert offset inserted).mapError .conflict

/-- Records in the course of a pass that statements are to be removed, with their lines. -/
def deleteStatements (b : Revision) (statements : List Script.Statement) :
    Except RevisionError Revision :=
  statements.foldlM (fun b s => (b.deleteLines s.start s.stop).mapError .conflict) b

end WasmPackage.Bindings
