import WasmPackage.SExpr.Basic

/-!
# What is pruned from a module

The bindings generator leaves three things behind that the revised bindings have no use for: a
bounds check that can never fire, functions whose only body is to trap, and the exports of those.
Each is known by its shape in the tree, never by its layout.
-/

namespace WasmPackage.Module

open SExpr

/-- The names that the generator gives its element accessors end so. -/
def stubSuffix : Text := "_elements".toList

/-- Does the name end as those of the element accessors do? -/
def hasStubSuffix (name : String) : Bool :=
  Text.endsWith name.toList stubSuffix

/-- Is this one of the words? -/
def isOneOf (words : List String) (a : Atom) : Bool :=
  words.contains a.text

/-- A bounds check that compares a loaded control word with minus one:
`(br_if $l (i32.eq (local.tee $n (i32.load (local.get $m))) (i32.const -1)))`.  The older spellings
`tee_local` and `get_local` count too. -/
def isDeadBranch : Node → Bool
  | .list [.atom branch, .atom _, .list [.atom equal,
      .list [.atom tee, .atom _, .list [.atom load, .list [.atom get, .atom _] _ _] _ _] _ _,
      .list [.atom const, .atom sentinel] _ _] _ _] _ _ =>
    branch.text = "br_if" && equal.text = "i32.eq" &&
      isOneOf ["local.tee", "tee_local"] tee && load.text = "i32.load" &&
      isOneOf ["local.get", "get_local"] get && const.text = "i32.const" && sentinel.text = "-1"
  | _ => false

/-- The words that may begin a list in the header of a function. -/
def headerWords : List String := ["type", "param", "result", "local", "export", "import"]

/-- Does this item belong to the header of a function: a name, or a list that begins with a header
word? -/
def isHeaderItem : Node → Bool
  | .atom a => a.isName
  | n => n.head?.any headerWords.contains

/-- The lists of a function's header. -/
def header (func : Node) : List Node :=
  ((func.items.drop 1).takeWhile isHeaderItem).filter Node.isList

/-- The body of a function: all from the first item on that is not of the header. -/
def body (func : Node) : List Node :=
  (func.items.drop 1).dropWhile isHeaderItem

/-- The name of a function, if it has one. -/
def functionName? (func : Node) : Option String := do
  let a ← (← func.items[1]?).atom?
  if a.isName then some a.value else none

/-- The types of the parameters in a function's header. -/
def typesOfParameter (func : Node) : List String :=
  (header func).flatMap fun item =>
    if item.head? = some "param" then
      ((item.items.drop 1).filterMap Node.atom?).filterMap fun a =>
        if a.isName then none else some a.text
    else []

/-- The names under which a function's header exports it. -/
def ownExportNames (func : Node) : List String :=
  (header func).filterMap fun item =>
    match item with
    | .list [.atom word, .atom name] _ _ =>
      if word.text = "export" && name.isString then some name.value else none
    | _ => none

/-- Does this item end a body in a trap? -/
def isUnreachable : Node → Bool
  | .atom a => a.text = "unreachable"
  | .list [.atom a] _ _ => a.text = "unreachable"
  | _ => false

/-- Is this function a stub?  It is one of the element accessors by its name or by a name that it
is exported as, takes two integers and gives nothing, and its body ends in a trap. -/
def isStub (func : Node) (exportedAs : List String) : Bool :=
  (hasStubSuffix ((functionName? func).getD "") || exportedAs.any hasStubSuffix ||
      (ownExportNames func).any hasStubSuffix) &&
    !(header func).any (fun item => item.head? = some "result" || item.head? = some "import") &&
    typesOfParameter func = ["i32", "i32"] && (body func).getLast?.any isUnreachable

/-- A standalone export of a function: `(export "name" (func target))`. -/
structure Export where
  node : Node
  name : String
  target : String

/-- The standalone export that a list is, if it is one. -/
def export? : Node → Option Export
  | n@(.list [_, .atom name, .list [.atom word, .atom target] _ _] _ _) =>
    if name.isString && word.text = "func" then some ⟨n, name.value, target.value⟩ else none
  | _ => none

/-- The standalone exports of a module. -/
def exports (module : Node) : List Export :=
  (module.children "export").filterMap export?

end WasmPackage.Module
