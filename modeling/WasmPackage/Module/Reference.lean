import WasmPackage.SExpr.Basic

/-!
# References to functions

In a module without names every index space counts from `$0`, so an atom names a function only where
a function is meant: behind a call, as the start function, in an element segment, or as the target
of an export.
-/

namespace WasmPackage.Module

open SExpr

/-- The instructions whose operand is a function. -/
def callWords : List String := ["call", "return_call", "ref.func"]

/-- Is this an atom that spells an instruction whose operand is a function? -/
def isCallWord : Node → Bool
  | .atom a => callWords.contains a.text
  | .list _ _ _ => false

/-- The operands of calls that stand side by side, as in `call $f call $g`. -/
def flatOperands : List Node → List Atom
  | op :: operand :: r =>
    match isCallWord op, operand with
    | true, .atom a => a :: flatOperands (operand :: r)
    | _, _ => flatOperands (operand :: r)
  | _ => []

/-- The function indices of an element segment.  Those of a segment in a table are all its names;
elsewhere they begin behind the offset or the word `func`, since the segment may have a name of its
own. -/
def segmentTargets (started : Bool) : List Node → List Atom
  | [] => []
  | .list _ _ _ :: r => segmentTargets true r
  | .atom a :: r =>
    if a.text = "func" then segmentTargets true r
    else if started && a.isName then a :: segmentTargets started r
    else segmentTargets started r

/-- The references to functions that a node makes itself, not through its items. -/
def ownReferences (n : Node) : List Atom :=
  let operand := ((n.items[1]?).bind Node.atom?).toList
  flatOperands (n.items.drop 1) ++
    match n.head? with
    | none => []
    | some word =>
      if callWords.contains word || word = "start" then operand
      else if word = "elem" then segmentTargets false (n.items.drop 1)
      else if word = "table" then
        (n.children "elem").flatMap (fun e => segmentTargets true (e.items.drop 1))
      else if word = "export" then
        (n.children "func").filterMap fun f =>
          match f.items with
          | [_, .atom target] => some target
          | _ => none
      else []

/-- The atoms of a module that name a function. -/
def references (module : Node) : List Atom :=
  module.walk.flatMap ownReferences

end WasmPackage.Module
