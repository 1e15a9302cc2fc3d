import WasmPackage.SExpr.StringLiteral

/-!
# S-expressions

The tree of a module's text form.  Every node keeps its place in the text, so that a node can be cut
out of the text and all else left as it is.
-/

namespace WasmPackage.SExpr

/-- A word, a string in double quotes, or a name of the form `$"…"`, as it is written. -/
structure Atom where
  text : String
  start : Nat
deriving DecidableEq, Repr

namespace Atom

/-- The offset behind the atom. -/
def stop (a : Atom) : Nat :=
  a.start + a.text.length

/-- Is the atom a quoted string? -/
def isString (a : Atom) : Bool :=
  a.text.toList.head? = some '"'

/-- Is the atom a name, that is, does it start with a dollar sign? -/
def isName (a : Atom) : Bool :=
  a.text.toList.head? = some '$'

/-- What the atom stands for: the string or name with its quotes and escapes undone. -/
def value (a : Atom) : String :=
  match a.text.toList with
  | '"' :: body => String.ofList (unescape body.dropLast)
  | '$' :: '"' :: body => String.ofList ('$' :: unescape body.dropLast)
  | _ => a.text

end Atom

/-- A node: an atom, or a parenthesised list from its opening parenthesis to behind its closing
one. -/
inductive Node
  | atom (a : Atom)
  | list (items : List Node) (start stop : Nat)
deriving Repr

namespace Node

/-- Where the node begins. -/
def start : Node → Nat
  | atom a => a.start
  | list _ start _ => start

/-- The offset behind the node. -/
def stop : Node → Nat
  | atom a => a.stop
  | list _ _ stop => stop

/-- The items of a list; an atom has none. -/
def items : Node → List Node
  | atom _ => []
  | list items _ _ => items

/-- Is the node a list? -/
def isList : Node → Bool
  | atom _ => false
  | list _ _ _ => true

/-- The atom that the node is, if it is one. -/
def atom? : Node → Option Atom
  | atom a => some a
  | list _ _ _ => none

/-- The word that a list begins with, if it begins with an atom that is no string. -/
def head? : Node → Option String
  | list (atom a :: _) _ _ => if a.isString then none else some a.text
  | _ => none

/-- Is this an atom written as `word`? -/
def isWord (word : String) : Node → Bool
  | atom a => a.text = word
  | list _ _ _ => false

/-- The lists among the items that begin with the word `head`, in order. -/
def children (n : Node) (head : String) : List Node :=
  n.items.filter (fun m => m.head? = some head)

mutual

/-- The node and all below it, parents first, from left to right. -/
def walk : Node → List Node
  | atom a => [atom a]
  | list items start stop => list items start stop :: walkAll items

/-- The nodes of a sequence and all below them. -/
def walkAll : List Node → List Node
  | [] => []
  | n :: ns => walk n ++ walkAll ns

end

end Node

end WasmPackage.SExpr
