import WasmPackage.Script.Source

/-!
# Outlines

An outline lists the items of a script in order: classes with their members, functions, and
statements, which are all that is neither.  Every part is given by the span of offsets it covers.
-/

namespace WasmPackage.Script

/-- A type written behind a colon, and where it stands. -/
structure TypeNote where
  text : String
  start : Nat
  stop : Nat
deriving DecidableEq, Repr

/-- A parameter; its type is trimmed. -/
structure Parameter where
  name : String
  type : Option String
  start : Nat
  stop : Nat
deriving DecidableEq, Repr

/-- The kinds of class members. -/
inductive MemberKind
  | method
  | getter
  | setter
  | property
deriving DecidableEq, Repr

/-- A member of a class.  `paramsStop` is the offset behind its parameter list, if it has one, and
`body` the span of its body with the braces. -/
structure Member where
  name : String
  kind : MemberKind
  isStatic : Bool
  start : Nat
  nameStart : Nat
  nameStop : Nat
  stop : Nat
  doc : Option DocComment
  params : List Parameter
  paramsStop : Option Nat
  returnType : Option TypeNote
  body : Option (Nat × Nat)
deriving DecidableEq, Repr

/-- A class; `bodyOpen` and `bodyClose` are the offsets of its braces. -/
structure ClassShape where
  name : String
  start : Nat
  stop : Nat
  bodyOpen : Nat
  bodyClose : Nat
  members : List Member
deriving DecidableEq, Repr

/-- The members of a class with the given name and kind. -/
def ClassShape.membersNamed (c : ClassShape) (name : String) (kind : MemberKind) : List Member :=
  c.members.filter (fun m => m.name = name && m.kind = kind)

/-- How a declaration is exported. -/
inductive ExportKind
  | none
  | named
  | default
deriving DecidableEq, Repr

/-- A function at the top level; `keywordStart` is where its own words begin, behind those that
export it. -/
structure FunctionShape where
  name : String
  exported : ExportKind
  start : Nat
  keywordStart : Nat
  nameStart : Nat
  nameStop : Nat
  stop : Nat
  params : List Parameter
  returnType : Option TypeNote
  body : Option (Nat × Nat)
deriving DecidableEq, Repr

/-- A statement at the top level, with the texts of its code tokens. -/
structure Statement where
  start : Nat
  stop : Nat
  words : List String
deriving DecidableEq, Repr

/-- An item of a script. -/
inductive Item
  | classDecl (c : ClassShape)
  | function (f : FunctionShape)
  | statement (s : Statement)
deriving DecidableEq, Repr

namespace Item

/-- The offset at which an item begins. -/
def start : Item → Nat
  | classDecl c => c.start
  | function f => f.start
  | statement s => s.start

/-- The offset behind an item. -/
def stop : Item → Nat
  | classDecl c => c.stop
  | function f => f.stop
  | statement s => s.stop

/-- The class that an item is, if it is one. -/
def class? : Item → Option ClassShape
  | classDecl c => some c
  | _ => none

/-- The function that an item is, if it is one. -/
def function? : Item → Option FunctionShape
  | function f => some f
  | _ => none

/-- The statement that an item is, if it is one. -/
def statement? : Item → Option Statement
  | statement s => some s
  | _ => none

end Item

/-- The outline of a script. -/
structure Outline where
  source : Source
  items : List Item
deriving DecidableEq, Repr

namespace Outline

/-- The text that the outline is of. -/
def text (o : Outline) : Text :=
  o.source.text

/-- The classes of the script, in order. -/
def classes (o : Outline) : List ClassShape :=
  o.items.filterMap Item.class?

/-- The functions of the script, in order. -/
def functions (o : Outline) : List FunctionShape :=
  o.items.filterMap Item.function?

/-- The statements of the script, in order. -/
def statements (o : Outline) : List Statement :=
  o.items.filterMap Item.statement?

/-- The first function with the given name. -/
def function? (o : Outline) (name : String) : Option FunctionShape :=
  o.functions.find? (·.name = name)

/-- The statements that consist of these tokens. -/
def statementsOf (o : Outline) (words : List String) : List Statement :=
  o.statements.filter (·.words = words)

/-- The words that declare a variable. -/
def variableWords : List String := ["let", "const", "var"]

/-- The name that a statement declares, if it begins with a word for variables. -/
def declaredName? (s : Statement) : Option String :=
  match s.words with
  | word :: name :: _ => if variableWords.contains word then some name else none
  | _ => none

/-- The names that the script defines at its top level, each in order of its definition. -/
def names (o : Outline) : List String :=
  o.classes.map (·.name) ++ o.functions.map (·.name) ++ o.statements.filterMap declaredName?

/-- The code tokens that lie within a span. -/
def tokensWithin (o : Outline) (start stop : Nat) : List Token :=
  o.source.code.toList.filter (fun t => start ≤ t.start && t.stop ≤ stop)

end Outline

end WasmPackage.Script
