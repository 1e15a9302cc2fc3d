import WasmPackage.Bindings.RevisionError

/-!
# Output methods

A static method that writes its result into its first parameter `out` is documented by the generator
as returning nothing.  Such a method gets the type of `out` as its result type.
-/

namespace WasmPackage.Bindings

/-- The name of the getter that gives a value's floats. -/
def accessorName : String := "elements"

/-- The name of the parameter that a result is written to. -/
def outName : String := "out"

/-- An output method: its class, its name, and the type of its result. -/
structure OutMethod where
  owner : String
  name : String
  type : String
deriving DecidableEq, Repr

/-- The name of a method with that of its class. -/
def OutMethod.qualified (m : OutMethod) : String :=
  m.owner ++ "." ++ m.name

/-- What a pass made of a text: the new text, the classes whose accessor it changed, and the output
methods it changed, both in the order of the text. -/
structure Revised where
  text : Text
  accessors : List String
  outMethods : List OutMethod
deriving DecidableEq, Repr

/-- The output type of a member, with the span of the `void` in its documentation that it replaces.
The type is that of the last tag for `out`, because the generator appends its tags to those of the
author; a declared type must agree with it. -/
def outputType? (artifact : String) (m : Script.Member) :
    Except RevisionError (Option (String × (Nat × Nat))) :=
  match m.doc, m.params with
  | some doc, first :: _ =>
    if m.kind = .method && m.isStatic && first.name = outName then
      match doc.voidSpan?, (doc.typesOfParameter outName).getLast? with
      | some span, some type =>
        match first.type with
        | some declared =>
          if declared = type then .ok (some (type, span))
          else .error (.missing artifact .outputMethod (.typesDisagree m.name type declared))
        | none => .ok (some (type, span))
      | _, _ => .ok none
    else .ok none
  | _, _ => .ok none

/-- The members of all classes, each with its class, in order. -/
def membersOf (o : Script.Outline) : List (Script.ClassShape × Script.Member) :=
  o.classes.flatMap (fun c => c.members.map (c, ·))

/-- The accessor getters of all classes, each with its class, in order. -/
def accessorsOf (o : Script.Outline) : List (Script.ClassShape × Script.Member) :=
  o.classes.flatMap (fun c => (c.membersNamed accessorName .getter).map (c, ·))

end WasmPackage.Bindings
