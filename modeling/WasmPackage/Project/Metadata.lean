import WasmPackage.Limits
import WasmPackage.Project.ProjectError

/-!
# Package metadata

A package has a name and a version, and perhaps an author and a license.  They come from the npm
description of the package where it has one, and from the manifest of the crate otherwise.
-/

namespace WasmPackage

/-- What a package says about itself. -/
structure Metadata where
  name : CodeText
  version : CodeText
  author : Option CodeText
  license : Option CodeText
deriving DecidableEq, Repr

namespace Value

/-- The value of a key of a table; a value that is no table has no keys. -/
def entry {τ : Type} [DecidableEq τ] (v : Value τ) (key : τ) (default : Value τ) :
    Except ShapeError (Value τ) :=
  match v with
  | table entries => .ok ((entries.lookup key).getD default)
  | _ => .error .noTable

/-- The first value if it is given, else the second. -/
def orElse (v w : Value CodeText) : Value CodeText :=
  if v.isGiven then v else w

/-- The text that a value is, unless it is empty or no text. -/
def givenText? : Value CodeText → Option CodeText
  | text t => if t.isEmpty then none else some t
  | _ => none

end Value

/-! ## Authors -/

/-- The text of an entry of a table, without the blanks around it. -/
def writtenEntry [Limits] (entries : Table CodeText) (key : String) :
    Except ProjectError CodeText :=
  let v := (entries.lookup (.ofString key)).getD (.text [])
  match v.fault? with
  | none => .ok v.plain.trim
  | some e => .error (.ofWriting e)

/-- An author given by name and address. -/
def authorOf [Limits] (entries : Table CodeText) : Except ProjectError (Option CodeText) := do
  let name ← writtenEntry entries "name"
  let email ← writtenEntry entries "email"
  if name.isEmpty then return none
  else if email.isEmpty then return some name
  else return some (name ++ .ofString " <" ++ email ++ .ofString ">")

mutual

/-- The author or authors that a value names; `room` bounds how deep lists may stand in lists. -/
def writtenAuthor [Limits] (room : Nat) :
    Value CodeText → Except ProjectError (Option CodeText)
  | .text t => .ok (if t.trim.isEmpty then none else some t.trim)
  | .table entries => authorOf entries
  | .list vs => do
    if room = 0 then throw .tooDeep
    let names ← writtenAuthors (room - 1) vs
    return if names.isEmpty then none else some (List.intercalate (CodeText.ofString ", ") names)
  | _ => .ok none

/-- The authors that the values of a list name. -/
def writtenAuthors [Limits] (room : Nat) :
    List (Value CodeText) → Except ProjectError (List CodeText)
  | [] => .ok []
  | v :: r => do return (← writtenAuthor room v).toList ++ (← writtenAuthors room r)

end

/-- The author in the npm description, or else in the crate. -/
def authorIn [Limits] (npm crate : Table CodeText) : Except ProjectError (Option CodeText) := do
  let author := fun (t : Table CodeText) (key : String) =>
    writtenAuthor Limits.authors ((t.lookup (.ofString key)).getD .null)
  match ← author npm "author" with
  | some name => return some name
  | none => author crate "authors"

/-- The metadata of a package, from its npm description and its crate. -/
def Metadata.of [Limits] (npm crate : Table CodeText) : Except ProjectError Metadata := do
  let entry := fun (t : Table CodeText) key => (t.lookup (.ofString key)).getD .null
  let shared := fun key => (entry npm key).orElse (entry crate key)
  let some name := (shared "name").givenText? | throw (.config .noName)
  let some version := (shared "version").givenText? | throw (.config .noVersion)
  let author ← authorIn npm crate
  let license := match shared "license" with
    | .text t => some t
    | _ => none
  return ⟨name, version, author, license⟩

/-! ## The license header -/

/-- The lines of the comment that the shipped files begin with. -/
def headerLines (m : Metadata) (copyright : Option CodeText) : List CodeText :=
  let given := fun (t : Option CodeText) => t.filter (fun t => !t.isEmpty)
  let holder := given copyright <|> given m.author
  let plain := CodeText.ofString
  [plain "/**", plain " * @license " ++ m.name ++ plain " v" ++ m.version] ++
    (holder.map (fun h => plain " * Copyright (c) " ++ h ++ plain ".")).toList ++
    (match given m.license with
      | some license =>
        [plain " *",
          plain " * This source code is licensed under the " ++ license ++
            plain " license found in the",
          plain " * LICENSE file in the root directory of this source tree."]
      | none => []) ++
    [plain " */"]

/-- The comment that the shipped files begin with. -/
def licenseComment (m : Metadata) (copyright : Option CodeText) : CodeText :=
  (headerLines m copyright).flatMap (· ++ [.char '\n'])

end WasmPackage
