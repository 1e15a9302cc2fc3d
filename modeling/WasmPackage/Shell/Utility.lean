import WasmPackage.Shell.Printing
import WasmPackage.Store.Basic

/-!
# Utilities of tool scripts

The programs that tool scripts call, as functions of their arguments, of what they read and of the
store.  Each gives its status, what it prints, and the store behind it.
-/

namespace WasmPackage.Shell

/-- What a utility leaves behind: its status, its output, its complaints, and the store. -/
structure Outcome where
  status : Int
  output : Bytes
  errors : Bytes
  store : Store
deriving DecidableEq, Repr

namespace Outcome

/-- A utility that has only printed so far. -/
def printing (s : Store) (bytes : Bytes) : Outcome := ⟨0, bytes, [], s⟩

/-- The outcome with one more complaint, which makes it a failure. -/
def complain (o : Outcome) (complaint : String) : Outcome :=
  { o with status := 1, errors := o.errors ++ Text.encode (complaint.toList ++ ['\n']) }

end Outcome

/-- The words for a failure, without its number. -/
def complaintOf : StoreError → String
  | .notFound => "No such file or directory"
  | .notDirectory => "Not a directory"
  | .isDirectory => "Is a directory"
  | .alreadyThere => "File exists"
  | .nameTooLong => "File name too long"
  | .permissionDenied => "Permission denied"
  | .notExecutable => "Exec format error"
  | .argumentTooLong => "Argument list too long"
  | .zeroInName => "Invalid argument"

/-- The path that an argument names, word by word. -/
def pathOf (t : Text) : Path :=
  Path.exact (String.ofList t)

/-- What a utility works on: the name it was called by, the store, the working directory, and what
it reads. -/
structure Setting where
  name : String
  store : Store
  directory : Location
  input : Bytes
deriving Repr

namespace Setting

/-- The content of a file, or of the input for a hyphen. -/
def read (g : Setting) (file : Text) : Except StoreError Bytes :=
  if file = ['-'] then .ok g.input else g.store.read g.directory (pathOf file)

/-- A utility that fails with a complaint and does nothing. -/
def refuse (g : Setting) (complaint : String) : Outcome :=
  (Outcome.printing g.store []).complain s!"{g.name}: {complaint}"

end Setting

/-! ## Reading files -/

/-- Prints files one behind the other, or the input. -/
def cat (g : Setting) (arguments : List Text) : Outcome :=
  (if arguments.isEmpty then [['-']] else arguments).foldl (fun o f =>
    match g.read f with
    | .ok bytes => { o with output := o.output ++ bytes }
    | .error e => o.complain s!"{g.name}: {String.ofList f}: {complaintOf e}")
    (.printing g.store [])

/-- The number of bytes that a part of a file is counted in, with its sign, and the files: `-c8` and
`-c 8` are the same. -/
def partArguments? : List Text → Option (Option Char × Nat × List Text)
  | ['-', 'c'] :: n :: files => number? files n
  | ('-' :: 'c' :: n) :: files => number? files n
  | _ => none
where
  /-- A number with its sign, and the files behind it. -/
  number? (files : List Text) (n : Text) : Option (Option Char × Nat × List Text) :=
    let sign := n.head?.filter (fun c => c = '+' || c = '-')
    (String.ofList (n.drop sign.toList.length)).toNat?.map (sign, ·, files)

/-- Prints a part of the first file, or of the input. -/
def printPart (g : Setting) (arguments : List Text)
    (part : Option Char → Nat → Bytes → Bytes) : Outcome :=
  match partArguments? arguments with
  | none => g.refuse "only a number of bytes is known here"
  | some (sign, n, files) =>
    let file := files.headD ['-']
    match g.read file with
    | .ok bytes => .printing g.store (part sign n bytes)
    | .error .isDirectory => g.refuse s!"error reading '{String.ofList file}': Is a directory"
    | .error e => g.refuse s!"cannot open '{String.ofList file}' for reading: {complaintOf e}"

/-- The end of a file: from a byte on that a plus sign counts from the start, or its last bytes. -/
def tail (g : Setting) (arguments : List Text) : Outcome :=
  printPart g arguments fun sign n bytes =>
    bytes.drop (if sign = some '+' then n - 1 else bytes.length - n)

/-- The first bytes of a file, or all but its last ones. -/
def head (g : Setting) (arguments : List Text) : Outcome :=
  printPart g arguments fun sign n bytes =>
    bytes.take (if sign = some '-' then bytes.length - n else n)

/-! ## Changing files -/

/-- Copies a file to a path, or into a directory under its name. -/
def copy (g : Setting) : List Text → Outcome
  | [source, target] =>
    let path := match g.store.find g.directory (pathOf target) with
      | .ok .directory => (pathOf target).child (pathOf source).name
      | _ => pathOf target
    let (old, new) := (String.ofList source, String.ofList target)
    match g.store.read g.directory (pathOf source) with
    | .error .isDirectory => g.refuse s!"-r not specified; omitting directory '{old}'"
    | .error e => g.refuse s!"cannot stat '{old}': {complaintOf e}"
    | .ok content =>
      match g.store.write g.directory path content with
      | .ok s => .printing s []
      | .error e => g.refuse s!"cannot create regular file '{new}': {complaintOf e}"
  | _ => g.refuse "only a file and its copy are known here"

/-! ## All utilities -/

/-- The utilities, which are compiled programs and are found along the search path. -/
def utilities : List String := ["cat", "tail", "head", "cp", "echo", "true", "false"]

/-- Runs a utility; a program of another name does nothing. -/
def runUtility (g : Setting) (utility : String) (arguments : List Text) : Outcome :=
  match utility with
  | "cat" => cat g arguments
  | "tail" => tail g arguments
  | "head" => head g arguments
  | "cp" => copy g arguments
  | "echo" => .printing g.store (Text.encode (spaced arguments ++ ['\n']))
  | "false" => { Outcome.printing g.store [] with status := 1 }
  | _ => .printing g.store []

end WasmPackage.Shell
