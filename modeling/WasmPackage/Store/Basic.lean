import WasmPackage.Store.Path
import WasmPackage.Text.Utf8

/-!
# The file tree

The store holds the files and directories that a run can see, each under the names on its way from
the root.  Every operation looks its path up first, name by name, and then changes what stands at
one location only.
-/

namespace WasmPackage

/-- The names on the way from the root. -/
abbrev Location := List String

/-- What stands at a location: a file with its content, executable or not, or a directory. -/
inductive Entry
  | file (content : Bytes) (executable : Bool)
  | directory
deriving DecidableEq, Repr

/-- Why an operation on the store fails. -/
inductive StoreError
  | notFound
  | notDirectory
  | isDirectory
  | alreadyThere
  | nameTooLong
  | permissionDenied
  | notExecutable
  | argumentTooLong
  | zeroInName
deriving DecidableEq, Repr

/-- The words for a failure. -/
def StoreError.message : StoreError → String
  | notFound => "[Errno 2] No such file or directory"
  | notDirectory => "[Errno 20] Not a directory"
  | isDirectory => "[Errno 21] Is a directory"
  | alreadyThere => "[Errno 17] File exists"
  | nameTooLong => "[Errno 36] File name too long"
  | permissionDenied => "[Errno 13] Permission denied"
  | notExecutable => "[Errno 8] Exec format error"
  | argumentTooLong => "[Errno 7] Argument list too long"
  | zeroInName => "embedded null byte"

/-- The files and directories, each at one location; the root is always there.  There are no
symbolic links, so that a location is reached by its names only; nobody is kept from reading or
writing a file; and there is always room for one more. -/
structure Store where
  entries : List (Location × Entry)
deriving DecidableEq, Repr

namespace Store

/-- What stands at a location. -/
def entry? (s : Store) (l : Location) : Option Entry :=
  if l = [] then some .directory else s.entries.lookup l

/-- Is there a directory at the location? -/
def isDirectory (s : Store) (l : Location) : Bool :=
  s.entry? l = some .directory

/-- The store with an entry set. -/
def put (s : Store) (l : Location) (e : Entry) : Store :=
  ⟨(l, e) :: s.entries.filter (fun x => x.1 ≠ l)⟩

/-- The store without what stands at a location. -/
def erase (s : Store) (l : Location) : Store :=
  ⟨s.entries.filter (fun x => x.1 ≠ l)⟩

/-- The store without a location and all below it. -/
def eraseTree (s : Store) (l : Location) : Store :=
  ⟨s.entries.filter (fun x => !l.isPrefixOf x.1)⟩

/-- The locations below a location, as seen from it, with what stands there. -/
def below (s : Store) (l : Location) : List (Location × Entry) :=
  (s.entries.filter (fun x => l.isPrefixOf x.1 && x.1 ≠ l)).map
    (fun x => (x.1.drop l.length, x.2))

/-- The longest name that a file may have, in bytes. -/
def longestName : Nat := 255

/-- Walks from a location along names.  All but the last must lead to directories; nothing need
stand at the end.  A point leads to the directory that it stands in. -/
def walk (s : Store) (l : Location) : List String → Except StoreError Location
  | [] => .ok l
  | n :: r =>
    match s.entry? l with
    | none => .error .notFound
    | some (.file _ _) => .error .notDirectory
    | some .directory =>
      if n = "." then walk s l r
      else if n = ".." then walk s l.dropLast r
      else if longestName < n.utf8ByteSize then .error .nameTooLong
      else walk s (l ++ [n]) r

/-- Where a path starts, as seen from a working directory, if it can be one of a file at all. -/
def base (directory : Location) (p : Path) : Except StoreError Location :=
  if p.hasZero then .error .zeroInName
  else if Path.mostBytes < p.text.utf8ByteSize then .error .nameTooLong
  else .ok (if p.isAbsolute then [] else directory)

/-- The location of a path as seen from a working directory. -/
def locate (s : Store) (directory : Location) (p : Path) : Except StoreError Location := do
  s.walk (← base directory p) p.parts.toList

/-- What stands at a path. -/
def find (s : Store) (directory : Location) (p : Path) : Except StoreError Entry := do
  match s.entry? (← s.locate directory p) with
  | some e => return e
  | none => throw .notFound

/-- Does anything stand at the path?  A name that is too long is an error even here. -/
def contains (s : Store) (directory : Location) (p : Path) : Except StoreError Bool :=
  match s.find directory p with
  | .ok _ => .ok true
  | .error .nameTooLong => .error .nameTooLong
  | .error _ => .ok false

/-- The content of a file. -/
def read (s : Store) (directory : Location) (p : Path) : Except StoreError Bytes := do
  match ← s.find directory p with
  | .file content _ => return content
  | .directory => throw .isDirectory

/-- Writes a file in a directory that is there.  A file that is replaced stays executable or not. -/
def write (s : Store) (directory : Location) (p : Path) (content : Bytes) :
    Except StoreError Store := do
  let l ← s.locate directory p
  match s.entry? l with
  | some .directory => throw .isDirectory
  | some (.file _ executable) => return s.put l (.file content executable)
  | none => return s.put l (.file content false)

/-- Makes a directory where nothing stands. -/
def makeDirectory (s : Store) (directory : Location) (p : Path) :
    Except StoreError (Store × Location) := do
  let l ← s.locate directory p
  match s.entry? l with
  | some _ => throw .alreadyThere
  | none => return (s.put l .directory, l)

/-- Makes the directories along names that are not there yet.  Those made before a failure stay. -/
def makeDirectoriesFrom (s : Store) (l : Location) : List String → Store × Except StoreError Unit
  | [] => (s, if s.isDirectory l then .ok () else .error .alreadyThere)
  | n :: r =>
    match s.walk l [n] with
    | .error e => (s, .error e)
    | .ok next =>
      if (s.entry? next).isSome then makeDirectoriesFrom s next r
      else makeDirectoriesFrom (s.put next .directory) next r

/-- Makes a directory and those on the way to it. -/
def makeDirectories (s : Store) (directory : Location) (p : Path) :
    Store × Except StoreError Unit :=
  match base directory p with
  | .ok l => s.makeDirectoriesFrom l p.parts.toList
  | .error e => (s, .error e)

/-- Removes a file. -/
def remove (s : Store) (directory : Location) (p : Path) : Except StoreError Store := do
  let l ← s.locate directory p
  match s.entry? l with
  | some (.file _ _) => return s.erase l
  | some .directory => throw .isDirectory
  | none => throw .notFound

/-- Moves the file at a location to a path, in the place of a file that stands there.  If it fails,
nothing has changed. -/
def moveTo (s : Store) (directory source : Location) (target : Path) :
    Except StoreError Store := do
  let l ← s.locate directory target
  match s.entry? source, s.entry? l with
  | some (.file _ _), some .directory => throw .isDirectory
  | some (.file content executable), _ =>
    return (s.erase source).put l (.file content executable)
  | some .directory, _ => throw .isDirectory
  | none, _ => throw .notFound

/-- The numbers that may stand behind the name of a temporary directory. -/
def freshNumbers (s : Store) : List Nat :=
  List.range (s.entries.length + 1)

/-- A name that nothing in a directory has: the stem and eight digits. -/
def freshName (s : Store) (l : Location) (stem : String) : String :=
  let names := s.freshNumbers.map (fun n => stem ++ paddedNumber 8 n)
  (names.find? (fun n => (s.entry? (l ++ [n])).isNone)).getD stem

end Store

end WasmPackage
