import WasmPackage.Store.Basic

/-!
# Programs

A program is an executable file.  A command without a slash names the first one along the search
path.  Of a compiled program only its name counts, which says what it does.  What programs leave
behind is all that the calls of tools look at.
-/

namespace WasmPackage.Shell

/-- What a program leaves behind: its status, negative for a signal, and what it printed. -/
structure Result where
  status : Int
  output : Bytes
  errors : Bytes
deriving DecidableEq, Repr

/-- The bytes that a compiled program begins with. -/
def compiledHeader : Bytes := [0x7f, 0x45, 0x4c, 0x46]

/-- The content of a compiled program: behind the header stands its name. -/
def compiledContent (name : String) : Bytes :=
  compiledHeader ++ Text.encode name.toList

/-- The name of the compiled program that has this content. -/
def compiledName? (content : Bytes) : Option String :=
  if compiledHeader.isPrefixOf content then
    (Text.decode? (content.drop compiledHeader.length)).map String.ofList
  else none

/-- Is there an executable file at a path? -/
def isExecutable (s : Store) (directory : Location) (p : Path) : Bool :=
  match s.find directory p with
  | .ok (.file _ true) => true
  | _ => false

/-- The pieces of a text between colons. -/
def betweenColons : Text → List Text
  | [] => [[]]
  | c :: r =>
    if c = ':' then [] :: betweenColons r
    else
      match betweenColons r with
      | [] => [[c]]
      | p :: ps => (c :: p) :: ps

/-- The directories of a search path. -/
def searchDirectories (searchPath : String) : List String :=
  (betweenColons searchPath.toList).map String.ofList

/-- A name in a directory, as it is written. -/
def nameIn (directory name : String) : String :=
  if directory = "" then name
  else if directory.toList.getLast? = some '/' then directory ++ name
  else directory ++ "/" ++ name

/-- The first executable file of a name along a search path. -/
def searchFor (s : Store) (directory : Location) (searchPath name : String) : Option String :=
  ((searchDirectories searchPath).map (nameIn · name)).find?
    (fun p => isExecutable s directory (Path.exact p))

end WasmPackage.Shell
