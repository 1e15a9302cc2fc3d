import WasmPackage.Shell.Program
import WasmPackage.Shell.Reader
import WasmPackage.Shell.Utility

/-!
# Running tool scripts

A script is run command by command.  All that it does to files is done by writing them.
-/

namespace WasmPackage.Shell

/-! ## Shells -/

/-- Where a stream goes to: to one of the streams of the tool, to what is kept for another command,
to the end of a file, or nowhere. -/
inductive Sink
  | output
  | errors
  | captured
  | file (p : Path)
  | nowhere
deriving DecidableEq, Repr

/-- The streams of a command. -/
structure Streams where
  output : Sink
  errors : Sink
  input : Bytes
deriving DecidableEq, Repr

namespace Streams

/-- The streams with one of them changed. -/
def set (st : Streams) (stream : Nat) (sink : Sink) : Streams :=
  match stream with
  | 1 => { st with output := sink }
  | 2 => { st with errors := sink }
  | _ => st

/-- The sink of a stream that is open. -/
def sink? (st : Streams) (stream : Nat) : Option Sink :=
  match stream with
  | 1 => some st.output
  | 2 => some st.errors
  | _ => none

end Streams

/-- A shell while its script runs: the store and the working directory, the arguments and variables,
the line and the status of the last command, whether the script has ended, where its streams go, and
what they have taken.  `captured` is kept for another command. -/
structure State where
  store : Store
  directory : Location
  name : Text
  arguments : List Text
  values : List (Text × Text)
  line : Nat
  status : Int
  ended : Bool
  streams : Streams
  output : Bytes
  errors : Bytes
  captured : Bytes
deriving Repr

namespace State

/-- The shell of a script with its arguments, before the first command. -/
def start (store : Store) (directory : Location) (environment : List (Text × Text)) (name : Text)
    (arguments : List Text) : State where
  store
  directory
  name
  arguments
  values := environment
  line := 1
  status := 0
  ended := false
  streams := ⟨.output, .errors, []⟩
  output := []
  errors := []
  captured := []

/-- The shell with a status. -/
def withStatus (sh : State) (status : Int) : State :=
  { sh with status }

/-- Sets a variable. -/
def set (sh : State) (name value : Text) : State :=
  { sh with values := (name, value) :: sh.values.filter (fun x => x.1 ≠ name) }

/-! ## Printing -/

/-- Sends bytes to a sink. -/
def send (sh : State) (bytes : Bytes) : Sink → State
  | .output => { sh with output := sh.output ++ bytes }
  | .errors => { sh with errors := sh.errors ++ bytes }
  | .captured => { sh with captured := sh.captured ++ bytes }
  | .nowhere => sh
  | .file p =>
    let old := (sh.store.read sh.directory p).toOption.getD []
    match sh.store.write sh.directory p (old ++ bytes) with
    | .ok store => { sh with store }
    | .error _ => sh

/-- Prints bytes. -/
def print (sh : State) (bytes : Bytes) : State :=
  sh.send bytes sh.streams.output

/-- Complains to the user, with a status. -/
def complain (sh : State) (status : Int) (complaint : String) : State :=
  let text := s!": {sh.line}: {complaint}\n"
  { sh with status }.send (Text.encode (sh.name ++ text.toList)) sh.streams.errors

/-! ## What words become -/

/-- The value of a parameter; one that is not set has an empty one. -/
def value (sh : State) (name : Text) : Text :=
  match name with
  | ['@'] | ['*'] => spaced sh.arguments
  | ['#'] => (toString sh.arguments.length).toList
  | ['?'] => (toString sh.status).toList
  -- the number of the script is not known, but its sign is
  | ['$'] => ['$', '$']
  | ['0'] => sh.name
  | _ =>
    match (String.ofList name).toNat? with
    | some n => sh.arguments[n - 1]?.getD []
    | none => (sh.values.lookup name).getD []

/-- The text of a word that is not split. -/
def wordText (sh : State) (w : Word) : Text :=
  w.flatMap fun part => match part with
    | .literal t _ => t
    | .parameter name _ => sh.value name

/-- A part of a field, or the end of one. -/
inductive Chunk
  | text (t : Text)
  | cut
deriving DecidableEq, Repr

/-- The parts of fields in a part of a word.  In quotes each argument is a field of its own. -/
def chunks (sh : State) : WordPart → List Chunk
  | .literal t _ => [.text t]
  | .parameter ['@'] true => (sh.arguments.map .text).intersperse .cut
  | .parameter name true => [.text (sh.value name)]
  | .parameter name false =>
    (sh.value name).map fun c => if [' ', '\t', '\n'].contains c then .cut else .text [c]

/-- The fields that parts make up; `open?` is the field that the first part belongs to. -/
def assemble (open? : Option Text) : List Chunk → List Text
  | [] => open?.toList
  | .text t :: r => assemble (some (open?.getD [] ++ t)) r
  | .cut :: r => open?.toList ++ assemble none r

/-- The fields that words become. -/
def fields (sh : State) (words : List Word) : List Text :=
  words.flatMap (fun w => assemble none (w.flatMap sh.chunks))

/-! ## Redirection -/

/-- The file for whatever is printed without being wanted. -/
def nullDevice : Text := "/dev/null".toList

/-- The words for a file that cannot be opened. -/
def openingComplaint (reads : Bool) : StoreError → String
  | .notFound | .notDirectory => if reads then "No such file" else "Directory nonexistent"
  | e => complaintOf e

/-- Opens a file for output; what it held is dropped unless the output is appended. -/
def openOutput (sh : State) (append : Bool) (t : Text) : Except StoreError (State × Sink) := do
  if t = nullDevice then return (sh, .nowhere)
  if t.isEmpty then throw .notFound
  let old := if append then (sh.store.read sh.directory (pathOf t)).toOption.getD [] else []
  let store ← sh.store.write sh.directory (pathOf t) old
  return ({ sh with store }, .file (pathOf t))

/-- Opens the streams of a command; if one cannot be opened, there are none. -/
def openStreams (sh : State) (st : Streams) : List Redirect → State × Option Streams
  | [] => (sh, some st)
  | .duplicate stream other :: r =>
    match st.sink? other with
    | some sink => openStreams sh (st.set stream sink) r
    | none => (sh.complain 2 s!"{other}: Bad file descriptor", none)
  | .output stream append target :: r =>
    let t := sh.wordText target
    match sh.openOutput append t with
    | .ok (sh, sink) => openStreams sh (st.set stream sink) r
    | .error e =>
      (sh.complain 2 s!"cannot create {String.ofList t}: {openingComplaint false e}", none)
  | .input source :: r =>
    let t := sh.wordText source
    match if t.isEmpty then .error .notFound else sh.store.read sh.directory (pathOf t) with
    | .ok content => openStreams sh { st with input := content } r
    | .error e =>
      if t = nullDevice then openStreams sh { st with input := [] } r
      else (sh.complain 2 s!"cannot open {String.ofList t}: {openingComplaint true e}", none)

/-- Runs an action with redirected streams. -/
def redirecting (sh : State) (rs : List Redirect) (action : State → State) : State :=
  match sh.openStreams sh.streams rs with
  | (opened, some streams) => { action { opened with streams } with streams := sh.streams }
  | (opened, none) => opened

/-! ## Simple commands -/

/-- Runs a compiled program, called by some name. -/
def runCompiled (sh : State) (called program : String) (arguments : List Text) : State :=
  let o := runUtility ⟨called, sh.store, sh.directory, sh.streams.input⟩ program arguments
  let printed := { sh with store := o.store }.print o.output
  (printed.send o.errors sh.streams.errors).withStatus o.status

/-- Runs the program of a name.  A script is not run by another one. -/
def runProgram (sh : State) (name : String) (arguments : List Text) : State :=
  let searchPath := ((sh.values.lookup "PATH".toList).map String.ofList).getD "/usr/bin:/bin"
  let file? := if name.toList.contains '/' then some name
    else searchFor sh.store sh.directory searchPath name
  match file?.map (fun file => sh.store.find sh.directory (Path.exact file)) with
  | some (.ok (.file content true)) =>
    match compiledName? content with
    | some program => sh.runCompiled name program arguments
    | none => sh.complain 126 s!"{name}: Exec format error"
  | some (.ok _) => sh.complain 126 s!"{name}: Permission denied"
  | _ => sh.complain 127 s!"{name}: not found"

/-- Ends the script, with the status that is named. -/
def exit (sh : State) (arguments : List Text) : State :=
  match arguments.head? with
  | none => { sh with ended := true }
  | some t =>
    match (String.ofList t).toNat? with
    | some n => { sh with status := n % 256, ended := true }
    | none => { sh.complain 2 s!"exit: Illegal number: {String.ofList t}" with ended := true }

/-- The signals that a script may send to itself. -/
def signals : List (String × Nat) :=
  [("-1", 1), ("-HUP", 1), ("-2", 2), ("-INT", 2), ("-9", 9), ("-KILL", 9), ("-15", 15),
    ("-TERM", 15)]

/-- Ends the script by a signal. -/
def kill (sh : State) (arguments : List Text) : State :=
  match arguments.map String.ofList with
  | ["$$"] => { sh with status := -15, ended := true }
  | [signal, "$$"] =>
    match signals.lookup signal with
    | some n => { sh with status := -n, ended := true }
    | none => sh.complain 2 s!"kill: Illegal option {String.ofList (signal.toList.take 2)}"
  | _ => (sh.complain 2 "kill: No such process\n").withStatus 1

/-- Runs a command given by its name and arguments. -/
def runFields (sh : State) (name : String) (arguments : List Text) : State :=
  match name with
  | ":" | "true" => sh.withStatus 0
  | "false" => sh.withStatus 1
  | "echo" => (sh.print (echo arguments)).withStatus 0
  | "printf" =>
    let p := printf arguments
    let done := (sh.print p.bytes).withStatus 0
    (p.complaint.map (fun c => done.complain 2 s!"printf: {c}")).getD done
  | "exit" => sh.exit arguments
  | "kill" => sh.kill arguments
  | "shift" => { sh with arguments := sh.arguments.tail, status := 0 }
  | _ => sh.runProgram name arguments

/-! ## Commands -/

/-- Runs a body for each value of a variable until the script ends. -/
def forValues (name : Text) (body : State → State) (sh : State) : List Text → State
  | [] => sh
  | v :: vs =>
    let done := body (sh.set name v)
    if done.ended then done else forValues name body done vs

/-- The shell behind a command in a shell of its own: what that did to files and printed stays, and
so does its status. -/
def behind (sh inner : State) : State :=
  { sh with
    store := inner.store
    status := inner.status
    output := inner.output
    errors := inner.errors }

mutual

/-- Runs a command. -/
def run (sh : State) : Command → State
  | .simple line words rs =>
    { sh with line }.redirecting rs fun sh =>
      match sh.fields words with
      | [] => sh.withStatus 0
      | name :: arguments => sh.runFields (String.ofList name) arguments
  | .group line body rs => { sh with line }.redirecting rs fun sh => runAll sh body
  | .each name words body =>
    let values := (words.map sh.fields).getD sh.arguments
    forValues name (fun sh => runAll sh body) (sh.withStatus 0) values
  | .andThen first second =>
    let done := run sh first
    if done.status = 0 && !done.ended then run done second else done
  | .orElse first second =>
    let done := run sh first
    if done.status ≠ 0 && !done.ended then run done second else done
  | .pipe first second =>
    let streams := { sh.streams with output := .captured }
    let left := run { sh with captured := [], streams } first
    -- an end on the left does not end the script
    let between := sh.behind left
    let right := run { between with streams := { sh.streams with input := left.captured } } second
    { sh.behind right with captured := right.captured }

/-- Runs commands one after the other until the script ends. -/
def runAll (sh : State) : List Command → State
  | [] => sh
  | c :: cs =>
    let done := run sh c
    if done.ended then done else runAll done cs

end

/-- Runs a script.  One that cannot be read is refused as a whole. -/
def runScript (sh : State) (script : Text) : State :=
  match readScript? script with
  | some cs => runAll sh cs
  | none => sh.complain 2 "Syntax error"

end State

/-! ## Tools -/

/-- The programs that interpret scripts. -/
def interpreters : List String := ["sh", "dash", "bash"]

/-- The path of the interpreter in the first line of a script, and its argument. -/
def interpreter? (script : Text) : Option (Text × Text) :=
  match script with
  | '#' :: '!' :: r =>
    let line := (r.takeWhile (· ≠ '\n')).dropWhile (fun c => c = ' ' || c = '\t')
    let path := line.takeWhile (fun c => c ≠ ' ' && c ≠ '\t')
    some (path, Text.trim (line.drop path.length))
  | _ => none

/-- Is this the path of a known interpreter, or of a program that looks for one? -/
def interprets (s : Store) (directory : Location) (path argument : Text) : Bool :=
  match s.find directory (pathOf path) with
  | .ok (.file content true) =>
    match compiledName? content with
    | some "env" => interpreters.contains (String.ofList argument)
    | some name => interpreters.contains name
    | none => false
  | _ => false

/-- The text of a script that a known interpreter runs. -/
def scriptOf (s : Store) (directory : Location) (content : Bytes) : Except StoreError Text := do
  let some script := Text.decode? content | throw .notExecutable
  let some (path, argument) := interpreter? script | throw .notExecutable
  if !isExecutable s directory (pathOf path) then throw .notFound
  if !interprets s directory path argument then throw .notExecutable
  return script

/-- The most bytes that an argument of a program may have. -/
def mostArgumentBytes : Nat := 131071

/-- The most bytes that all arguments of a program may have, with nine more for each of them. -/
def mostBytesOfAll : Nat := 2097152

/-- Can a program be started with these arguments? -/
def areShortEnough (arguments : List String) : Bool :=
  let sizes := arguments.map String.utf8ByteSize
  let whole := sizes.foldl (fun n size => n + size + 9) 0
  sizes.all (· ≤ mostArgumentBytes) && whole ≤ mostBytesOfAll

/-- Runs the program at a path, called by some name, with arguments.  It cannot be started if it is
no executable file or no script of a known interpreter, or if its arguments are too long. -/
def runTool (s : Store) (directory : Location) (environment : List (String × String))
    (called file : String) (arguments : List String) : Except StoreError (Result × Store) := do
  if !areShortEnough arguments then throw .argumentTooLong
  match ← s.find directory (Path.exact file) with
  | .directory => throw .permissionDenied
  | .file _ false => throw .permissionDenied
  | .file content true =>
    let passed := environment.map (fun v => (v.1.toList, v.2.toList))
    let arguments := arguments.map String.toList
    let shell := State.start s directory passed file.toList arguments
    let done ← match compiledName? content with
      | some program => pure (shell.runCompiled called program arguments)
      | none => (scriptOf s directory content).map shell.runScript
    return (⟨done.status, done.output, done.errors⟩, done.store)

end WasmPackage.Shell
