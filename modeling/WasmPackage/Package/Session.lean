import WasmPackage.Package.Failure

/-!
# Sessions

A run sees the store, its working directory and its environment.  It leaves behind the store, the
lines it said to the user, and the steps it took with the tools.  All of it stays when the run
fails.
-/

namespace WasmPackage

/-- A step with the tools: they were found, with flags for the optimizer, or one was called. -/
inductive ToolStep
  | found (flags : List String)
  | optimize (binary : Bytes)
  | disassemble (binary : Bytes)
  | assemble (text : Text)
deriving DecidableEq, Repr

/-- How much a line to the user matters. -/
inductive NoteLevel
  | note
  | warning
  | error
deriving DecidableEq, Repr

/-- What a run sees and leaves behind. -/
structure Session where
  store : Store
  directory : Location
  environment : List (String × String)
  said : List String
  steps : List ToolStep
deriving DecidableEq, Repr

/-- A step of a run: it may fail, and leaves a session behind in any case. -/
abbrev Action (α : Type) := ExceptT Failure (StateM Session) α

namespace Session

/-- The value of an environment variable. -/
def environmentValue? (s : Session) (name : String) : Option String :=
  s.environment.lookup name

/-- Does the environment ask for no notes?  Warnings and errors are said all the same. -/
def isQuiet (s : Session) : Bool :=
  let value := (s.environmentValue? "WASM_POLISH_QUIET").getD ""
  let word := (Text.trim value.toList).map Char.toLower
  ["1", "true", "yes", "on"].contains (String.ofList word)

/-- A line to the user. -/
def line (level : NoteLevel) (message : String) : String :=
  match level with
  | .note => s!"[wasm-polish] {message}"
  | .warning => s!"[wasm-polish] warning: {message}"
  | .error => s!"[wasm-polish] error: {message}"

/-- The session with one more line said, unless it is a note that nobody wants. -/
def say (s : Session) (level : NoteLevel) (message : String) : Session :=
  if level = .note && s.isQuiet then s else { s with said := s.said ++ [line level message] }

end Session

namespace Action

/-- Says a line to the user. -/
def say (level : NoteLevel) (message : String) : Action Unit :=
  modify (·.say level message)

/-- Notes a step with the tools. -/
def record (step : ToolStep) : Action Unit :=
  modify (fun s => { s with steps := s.steps ++ [step] })

/-- The outcome of a computation, as a step of a run. -/
def ofExcept {ε α : Type} (failure : ε → Failure) : Except ε α → Action α
  | .ok a => pure a
  | .error e => throw (failure e)

/-- The outcome of an operation on the store, as a step of a run.  A name that no file can have is a
failure of its own, whatever it is the name of. -/
def ofStore {α : Type} (failure : StoreError → Failure) : Except StoreError α → Action α :=
  ofExcept (fun e => if e = .zeroInName then .store e else failure e)

/-- Changes the store, or fails and leaves it as it is. -/
def changeStore (failure : StoreError → Failure) (f : Store → Except StoreError Store) :
    Action Unit := do
  let s ← get
  set { s with store := ← ofStore failure (f s.store) }

/-- Runs an action with a new directory in a directory, and removes that and all in it afterwards,
also when the action fails. -/
def withDirectory {α : Type} (failure : StoreError → Failure) (parent : Path) (stem : String)
    (action : Path → Action α) : Action α := do
  let s ← get
  let parentAt ← ofStore failure (s.store.locate s.directory parent)
  let path := parent.child (s.store.freshName parentAt stem)
  let (store, location) ← ofStore failure (s.store.makeDirectory s.directory path)
  set { s with store }
  -- the outcome is held back until the directory is gone
  let run : StateM Session (Except Failure α) := do
    let result ← (action path).run
    modify (fun s => { s with store := s.store.eraseTree location })
    return result
  ExceptT.mk run

end Action

end WasmPackage
