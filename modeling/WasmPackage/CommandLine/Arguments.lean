import WasmPackage.CommandLine.Options

/-!
# The command line

There are two commands: one polishes the package of a project, the other lists the offset table that
a project's settings give.
-/

namespace WasmPackage.CommandLine

/-- What a user asks for. -/
inductive Command
  | run (project : String) (packageDirectory outName : Option String)
      (dryRun skipsGeneratorCheck : Bool)
  | offsets (project : String)
deriving DecidableEq, Repr

/-- Why there is no command to carry out: the user asks for help, or the arguments make no sense. -/
inductive Usage
  | help
  | wrong
deriving DecidableEq, Repr

/-- The exit status that goes with it. -/
def Usage.status : Usage → Nat
  | help => 0
  | wrong => 2

/-- What the arguments of a command say: the positional argument, the values of options, latest
first, the switches, and whether anything is left over. -/
structure Collected where
  positional : Option String
  values : List (String × String)
  switches : List String
  hasExtras : Bool
deriving DecidableEq, Repr

/-- Nothing said yet. -/
def Collected.empty : Collected := ⟨none, [], [], false⟩

/-- What text behind the short option for help asks for.  Its letters are short options too, and
there is no other than the one for help. -/
def joinedHelp (t : Text) : Usage :=
  if !t.isEmpty && t.all (· = 'h') then .help else .wrong

/-- What an option for help asks for.  It takes no value, so that an equals sign joins letters to
the short option and makes no sense behind the long one. -/
def helpUsage (name : String) : Attachment → Usage
  | .nothing => .help
  | .value v => if name = "-h" then joinedHelp v.toList else .wrong
  | .joined t => joinedHelp t

/-- The value behind an equals sign.  The separator gives none, wherever it stands. -/
def valueOf (v : String) : String :=
  if v = "--" then "" else v

/-- Collects the arguments of a command that takes one positional argument at most. -/
def collect (c : Collected) : List (String × Role) → Except Usage Collected
  | [] => .ok c
  | (_, .unknown) :: r => collect { c with hasExtras := true } r
  | (_, .option name .help attached) :: _ => .error (helpUsage name attached)
  | (_, .option name .switch .nothing) :: r => collect { c with switches := name :: c.switches } r
  | (_, .option _ .switch _) :: _ => .error .wrong
  | (_, .option name .value (.value v)) :: r =>
    collect { c with values := (name, valueOf v) :: c.values } r
  | (_, .option name .value .nothing) :: (v, .positional) :: r =>
    collect { c with values := (name, v) :: c.values } r
  | (_, .option _ .value _) :: _ => .error .wrong
  -- behind the separator every argument is a positional one, whatever it looks like
  | (_, .separator) :: (v, _) :: r =>
    if c.positional.isSome then .ok { c with hasExtras := true }
    else if r.isEmpty then .ok { c with positional := some v }
    else .ok { c with positional := some v, hasExtras := true }
  | [(_, .separator)] => .ok { c with hasExtras := c.hasExtras || c.positional.isSome }
  | (v, .positional) :: (_, .separator) :: r =>
    if c.positional.isSome || !r.isEmpty then .ok { c with hasExtras := true }
    else .ok { c with positional := some v }
  | (v, .positional) :: r =>
    if c.positional.isSome then collect { c with hasExtras := true } r
    else collect { c with positional := some v } r
termination_by args => args.length

/-- The options for polishing. -/
def runOptions : List OptionSpec :=
  helpOptions ++ [("--pkg-dir", .value), ("--out-name", .value), ("--dry-run", .switch),
    ("--skip-generator-check", .switch)]

/-- What the arguments behind a command say. -/
def collected (options : List OptionSpec) (arguments : List String) : Except Usage Collected :=
  match roles? options arguments with
  | none => .error .wrong
  | some roles => collect .empty roles

/-- The command of this name with its arguments. -/
def commandNamed (name : String) (arguments : List String) : Except Usage (Command × Bool) := do
  match name with
  | "run" =>
    let c ← collected runOptions arguments
    let project := c.positional.getD "."
    return (.run project (c.values.lookup "--pkg-dir") (c.values.lookup "--out-name")
      (c.switches.contains "--dry-run") (c.switches.contains "--skip-generator-check"),
      c.hasExtras)
  | "offsets" =>
    let c ← collected helpOptions arguments
    return (.offsets (c.positional.getD "."), c.hasExtras)
  | _ => throw .wrong

/-- Reads arguments up to the name of a command, which takes all that follow. -/
def commandIn (hasExtras : Bool) : List String → Except Usage Command
  | [] => .error .wrong
  | a :: r =>
    match role? helpOptions a with
    | some (.option name _ attached) => .error (helpUsage name attached)
    -- an unknown option is reported only when the command has been read
    | some .unknown => commandIn true r
    | some .positional => do
      let (c, more) ← commandNamed a r
      if hasExtras || more then throw .wrong else return c
    | some .separator | none => .error .wrong

/-- The command that the arguments of the program ask for. -/
def parseArguments (arguments : List String) : Except Usage Command :=
  commandIn false arguments

end WasmPackage.CommandLine
