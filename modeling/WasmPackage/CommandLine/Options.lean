import WasmPackage.Text.Classes

/-!
# Options on the command line

An argument is an option, or a positional one, or the mark behind which all are positional.  A long
option may be shortened as long as only one option begins so, and may have its value behind an
equals sign.
-/

namespace WasmPackage.CommandLine

/-- What an option does: it asks for help, takes a value, or is a switch. -/
inductive OptionKind
  | help
  | value
  | switch
deriving DecidableEq, Repr

/-- An option: how it is written, and what it does. -/
abbrev OptionSpec := String × OptionKind

/-- The options that every command has. -/
def helpOptions : List OptionSpec := [("-h", .help), ("--help", .help)]

/-- What is attached to an option: nothing, a value behind an equals sign, or text joined to a short
option. -/
inductive Attachment
  | nothing
  | value (v : String)
  | joined (t : Text)
deriving DecidableEq, Repr

/-- The use that an argument turns out to have.  An option may be unknown; a known one may have
something attached. -/
inductive Role
  | positional
  | separator
  | unknown
  | option (name : String) (kind : OptionKind) (attached : Attachment)
deriving DecidableEq, Repr

/-- The parts of an argument around its first equals sign. -/
def splitEquals (argument : Text) : Text × Option Text :=
  let name := argument.takeWhile (· ≠ '=')
  match argument.drop name.length with
  | _ :: v => (name, some v)
  | [] => (name, none)

/-- Is the argument a negative number, which is no option? -/
def isNegativeNumber : Text → Bool
  | '-' :: r =>
    let r := if r.getLast? = some '\n' then r.dropLast else r
    let whole := r.takeWhile isDecimal
    match r.drop whole.length with
    | [] => !whole.isEmpty
    | '.' :: fraction => !fraction.isEmpty && fraction.all isDecimal
    | _ => false
  | _ => false

/-- The value behind an equals sign, if there is one. -/
def attachedValue : Option Text → Attachment
  | some v => .value (String.ofList v)
  | none => .nothing

/-- The options that an argument may be short for, with what is attached to it. -/
def abbreviated (options : List OptionSpec) (argument : Text) : List Role :=
  match argument with
  | '-' :: '-' :: _ =>
    let (name, v) := splitEquals argument
    (options.filter (fun o => Text.startsWith o.1.toList name)).map
      (fun o => .option o.1 o.2 (attachedValue v))
  | '-' :: c :: r =>
    options.filterMap fun o =>
      if o.1.toList = ['-', c] then some (.option o.1 o.2 (.joined r))
      else if Text.startsWith o.1.toList argument then some (.option o.1 o.2 .nothing)
      else none
  | _ => []

/-- The role of an argument before any separator; an ambiguous option has none. -/
def role? (options : List OptionSpec) (argument : String) : Option Role :=
  let t := argument.toList
  let named := fun (name : Text) => options.find? (fun o => o.1.toList = name)
  match t with
  | '-' :: _ :: _ =>
    if argument = "--" then some .separator
    else
      let (name, v) := splitEquals t
      match named t, v.bind (fun v => (named name).map (·, v)) with
      | some o, _ => some (.option o.1 o.2 .nothing)
      | none, some (o, v) => some (.option o.1 o.2 (attachedValue (some v)))
      | none, none =>
        match abbreviated options t with
        | [r] => some r
        | [] =>
          if isNegativeNumber t || t.contains ' ' then some .positional else some .unknown
        | _ => none
  | _ => some .positional

/-- The roles of all arguments; behind the separator every one is positional. -/
def roles? (options : List OptionSpec) : List String → Option (List (String × Role))
  | [] => some []
  | a :: r =>
    match role? options a with
    | none => none
    | some .separator => some ((a, .separator) :: r.map (·, .positional))
    | some role => (roles? options r).map ((a, role) :: ·)

end WasmPackage.CommandLine
