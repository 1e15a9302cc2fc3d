import WasmPackage.Text.Basic

/-!
# Commands of tool scripts

A tool of the toolchain may be a shell script.  Of the shell's language only what such scripts need
is known: simple commands with parameters and redirections, groups, loops over words, pipes, and
commands joined by their success or failure.
-/

namespace WasmPackage.Shell

/-- A part of a word: characters as they stand, or a parameter.  Unquoted values are split at
blanks. -/
inductive WordPart
  | literal (t : Text) (quoted : Bool)
  | parameter (name : Text) (quoted : Bool)
deriving DecidableEq, Repr

/-- A word before its parameters are replaced. -/
abbrev Word := List WordPart

/-- Where a stream of a command goes to or comes from: a file, or another stream. -/
inductive Redirect
  | output (stream : Nat) (append : Bool) (target : Word)
  | duplicate (stream other : Nat)
  | input (source : Word)
deriving DecidableEq, Repr

/-- A command, with the line that it begins on where it may complain.  A loop without words goes
over the arguments of the script. -/
inductive Command
  | simple (line : Nat) (words : List Word) (redirects : List Redirect)
  | group (line : Nat) (body : List Command) (redirects : List Redirect)
  | each (name : Text) (words : Option (List Word)) (body : List Command)
  | andThen (first second : Command)
  | orElse (first second : Command)
  | pipe (first second : Command)
deriving Repr

end WasmPackage.Shell
