/-!
# Limits of depth

Nested text is read and written by calls in calls.  How many calls may be open at a time depends on
the machine that runs the program and on what has called it, so this is a parameter of the program.
-/

namespace WasmPackage

/-- How deep what the program reads and writes may be nested.  Where something goes deeper the
program gives up. -/
class Limits where
  /-- How many literals and substitutions of a script may be open inside of a literal. -/
  literals : Nat
  /-- How many lists and tables of a value may stand in one another when the value is written. -/
  values : Nat
  /-- How many lists and objects of a JSON text may stand in one another. -/
  objects : Nat
  /-- How many calls may be open for the values of a TOML text that stand in one another. -/
  settings : Nat
  /-- How many lists of authors may stand in one another. -/
  authors : Nat

/-- The limits where a thousand calls may be open, a few of which belong to the callers.  Only the
program that is run has them, and results that hold of one input; all others hold for any limits. -/
instance usualLimits : Limits where
  literals := 989
  values := 988
  objects := 985
  settings := 984
  authors := 329

end WasmPackage
