import WasmPackage.Decimal.Numeral
import WasmPackage.Text.Classes

/-!
# Versions of the generator

A version is three numbers.  The passes know the output of a range of versions of the bindings
generator, and no other.
-/

namespace WasmPackage

/-- A version number. -/
structure Version where
  major : Nat
  minor : Nat
  patch : Nat
deriving DecidableEq, Repr

namespace Version

/-- The written form of a version. -/
def text (v : Version) : String :=
  s!"{v.major}.{v.minor}.{v.patch}"

/-- The order of versions. -/
def less (v w : Version) : Bool :=
  v.major < w.major || (v.major = w.major &&
    (v.minor < w.minor || (v.minor = w.minor && v.patch < w.patch)))

/-- The first version that the passes know. -/
def firstSupported : Version := ⟨0, 2, 25⟩

/-- The first version behind those that the passes know. -/
def firstUnsupported : Version := ⟨0, 2, 40⟩

/-- Do the passes know the output of this version? -/
def isSupported (v : Version) : Bool :=
  !v.less firstSupported && v.less firstUnsupported

/-! ## Reading -/

/-- The decimal digits at the start of the text, if there are any, and the text behind them. -/
def digits? (t : Text) : Option (Text × Text) :=
  let ds := t.takeWhile isDecimal
  if ds.isEmpty then none else some (ds, t.drop ds.length)

/-- The number that decimal digits of any script write. -/
def number (ds : Text) : Except Decimal.NumeralError Nat :=
  Decimal.numeral (fun d => (decimalValue? d).getD 0) ds

/-- The text behind a point. -/
def behindPoint? : Text → Option Text
  | '.' :: r => some r
  | _ => none

/-- A version that is written out, each of its numbers by its digits. -/
structure Written where
  major : Text
  minor : Text
  patch : Text
deriving DecidableEq, Repr

/-- The version that is written out: the first number that is too long counts. -/
def Written.version (w : Written) : Except Decimal.NumeralError Version := do
  return ⟨← number w.major, ← number w.minor, ← number w.patch⟩

/-- Three numbers with points between them, and the text behind them. -/
def written? (t : Text) : Option (Written × Text) := do
  let (major, t) ← digits? t
  let (minor, t) ← digits? (← behindPoint? t)
  let (patch, t) ← digits? (← behindPoint? t)
  return (⟨major, minor, patch⟩, t)

/-- The text without a letter `v` at its start. -/
def dropLetter : Text → Text
  | 'v' :: r => r
  | t => t

/-- The text without an equals sign at its start. -/
def dropEquals : Text → Text
  | '=' :: r => r
  | t => t

/-- The version that a text begins with, perhaps behind an equals sign, if there is one. -/
def parse? (raw : String) : Except Decimal.NumeralError (Option Version) :=
  let t : Text := raw.toList
  match written? (dropLetter (dropEquals t.trimStart).trimStart) with
  | some (w, _) => w.version.map some
  | none => .ok none

/-- Does a requirement pin one release?  Only an equals sign does; without it newer releases may
take its place. -/
def isPin (raw : String) : Bool :=
  match Text.trimStart raw.toList with
  | '=' :: r =>
    match written? (dropLetter (Text.trimStart r)) with
    | some (_, rest) => rest.isBlank
    | none => false
  | _ => false

end Version

/-- The bindings generator. -/
def generatorName : String := "wasm-bindgen"

/-- Where the version of the generator was found. -/
inductive VersionSource
  | settings
  | lockFile
  | manifest
deriving DecidableEq, Repr

/-- The name of a source in messages. -/
def VersionSource.name : VersionSource → String
  | settings => "config"
  | lockFile => "Cargo.lock"
  | manifest => "Cargo.toml"

/-- The generator that wrote a package. -/
structure Generator where
  version : Version
  source : VersionSource
deriving DecidableEq, Repr

end WasmPackage
