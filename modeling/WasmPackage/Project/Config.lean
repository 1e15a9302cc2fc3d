import WasmPackage.Bindings.Glue
import WasmPackage.Data.Json
import WasmPackage.Data.Toml
import WasmPackage.Project.Metadata

/-!
# Configuration of a project

The settings stand in a table of the manifest; a caller may override some of them.  A file that is
not there counts as empty.
-/

namespace WasmPackage

/-- The flags of the optimizer if the settings give no others: its usual passes, without any that
would change the shape of the text that later edits look for, and with the names kept. -/
def defaultFlags : List String := ["-O", "--optimize-level", "0", "--shrink-level", "0", "-g"]

/-- Where the generator puts a package if the settings do not say. -/
def defaultPackageDirectory : String := "pkg"

/-- The keys of the settings. -/
def settingKeys : List String :=
  ["pkg-dir", "out-name", "internal-init-name", "copyright", "generator-version",
    "skip-generator-check", "optimize-flags", "offsets"]

/-- The configuration of a run; both paths begin at the root. -/
structure Config where
  root : Path
  packageDirectory : Path
  outName : CodeText
  metadata : Metadata
  offsets : OffsetTable
  internalName : String
  copyright : Option String
  generatorVersion : Option String
  skipsGeneratorCheck : Bool
  flags : List String
  manifest : Table String
deriving Repr

/-- The header of the shipped files. -/
def Config.header (c : Config) : CodeText :=
  licenseComment c.metadata (c.copyright.map .ofString)

/-- What a caller sets instead of the settings. -/
structure Overrides where
  packageDirectory : Option String
  outName : Option String
  skipsGeneratorCheck : Option Bool
deriving DecidableEq, Repr

/-! ## Files -/

/-- The text of a file with its lines ended by newlines, if the file is there. -/
def readText? (s : Store) (p : Path) : Except ProjectError (Option Text) := do
  if ← (s.contains [] p).mapError .store then
    let bytes ← (s.read [] p).mapError (fun _ => .config (.unreadable p))
    match Text.decode? bytes with
    | some t => return some t.withNewlines
    | none => throw (.undecodable p)
  else return none

/-- The table of a TOML file. -/
def readManifest [Limits] (s : Store) (p : Path) : Except ProjectError (Table String) := do
  match ← readText? s p with
  | none => return []
  | some t => (Toml.read t).mapError (.ofReading p)

/-- The value of a JSON file. -/
def readValue [Limits] (s : Store) (p : Path) : Except ProjectError (Value CodeText) := do
  match ← readText? s p with
  | none => return .table []
  | some t => (Json.read t).mapError (.ofReading p)

/-- The entries of the object that a JSON file holds. -/
def objectOf (p : Path) : Value CodeText → Except ProjectError (Table CodeText)
  | .table entries => .ok entries
  | _ => .error (.config (.notObject p))

/-- The object of a JSON file. -/
def readObject [Limits] (s : Store) (p : Path) : Except ProjectError (Table CodeText) := do
  objectOf p (← readValue s p)

/-! ## Settings -/

/-- The settings in a manifest. -/
def settingsOf (manifest : Table String) : Except ProjectError (Table String) := do
  let empty := Value.table []
  let found : Except ShapeError (Value String) := do
    let package := (manifest.lookup "package").getD empty
    (← package.entry "metadata" empty).entry "wasm-polish" empty
  match ← found.mapError .shape with
  | .table settings =>
    let unknown := (settings.map (·.1)).filter (fun k => !settingKeys.contains k)
    if unknown.isEmpty then return settings
    else throw (.config (.unknownKeys (unknown.mergeSort nameLE)))
  | _ => throw (.config .settingsNotTable)

/-- A setting that is a text with something in it, without the blanks around it. -/
def textSetting (settings : Table String) (key : String) : Except SettingError (Option String) :=
  match settings.lookup key with
  | none | some .null => .ok none
  | some (.text s) =>
    let t := Text.trim s.toList
    if t.isEmpty then .error (.notText key) else .ok (some (String.ofList t))
  | some _ => .error (.notText key)

/-- The texts of a list that holds nothing else. -/
def textsOf? : List (Value String) → Option (List String)
  | [] => some []
  | .text s :: r => (textsOf? r).map (s :: ·)
  | _ :: _ => none

/-- The setting for the flags of the optimizer. -/
def flagSetting (settings : Table String) : Except SettingError (List String) :=
  match settings.lookup "optimize-flags" with
  | none => .ok defaultFlags
  | some (.list vs) =>
    match textsOf? vs with
    | some flags => .ok flags
    | none => .error .flagsNotTexts
  | some _ => .error .flagsNotTexts

/-- The setting for further offsets. -/
def offsetSetting (settings : Table String) : Except SettingError (Table String) :=
  match settings.lookup "offsets" with
  | none => .ok []
  | some (.table entries) => .ok entries
  | some _ => .error .offsetsNotTable

/-- The setting for skipping the check of the generator. -/
def skipSetting (settings : Table String) : Except SettingError Bool :=
  match settings.lookup "skip-generator-check" with
  | none => .ok false
  | some (.bool b) => .ok b
  | some _ => .error .skipNotBool

/-- The name of the artifacts that a crate's name gives: hyphens become underscores. -/
def artifactName : Value CodeText → Except ShapeError CodeText
  | .text t => .ok (t.map (fun c => if c = .char '-' then .char '_' else c))
  | .moment _ => .error .momentName
  | _ => .error .noText

/-- An override, or else a text setting; an empty override counts as none. -/
def overriddenSetting (override : Option String) (settings : Table String) (key : String) :
    Except SettingError (Option String) :=
  -- the setting is not even looked at where there is an override
  match override.filter (· ≠ "") with
  | some s => .ok (some s)
  | none => textSetting settings key

/-! ## The configuration -/

/-- The path from the root for one that a user writes.  The system is asked about each of its names,
and is asked for none that cannot be one. -/
def resolvedPath (directory : Path) (written : String) : Except ProjectError Path :=
  let p := Path.ofString written
  if p.hasZero then .error (.store .zeroInName) else .ok (directory.resolve p)

/-- The configuration for a manifest, the npm description beside it, and a caller's overrides. -/
def configOf [Limits] (root : Path) (manifest settings : Table String) (npm : Table CodeText)
    (overrides : Overrides) : Except ProjectError Config := do
  let crate := match manifest.lookup "package" with
    | some (.table entries) => Value.mapEntries CodeText.ofString entries
    | _ => []
  let metadata ← Metadata.of npm crate
  let crateName := ((crate.lookup (.ofString "name")).getD .null).orElse (.text metadata.name)
  let outName ← match ←
      (overriddenSetting overrides.outName settings "out-name").mapError .config with
    | some name => pure (.ofString name)
    | none => (artifactName crateName).mapError .shape
  let flags ← (flagSetting settings).mapError .config
  let entries ← (offsetSetting settings).mapError .config
  let skip ← (skipSetting settings).mapError .config
  let internal ← (textSetting settings "internal-init-name").mapError .config
  let internal := internal.getD Bindings.defaultInternalName
  if !Text.isIdentifier internal.toList then throw (.config (.notIdentifier internal))
  let directory ←
    (overriddenSetting overrides.packageDirectory settings "pkg-dir").mapError .config
  let packageDirectory ← resolvedPath root (directory.getD defaultPackageDirectory)
  let offsets ← (OffsetTable.standard.extend entries).mapError .ofOffset
  let copyright ← (textSetting settings "copyright").mapError .config
  let generatorVersion ← (textSetting settings "generator-version").mapError .config
  return {
    root
    packageDirectory
    outName
    metadata
    offsets
    internalName := internal
    copyright
    generatorVersion
    skipsGeneratorCheck := overrides.skipsGeneratorCheck.getD skip
    flags
    manifest }

/-- The configuration of the project at a path, as seen from a working directory. -/
def configFor [Limits] (s : Store) (directory : Path) (project : String) (overrides : Overrides) :
    Except ProjectError Config := do
  let root ← resolvedPath directory project
  let manifest ← readManifest s (root.child "Cargo.toml")
  let settings ← settingsOf manifest
  let npm ← readObject s (root.child "package.json")
  configOf root manifest settings npm overrides

end WasmPackage
