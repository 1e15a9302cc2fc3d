import WasmPackage.Bindings.OffsetTable
import WasmPackage.Data.Reading
import WasmPackage.Project.Version
import WasmPackage.Store.Basic

/-!
# Failures of a project's files

What can be wrong with the settings, the package's own data, and the version of the generator.  A
value of an unexpected kind in a place that no setting names is a failure of its own.
-/

namespace WasmPackage

/-- The table of the manifest that holds the settings, as messages name it. -/
def settingsName : String := "[package.metadata.wasm-polish]"

/-- What is wrong with the configuration. -/
inductive SettingError
  | unreadable (path : Path)
  | notObject (path : Path)
  | noName
  | noVersion
  | settingsNotTable
  | unknownKeys (keys : List String)
  | notText (key : String)
  | flagsNotTexts
  | offsetsNotTable
  | skipNotBool
  | notIdentifier (name : String)
  | offset (error : OffsetError)
deriving Repr

/-- The words for it. -/
def SettingError.message : SettingError → String
  | unreadable path => s!"Failed to read {path.text}"
  | notObject path => s!"{path.text} must contain a JSON object"
  | noName => "Package name missing from package.json and Cargo.toml"
  | noVersion => "Package version missing from package.json and Cargo.toml"
  | settingsNotTable => s!"{settingsName} must be a table"
  | unknownKeys keys => s!"Unknown {settingsName} keys: " ++ ", ".intercalate keys
  | notText key => s!"{key} must be a non-empty string"
  | flagsNotTexts => "optimize-flags must be a list of strings"
  | offsetsNotTable => "offsets must be a table of TypeName = count"
  | skipNotBool => "skip-generator-check must be a boolean"
  | notIdentifier name => s!"internal-init-name is not an identifier: {name}"
  | offset error => error.message

/-- What is wrong with the version of the generator. -/
inductive GeneratorError
  | notExact (version : String)
  | undetermined
  | unsupported (generator : Generator)
deriving DecidableEq, Repr

/-- The words for it. -/
def GeneratorError.message : GeneratorError → String
  | notExact version => s!"generator-version {quotedString version} is not an exact X.Y.Z version"
  | undetermined =>
    s!"could not determine the {generatorName} version (no Cargo.lock entry, " ++
      "no exact Cargo.toml requirement, no generator-version setting)"
  | unsupported generator =>
    s!"{generatorName} {generator.version.text} (from {generator.source.name}) is outside " ++
      s!"the supported range >={Version.firstSupported.text},<{Version.firstUnsupported.text}"

/-- A value of a data file that is not of the kind its place needs: no table to look a key up in, no
text for a name, a moment for a name, no list to go through. -/
inductive ShapeError
  | noTable
  | noText
  | momentName
  | noItems
deriving DecidableEq, Repr

/-- The words for it. -/
def ShapeError.message : ShapeError → String
  | noTable => "a value that should be a table is none"
  | noText => "a name is not a text"
  | momentName => "a name is a date or a time"
  | noItems => "a value that should be a list is none"

/-- Why a project cannot be read. -/
inductive ProjectError
  | config (error : SettingError)
  | generator (error : GeneratorError)
  | shape (error : ShapeError)
  | undecodable (path : Path)
  | numeral (error : Decimal.NumeralError)
  | tooDeep
  | store (error : StoreError)
deriving Repr

namespace ProjectError

/-- The words for a failure. -/
def message : ProjectError → String
  | config error => error.message
  | generator error => error.message
  | shape error => error.message
  | undecodable path => s!"{path.text}: not valid UTF-8 text"
  | numeral error => error.message
  | tooDeep => WritingError.tooDeep.message
  | store error => error.message

/-- The failure to read a data file. -/
def ofReading (path : Path) : ReadError → ProjectError
  | .malformed => .config (.unreadable path)
  | .numeral error => .numeral error
  | .tooDeep => .tooDeep

/-- The failure to write a value. -/
def ofWriting : WritingError → ProjectError
  | .numeral error => .numeral error
  | .tooDeep => .tooDeep

/-- The refusal of an offset in the settings. -/
def ofOffset : OffsetError → ProjectError
  | .unwritable error => .ofWriting error
  | error => .config (.offset error)

/-- Is the failure one that a run reports in a line of its own? -/
def isReported : ProjectError → Bool
  | config _ => true
  | generator _ => true
  | _ => false

end ProjectError

end WasmPackage
