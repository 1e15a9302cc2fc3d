import WasmPackage.Data.Moment
import WasmPackage.Decimal.Numeral
import WasmPackage.Decimal.Shortest
import WasmPackage.Limits
import WasmPackage.Text.CodeText

/-!
# Values of data files

Manifests and package descriptions hold values of these kinds.  `τ` is the type of their texts:
strings, or texts in which half of a surrogate pair may stand.  A table keeps its entries in the
order in which their keys first came, and holds each key once.
-/

namespace WasmPackage

/-- A value of a data file. -/
inductive Value (τ : Type)
  | null
  | bool (b : Bool)
  | int (n : Int)
  | float (parts : Decimal.FloatParts)
  | text (t : τ)
  | moment (m : Moment)
  | list (items : List (Value τ))
  | table (entries : List (τ × Value τ))
deriving Repr, Inhabited

/-- Why a value cannot be written: an integer in it is too long, or values stand too deep in one
another. -/
inductive WritingError
  | numeral (error : Decimal.NumeralError)
  | tooDeep
deriving DecidableEq, Repr

/-- The words for it. -/
def WritingError.message : WritingError → String
  | numeral error => error.message
  | tooDeep => "values nested too deep"

/-- The entries of a table. -/
abbrev Table (τ : Type) := List (τ × Value τ)

/-- Sets the value of a key; a new key comes last. -/
def Table.set {τ : Type} [DecidableEq τ] (key : τ) (v : Value τ) : Table τ → Table τ
  | [] => [(key, v)]
  | (k, w) :: r => if k = key then (k, v) :: r else (k, w) :: Table.set key v r

namespace Value

/-- Floating-point numbers are written with a point from `1e-4` up to `1e16`. -/
def floatStyle : Decimal.FloatStyle := ⟨-4, 15, "nan", "inf"⟩

mutual

/-- A value as messages name it, with its texts in quotes. -/
def nameWith {τ : Type} (quote : τ → String) : Value τ → String
  | null => "None"
  | bool b => if b then "True" else "False"
  | int n => toString n
  | float parts => floatStyle.render parts
  | text t => quote t
  | moment m => m.name
  | list items => "[" ++ ", ".intercalate (itemNames quote items) ++ "]"
  | table entries => "\x7b" ++ ", ".intercalate (entryNames quote entries) ++ "\x7d"

/-- The items of a list as messages name them. -/
def itemNames {τ : Type} (quote : τ → String) : List (Value τ) → List String
  | [] => []
  | v :: r => v.nameWith quote :: itemNames quote r

/-- The entries of a table as messages name them. -/
def entryNames {τ : Type} (quote : τ → String) : List (τ × Value τ) → List String
  | [] => []
  | (key, v) :: r => s!"{quote key}: {v.nameWith quote}" :: entryNames quote r

end

/-- A value of strings as messages name it. -/
def name (v : Value String) : String :=
  v.nameWith quotedString

mutual

/-- What keeps a value from being written first, where lists and tables may stand in one another
`room` times. -/
def writingFault? {τ : Type} (room : Nat) : Value τ → Option WritingError
  | int n => if Decimal.isWritable n then none else some (.numeral .tooLongToWrite)
  | list items => if room = 0 then some .tooDeep else itemFault? (room - 1) items
  | table entries => if room = 0 then some .tooDeep else entryFault? (room - 1) entries
  | _ => none

/-- What keeps the items of a list from being written first. -/
def itemFault? {τ : Type} (room : Nat) : List (Value τ) → Option WritingError
  | [] => none
  | v :: r => v.writingFault? room <|> itemFault? room r

/-- What keeps the values in a table from being written first. -/
def entryFault? {τ : Type} (room : Nat) : List (τ × Value τ) → Option WritingError
  | [] => none
  | (_, v) :: r => v.writingFault? room <|> entryFault? room r

end

/-- What keeps a value from being written. -/
def fault? [Limits] {τ : Type} (v : Value τ) : Option WritingError :=
  v.writingFault? Limits.values

mutual

/-- The value with all its texts changed. -/
def map {τ σ : Type} (f : τ → σ) : Value τ → Value σ
  | null => .null
  | bool b => .bool b
  | int n => .int n
  | float parts => .float parts
  | text t => .text (f t)
  | moment m => .moment m
  | list items => .list (mapItems f items)
  | table entries => .table (mapEntries f entries)

/-- The items of a list with all texts changed. -/
def mapItems {τ σ : Type} (f : τ → σ) : List (Value τ) → List (Value σ)
  | [] => []
  | v :: r => v.map f :: mapItems f r

/-- The entries of a table with all texts changed. -/
def mapEntries {τ σ : Type} (f : τ → σ) : List (τ × Value τ) → List (σ × Value σ)
  | [] => []
  | (key, v) :: r => (f key, v.map f) :: mapEntries f r

end

/-- A value written out as text: a text is itself, a moment is as in settings. -/
def plain : Value CodeText → CodeText
  | text t => t
  | moment m => .ofString m.text
  | v => .ofString (v.nameWith CodeText.quoted)

/-- Does the value count as given?  Empty values, zeros and `false` do not. -/
def isGiven : Value CodeText → Bool
  | null => false
  | bool b => b
  | int n => n ≠ 0
  | float parts =>
    match parts with
    | .zero _ => false
    | _ => true
  | text t => !t.isEmpty
  | moment _ => true
  | list items => !items.isEmpty
  | table entries => !entries.isEmpty

end Value

end WasmPackage
