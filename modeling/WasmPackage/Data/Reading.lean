import WasmPackage.Decimal.Numeral

/-!
# Reading data files

Why a data file cannot be read.  It is read from its start, and the first fault that is met counts.
-/

namespace WasmPackage

/-- Why a data file cannot be read: it is not of its form, an integer in it is too long, or values
stand too deep in one another. -/
inductive ReadError
  | malformed
  | numeral (error : Decimal.NumeralError)
  | tooDeep
deriving DecidableEq, Repr

/-- What was found, or else the file is not of its form. -/
def orMalformed {α : Type} : Option α → Except ReadError α
  | some a => .ok a
  | none => .error .malformed

/-- The value of a decimal digit. -/
def digitValue (d : Char) : Nat :=
  d.toNat - '0'.toNat

/-- The number that decimal digits write. -/
def digitsValue (ds : List Char) : Nat :=
  ds.foldl (fun n d => 10 * n + digitValue d) 0

/-- The integer that decimal digits with a sign write. -/
def integerOf (negative : Bool) (ds : List Char) : Except ReadError Int :=
  match Decimal.numeral digitValue ds with
  | .ok n => .ok (if negative then -(n : Int) else n)
  | .error e => .error (.numeral e)

end WasmPackage
