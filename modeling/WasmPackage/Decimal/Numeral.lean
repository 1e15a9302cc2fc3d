/-!
# Long integers

Integers have no bounds, but there is one for their decimal digits: none with more is read, and none
is written.
-/

namespace WasmPackage.Decimal

/-- The most decimal digits that an integer may be read or written with. -/
def mostDigits : Nat := 4300

/-- What there is to say against an integer. -/
inductive NumeralError
  | tooLongToRead (digits : Nat)
  | tooLongToWrite
deriving DecidableEq, Repr

/-- The words for it. -/
def NumeralError.message (e : NumeralError) : String :=
  let what := match e with
    | .tooLongToRead digits => s!": value has {digits} digits"
    | .tooLongToWrite => ""
  s!"Exceeds the limit ({mostDigits} digits) for integer string conversion{what}; " ++
    "use sys.set_int_max_str_digits() to increase the limit"

/-- The number that decimal digits stand for, if they are not too many; zeros in front count. -/
def numeral (value : Char → Nat) (ds : List Char) : Except NumeralError Nat :=
  if ds.length ≤ mostDigits then .ok (ds.foldl (fun n d => 10 * n + value d) 0)
  else .error (.tooLongToRead ds.length)

/-- Has the integer few enough digits to be written? -/
def isWritable (n : Int) : Bool :=
  n.natAbs < Nat.pow 10 mostDigits

end WasmPackage.Decimal
