import WasmPackage.Data.Value

/-!
# Offset tables

A value type of the bindings lies in memory as a control word and a fixed number of 32-bit floats.
The offset table gives that number for each type.  It is extended by settings, and no extension may
change a number that it holds.
-/

namespace WasmPackage

/-- The number of floats of each value type, in the order in which the types were added. -/
structure OffsetTable where
  entries : List (String × Nat)
deriving DecidableEq, Repr

/-- Why an entry is refused. -/
inductive OffsetError
  | invalidName (name : String)
  | notPositive (name : String) (count : Value String)
  | fixed (name : String) (count other : Nat)
  | unwritable (error : WritingError)
deriving Repr

/-- The words for a refusal. -/
def OffsetError.message : OffsetError → String
  | invalidName name => s!"Invalid value type name in offset table: {quotedString name}"
  | notPositive name count =>
    s!"Offset table entry {name} must be a positive integer, got {count.name}"
  | fixed name count other => s!"Offset table entry {name} is fixed at {count}, got {other}"
  | unwritable error => error.message

namespace OffsetTable

/-- The table without entries. -/
def empty : OffsetTable := ⟨[]⟩

/-- The value types that are always there. -/
def standard : OffsetTable where
  entries := [("Matrix2", 4), ("Matrix2d", 6), ("Matrix3", 9), ("Matrix4", 16), ("Vector2", 2),
    ("Vector3", 3), ("Vector4", 4), ("Quaternion", 4), ("Quaternion2", 8)]

/-- The number of floats of a type. -/
def get? (t : OffsetTable) (name : String) : Option Nat :=
  t.entries.lookup name

/-- Does the table know a type? -/
def contains (t : OffsetTable) (name : String) : Bool :=
  (t.get? name).isSome

/-- The types of the table, in order. -/
def names (t : OffsetTable) : List String :=
  t.entries.map (·.1)

/-- The number of types. -/
def size (t : OffsetTable) : Nat :=
  t.entries.length

/-- Do two tables hold the same entries, in whatever order? -/
def sameEntries (t u : OffsetTable) : Bool :=
  t.size = u.size && t.entries.all (fun e => u.get? e.1 = some e.2)

/-- The refusal of a count; one that cannot be written cannot be named in it either. -/
def refusedCount [Limits] (name : String) (count : Value String) : OffsetError :=
  match count.fault? with
  | none => .notPositive name count
  | some e => .unwritable e

/-- The number that an entry gives, if its name is an identifier and its count a positive
integer. -/
def validCount [Limits] (name : String) (count : Value String) : Except OffsetError Nat :=
  if Text.isIdentifier name.toList then
    match count with
    | .int n => if 0 < n then .ok n.toNat else .error (refusedCount name count)
    | _ => .error (refusedCount name count)
  else .error (.invalidName name)

/-- The refusal of another count than the one that a type has. -/
def refusedChange (name : String) (count other : Nat) : OffsetError :=
  if Decimal.isWritable count && Decimal.isWritable other then .fixed name count other
  else .unwritable (.numeral .tooLongToWrite)

/-- The table with one more entry; an entry that is there already may be repeated. -/
def add [Limits] (t : OffsetTable) (entry : String × Value String) :
    Except OffsetError OffsetTable := do
  let n ← validCount entry.1 entry.2
  match t.get? entry.1 with
  | none => return ⟨t.entries ++ [(entry.1, n)]⟩
  | some m => if m = n then return t else throw (refusedChange entry.1 m n)

/-- The table with more entries.  If one of them is refused, none is added. -/
def extend [Limits] (t : OffsetTable) (entries : Table String) : Except OffsetError OffsetTable :=
  entries.foldlM add t

/-- The table of some entries. -/
def ofEntries [Limits] (entries : Table String) : Except OffsetError OffsetTable :=
  empty.extend entries

/-- Can all numbers of the table be written? -/
def isWritable (t : OffsetTable) : Bool :=
  t.entries.all (fun e => Decimal.isWritable e.2)

/-- The table as messages name it. -/
def name (t : OffsetTable) : String :=
  let entries := t.entries.map (fun e => (e.1, Value.int e.2))
  s!"OffsetTable({(Value.table entries).name})"

end OffsetTable

end WasmPackage
