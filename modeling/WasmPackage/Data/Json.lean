import WasmPackage.Data.Reading
import WasmPackage.Data.Value
import WasmPackage.Limits

/-!
# Reading JSON

A reader of JSON texts.  Beyond the standard it knows the numbers `NaN`, `Infinity` and `-Infinity`;
of two entries with one key the later value counts.  Half of a surrogate pair may stand by itself in
a string.
-/

namespace WasmPackage.Json

/-- The blanks between the parts of a JSON text. -/
def isSpace (c : Char) : Bool :=
  c = ' ' || c = '\t' || c = '\n' || c = '\r'

/-- The text behind leading blanks. -/
def skipSpace (t : Text) : Text :=
  t.dropWhile isSpace

/-- The value of a hexadecimal digit. -/
def hexValue? (c : Char) : Option Nat :=
  if c.isDigit then some (c.toNat - '0'.toNat)
  else if 'a' ≤ c && c ≤ 'f' then some (c.toNat - 'a'.toNat + 10)
  else if 'A' ≤ c && c ≤ 'F' then some (c.toNat - 'A'.toNat + 10)
  else none

/-- The number that `count` hexadecimal digits at the start of the text write. -/
def hexNumber? : Nat → Text → Option Nat
  | 0, _ => some 0
  | _ + 1, [] => none
  | n + 1, c :: r => do
    let d ← hexValue? c
    return d * Nat.pow 16 n + (← hexNumber? n r)

/-- The second half of a surrogate pair, if the text begins with one. -/
def lowHalf? : Text → Option Nat
  | '\\' :: 'u' :: r => do
    let n ← hexNumber? 4 r
    if 0xdc00 ≤ n && n ≤ 0xdfff then some n else none
  | _ => none

/-- The code that a backslash before the text stands for, and how many characters of the text belong
to it. -/
def escape? : Text → Option (Code × Nat)
  | '"' :: _ => some (.char '"', 1)
  | '\\' :: _ => some (.char '\\', 1)
  | '/' :: _ => some (.char '/', 1)
  | 'b' :: _ => some (.char '\x08', 1)
  | 'f' :: _ => some (.char '\x0c', 1)
  | 'n' :: _ => some (.char '\n', 1)
  | 'r' :: _ => some (.char '\r', 1)
  | 't' :: _ => some (.char '\t', 1)
  | 'u' :: r => do
    let n ← hexNumber? 4 r
    -- two escapes that make up a pair are one character
    match if 0xd800 ≤ n && n ≤ 0xdbff then lowHalf? (r.drop 4) else none with
    | some low => some (.ofNat (0x10000 + (n - 0xd800) * 0x400 + (low - 0xdc00)), 11)
    | none => some (.ofNat n, 5)
  | _ => none

/-- The codes of a string up to its closing mark, and the text behind that. -/
def stringBody (t : Text) : Option (CodeText × Text) :=
  match t with
  | [] => none
  | '"' :: r => some ([], r)
  | '\\' :: r =>
    match escape? r with
    | some (c, n) => (stringBody (r.drop n)).map (fun (cs, rest) => (c :: cs, rest))
    | none => none
  | c :: r =>
    if c.toNat < 0x20 then none
    else (stringBody r).map (fun (cs, rest) => (.char c :: cs, rest))
termination_by t.length
decreasing_by all_goals simp only [List.length_cons, List.length_drop]; omega

/-- A floating-point number with a sign, from its digits and the exponent of the last of them. -/
def floatOf (negative : Bool) (digits : Nat) (exponent : Int) : Decimal.FloatParts :=
  match Decimal.FloatParts.ofBits (Decimal.nearestFloat digits exponent).toBits.toNat with
  | .infinite _ => .infinite negative
  | .zero _ => .zero negative
  | .finite _ value => .finite negative value
  | .nan => .nan

/-- The digits behind a point, if a point and a digit come first. -/
def fractionDigits : Text → Text × Text
  | '.' :: r =>
    let ds := r.takeWhile Char.isDigit
    if ds.isEmpty then ([], '.' :: r) else (ds, r.drop ds.length)
  | t => ([], t)

/-- The exponent that the text begins with, if it does. -/
def exponent? : Text → Option (Int × Text)
  | c :: r =>
    if c = 'e' || c = 'E' then
      let (sign, r) := match r with
        | '-' :: r => ((-1 : Int), r)
        | '+' :: r => (1, r)
        | r => (1, r)
      let ds := r.takeWhile Char.isDigit
      if ds.isEmpty then none else some (sign * digitsValue ds, r.drop ds.length)
    else none
  | [] => none

/-- A number without its sign at the start of the text.  A leading zero is a number of its own. -/
def number (negative : Bool) (t : Text) : Except ReadError (Value CodeText × Text) :=
  let whole :=
    match t with
    | '0' :: _ => ['0']
    | _ => t.takeWhile Char.isDigit
  if whole.isEmpty then .error .malformed
  else
    let (fraction, r) := fractionDigits (t.drop whole.length)
    match fraction, exponent? r with
    | [], none => (integerOf negative whole).map (fun n => (.int n, r))
    | fraction, e =>
      let exponent := (e.map (·.1)).getD 0
      let rest := (e.map (·.2)).getD r
      let digits := digitsValue (whole ++ fraction)
      .ok (.float (floatOf negative digits (exponent - fraction.length)), rest)

/-- The words that are values. -/
def words : List (Text × Value CodeText) :=
  [("null".toList, .null), ("true".toList, .bool true), ("false".toList, .bool false),
    ("NaN".toList, .float .nan), ("Infinity".toList, .float (.infinite false)),
    ("-Infinity".toList, .float (.infinite true))]

/-- A value that is neither a list nor an object, at the start of the text. -/
def scalar (t : Text) : Except ReadError (Value CodeText × Text) :=
  match words.find? (fun w => t.startsWith w.1) with
  | some (word, v) => .ok (v, t.drop word.length)
  | none =>
    match t with
    | '"' :: r => (orMalformed (stringBody r)).map (fun (cs, rest) => (.text cs, rest))
    | '-' :: r => number true r
    | _ => number false t

mutual

/-- A value at the start of the text; `fuel` bounds how many values are read one behind or inside
another, and `room` is how many lists and objects may still be opened inside another. -/
def value (fuel room : Nat) (t : Text) : Except ReadError (Value CodeText × Text) :=
  match fuel with
  | 0 => .error .malformed
  | fuel + 1 =>
    match t with
    | '[' :: r =>
      if room = 0 then .error .tooDeep
      else
        match skipSpace r with
        | ']' :: rest => .ok (.list [], rest)
        | r => (items fuel (room - 1) r).map (fun (vs, rest) => (.list vs, rest))
    | '{' :: r =>
      if room = 0 then .error .tooDeep
      else
        match skipSpace r with
        | '}' :: rest => .ok (.table [], rest)
        | r => (entries fuel (room - 1) [] r).map (fun (es, rest) => (.table es, rest))
    | _ => scalar t

/-- The items of a list up to its closing bracket. -/
def items (fuel room : Nat) (t : Text) : Except ReadError (List (Value CodeText) × Text) :=
  match fuel with
  | 0 => .error .malformed
  | fuel + 1 => do
    let (v, r) ← value fuel room t
    match skipSpace r with
    | ']' :: rest => return ([v], rest)
    | ',' :: r =>
      let (vs, rest) ← items fuel room (skipSpace r)
      return (v :: vs, rest)
    | _ => throw .malformed

/-- The entries of an object up to its closing brace, added to those read before. -/
def entries (fuel room : Nat) (before : Table CodeText) (t : Text) :
    Except ReadError (Table CodeText × Text) :=
  match fuel with
  | 0 => .error .malformed
  | fuel + 1 => do
    match t with
    | '"' :: r =>
      let (key, r) ← orMalformed (stringBody r)
      match skipSpace r with
      | ':' :: r =>
        let (v, r) ← value fuel room (skipSpace r)
        let now := Table.set key v before
        match skipSpace r with
        | '}' :: rest => return (now, rest)
        | ',' :: r => entries fuel room now (skipSpace r)
        | _ => throw .malformed
      | _ => throw .malformed
    | _ => throw .malformed

end

/-- The value of a JSON text. -/
def read [Limits] (t : Text) : Except ReadError (Value CodeText) := do
  let (v, r) ← value (2 * t.length + 2) Limits.objects (skipSpace t)
  if (skipSpace r).isEmpty then return v else throw .malformed

end WasmPackage.Json
