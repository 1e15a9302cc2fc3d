import WasmPackage.Text.Utf8

/-!
# Printing commands of tool scripts

What `echo` and `printf` print for their arguments.
-/

namespace WasmPackage.Shell

/-- Texts with blanks between them. -/
def spaced (ts : List Text) : Text :=
  (ts.intersperse [' ']).flatten

/-! ## Escapes -/

/-- The value of up to `count` octal digits at the start of a text, and their number. -/
def octal (count : Nat) (t : Text) : Nat × Nat :=
  let ds := (t.take count).takeWhile (fun c => '0' ≤ c && c ≤ '7')
  (ds.foldl (fun n d => 8 * n + (d.toNat - '0'.toNat)) 0, ds.length)

/-- The letters that stand for a character behind a backslash. -/
def letterEscapes : List (Char × UInt8) :=
  [('a', 7), ('b', 8), ('e', 27), ('f', 12), ('n', 10), ('r', 13), ('t', 9), ('v', 11), ('\\', 92)]

/-- The byte that is written behind a backslash in a format, with the number of its characters. -/
def formatEscape (t : Text) : Bytes × Nat :=
  match t with
  | [] => ([92], 0)
  | c :: _ =>
    match letterEscapes.lookup c with
    | some b => ([b], 1)
    | none =>
      let (n, length) := octal 3 t
      if length = 0 then ([92], 0) else ([UInt8.ofNat n], length)

/-- An argument with its escapes undone, where a code begins with a zero; `true` says that an escape
in it ends all printing. -/
def unescaped : Text → Bytes × Bool
  | [] => ([], false)
  | '\\' :: 'c' :: _ => ([], true)
  | '\\' :: '0' :: r =>
    let (n, length) := octal 3 r
    let (bytes, ends) := unescaped (r.drop length)
    (UInt8.ofNat n :: bytes, ends)
  | '\\' :: r =>
    let (first, length) := formatEscape r
    let (bytes, ends) := unescaped (r.drop length)
    (first ++ bytes, ends)
  | c :: r =>
    let (bytes, ends) := unescaped r
    (Text.encode [c] ++ bytes, ends)
termination_by t => t.length
decreasing_by all_goals simp only [List.length_cons, List.length_drop]; omega

/-- The arguments with blanks between them and a line end behind them, which a first argument `-n`
leaves out. -/
def echo (arguments : List Text) : Bytes :=
  let silent := arguments.head? = some "-n".toList
  let (bytes, ends) := unescaped (spaced (if silent then arguments.tail else arguments))
  if silent || ends then bytes else bytes ++ [10]

/-! ## Formats -/

/-- What printing in a format has come to: the bytes, and the complaint that has ended it. -/
structure Printed where
  bytes : Bytes
  complaint : Option String
deriving DecidableEq, Repr

/-- Prints a format once, behind what is printed already, and gives the arguments that are left.  An
argument that is missing is empty; `fuel` bounds the number of the format's parts. -/
def formatOnce (fuel : Nat) (p : Bytes) (arguments : List Text) (t : Text) : Printed × List Text :=
  match fuel, t with
  | 0, _ => (⟨p, none⟩, arguments)
  | _, [] => (⟨p, none⟩, arguments)
  | _, ['%'] => (⟨p, some "missing format character"⟩, arguments)
  | fuel + 1, '%' :: c :: r =>
    if c = '%' then formatOnce fuel (p ++ [37]) arguments r
    else if c = 's' then
      formatOnce fuel (p ++ Text.encode (arguments.headD [])) arguments.tail r
    else (⟨p, some s!"%{c}: invalid directive"⟩, arguments)
  | fuel + 1, '\\' :: r =>
    let (bytes, length) := formatEscape r
    formatOnce fuel (p ++ bytes) arguments (r.drop length)
  | fuel + 1, c :: r => formatOnce fuel (p ++ Text.encode [c]) arguments r

/-- Prints a format until its arguments are used up; `rounds` bounds how often. -/
def formatAll (rounds : Nat) (p : Bytes) (format : Text) (arguments : List Text) : Printed :=
  match rounds with
  | 0 => ⟨p, none⟩
  | rounds + 1 =>
    let (printed, rest) := formatOnce (format.length + 1) p arguments format
    let isDone := printed.complaint.isSome || rest.isEmpty || rest.length = arguments.length
    if isDone then printed else formatAll rounds printed.bytes format rest

/-- Prints arguments in a format. -/
def printf : List Text → Printed
  | [] => ⟨[], some "usage: printf format [arg ...]"⟩
  | format :: arguments => formatAll (arguments.length + 1) [] format arguments

end WasmPackage.Shell
