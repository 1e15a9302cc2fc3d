import WasmPackage.Data.Json
import WasmPackage.Data.TomlTree
import WasmPackage.Limits

/-!
# Reading TOML

A reader of TOML documents.  The text is taken line by line; each line opens a table, appends one to
an array, or sets the value of a key.  What the lines do to the document is said with its tree; this
module reads keys, strings, numbers and nested values.
-/

namespace WasmPackage.Toml

/-! ## Blanks and comments -/

/-- The blanks within a line. -/
def isSpace (c : Char) : Bool :=
  c = ' ' || c = '\t'

/-- The text behind leading blanks. -/
def skipSpace (t : Text) : Text :=
  t.dropWhile isSpace

/-- The text behind leading blanks and line ends. -/
def skipLines (t : Text) : Text :=
  t.dropWhile (fun c => isSpace c || c = '\n')

/-- Control characters, which may stand neither in comments nor in strings; the tab is none. -/
def isControl (c : Char) : Bool :=
  (c.toNat < 0x20 && c ≠ '\t') || c.toNat = 0x7f

/-- The text behind a comment, if one begins here. -/
def skipComment? : Text → Option Text
  | '#' :: r =>
    let comment := r.takeWhile (· ≠ '\n')
    if comment.any isControl then none else some (r.drop comment.length)
  | t => some t

/-- The text behind blanks, line ends and comments; `fuel` bounds the number of comments. -/
def skipGap? (fuel : Nat) (t : Text) : Option Text :=
  match fuel, skipLines t with
  | fuel + 1, '#' :: r => (skipComment? ('#' :: r)).bind (skipGap? fuel)
  | _, t => some t

/-- The text behind blanks, line ends and comments. -/
def skipAll? (t : Text) : Option Text :=
  skipGap? (t.length + 1) t

/-! ## Strings -/

/-- The characters of a literal string up to its closing mark, and the text behind that. -/
def literalString? (t : Text) : Option (Text × Text) :=
  let body := t.takeWhile (· ≠ '\'')
  match t.drop body.length with
  | _ :: rest => if body.any isControl then none else some (body, rest)
  | [] => none

/-- The character with a code that hexadecimal digits write. -/
def codeEscape? (count : Nat) (t : Text) : Option (Text × Text) := do
  let n ← Json.hexNumber? count t
  if n.isValidChar then some ([Char.ofNat n], t.drop count) else none

/-- What a backslash before the text stands for, and the text behind it.  In a string of several
lines it may also stand before a line end, and then takes all blanks that follow along. -/
def escape? (multiline : Bool) : Text → Option (Text × Text)
  | 'b' :: r => some (['\x08'], r)
  | 't' :: r => some (['\t'], r)
  | 'n' :: r => some (['\n'], r)
  | 'f' :: r => some (['\x0c'], r)
  | 'r' :: r => some (['\r'], r)
  | '"' :: r => some (['"'], r)
  | '\\' :: r => some (['\\'], r)
  | 'u' :: r => codeEscape? 4 r
  | 'U' :: r => codeEscape? 8 r
  | c :: r =>
    if multiline && (isSpace c || c = '\n') then
      match skipSpace (c :: r) with
      | '\n' :: rest => some ([], skipLines rest)
      | [] => some ([], [])
      | _ => none
    else none
  | [] => none

/-- The characters of a basic string up to its closing mark, and the text behind that; `fuel` bounds
the number of characters. -/
def basicString? (multiline : Bool) (fuel : Nat) (t : Text) : Option (Text × Text) :=
  match fuel, t with
  | 0, _ => none
  | _, [] => none
  | fuel + 1, '\\' :: r => do
    let (cs, r) ← escape? multiline r
    let (more, rest) ← basicString? multiline fuel r
    return (cs ++ more, rest)
  | fuel + 1, c :: r =>
    if c = '"' && !multiline then some ([], r)
    else if c = '"' && Text.startsWith r ['"', '"'] then some ([], r.drop 2)
    else if isControl c && !(multiline && c = '\n') then none
    else (basicString? multiline fuel r).map (fun (cs, rest) => (c :: cs, rest))

/-- The characters of a literal string of several lines, and the text behind its closing marks. -/
def literalLines? : Text → Option (Text × Text)
  | [] => none
  | '\'' :: '\'' :: '\'' :: r => some ([], r)
  | c :: r =>
    if isControl c && c ≠ '\n' then none
    else (literalLines? r).map (fun (cs, rest) => (c :: cs, rest))

/-- Up to two marks directly behind a string of several lines belong to it. -/
def trailingMarks (mark : Char) (body : Text) (rest : Text) : Text × Text :=
  let marks := (rest.take 2).takeWhile (· = mark)
  (body ++ marks, rest.drop marks.length)

/-- The text without one leading line end. -/
def dropLineEnd : Text → Text
  | '\n' :: r => r
  | t => t

/-- A string at the start of the text, of one line or of several. -/
def string? (t : Text) : Option (Text × Text) :=
  match t with
  | '"' :: '"' :: '"' :: r =>
    let r := dropLineEnd r
    (basicString? true (r.length + 1) r).map (fun (cs, rest) => trailingMarks '"' cs rest)
  | '"' :: r => basicString? false (r.length + 1) r
  | '\'' :: '\'' :: '\'' :: r =>
    (literalLines? (dropLineEnd r)).map (fun (cs, rest) => trailingMarks '\'' cs rest)
  | '\'' :: r => literalString? r
  | _ => none

/-! ## Keys -/

/-- The characters of keys without quotes. -/
def isKeyChar (c : Char) : Bool :=
  c.isAlphanum || c = '-' || c = '_'

/-- One part of a key: a word or a string of one line. -/
def keyPart? (t : Text) : Option (String × Text) :=
  match t with
  | '"' :: r =>
    (basicString? false (r.length + 1) r).map (fun (cs, rest) => (String.ofList cs, rest))
  | '\'' :: r => (literalString? r).map (fun (cs, rest) => (String.ofList cs, rest))
  | _ =>
    let word := t.takeWhile isKeyChar
    if word.isEmpty then none else some (String.ofList word, t.drop word.length)

/-- The parts of a key, with points between them, and the text behind the blanks that follow; `fuel`
bounds their number. -/
def keyParts? (fuel : Nat) (t : Text) : Option (Key × Text) :=
  match fuel with
  | 0 => none
  | fuel + 1 => do
    let (part, r) ← keyPart? t
    match skipSpace r with
    | '.' :: r =>
      let (parts, rest) ← keyParts? fuel (skipSpace r)
      return (part :: parts, rest)
    | rest => some ([part], rest)

/-- A key at the start of the text. -/
def key? (t : Text) : Option (Key × Text) :=
  keyParts? (t.length + 1) t

/-! ## Numbers -/

/-- The digits at the start of the text, of which each further one may have an underscore before it;
also the text behind them. -/
def digitRun (isDigit : Char → Bool) : Text → Text × Text
  | '_' :: d :: r =>
    if isDigit d then
      let (ds, rest) := digitRun isDigit r
      (d :: ds, rest)
    else ([], '_' :: d :: r)
  | d :: r =>
    if isDigit d then
      let (ds, rest) := digitRun isDigit r
      (d :: ds, rest)
    else ([], d :: r)
  | [] => ([], [])

/-- Digits as in `digitRun`, where the first one has no underscore before it. -/
def digits? (isDigit : Char → Bool) (t : Text) : Option (Text × Text) :=
  match t with
  | d :: _ => if isDigit d then some (digitRun isDigit t) else none
  | [] => none

/-- The number that digits of a base write. -/
def baseValue (base : Nat) (ds : Text) : Nat :=
  ds.foldl (fun n d => base * n + (Json.hexValue? d).getD 0) 0

/-- The bases other than ten: the letter behind the zero, and the digits. -/
def bases : List (Char × Nat × (Char → Bool)) :=
  [('x', 16, fun c => (Json.hexValue? c).isSome), ('b', 2, fun c => c = '0' || c = '1'),
    ('o', 8, fun c => '0' ≤ c && c ≤ '7')]

/-- A number of another base than ten; it may have any number of digits. -/
def basedNumber? : Text → Option (Int × Text)
  | '0' :: letter :: r => do
    let (base, isDigit) ← bases.lookup letter
    let (ds, rest) ← digits? isDigit r
    return (baseValue base ds, rest)
  | _ => none

/-- The digits of a fraction, if the text begins with a point and a digit. -/
def fraction? : Text → Option (Text × Text)
  | '.' :: r => digits? Char.isDigit r
  | _ => none

/-- The exponent that the text begins with, if it does. -/
def exponent? : Text → Option (Int × Text)
  | c :: r =>
    if c = 'e' || c = 'E' then
      let (sign, r) := match r with
        | '-' :: r => ((-1 : Int), r)
        | '+' :: r => (1, r)
        | r => (1, r)
      (digits? Char.isDigit r).map (fun (ds, rest) => (sign * digitsValue ds, rest))
    else none
  | [] => none

/-- The whole digits that a decimal number begins with, and the text behind them. -/
def wholeDigits? : Text → Option (Text × Text)
  -- no digit may follow a leading zero
  | '0' :: r => some (['0'], r)
  | t => digits? Char.isDigit t

/-- A decimal number with a sign, from its whole digits and the text behind them. -/
def decimalNumber (negative : Bool) (whole r : Text) : Except ReadError (Value String × Text) :=
  let fraction := fraction? r
  let afterFraction := (fraction.map (·.2)).getD r
  let exponent := exponent? afterFraction
  let rest := (exponent.map (·.2)).getD afterFraction
  if fraction.isNone && exponent.isNone then
    (integerOf negative whole).map (fun n => (.int n, rest))
  else
    let ds := (fraction.map (·.1)).getD []
    let e := (exponent.map (·.1)).getD 0
    .ok (.float (Json.floatOf negative (digitsValue (whole ++ ds)) (e - ds.length)), rest)

/-- The sign of a number, and the text behind it. -/
def signOf : Text → Bool × Text
  | '-' :: r => (true, r)
  | '+' :: r => (false, r)
  | t => (false, t)

/-- The words for numbers that no digits write. -/
def numberWords : List (Text × Decimal.FloatParts) :=
  let words := fun (sign : Text) (negative : Bool) =>
    [(sign ++ "inf".toList, Decimal.FloatParts.infinite negative),
      (sign ++ "nan".toList, Decimal.FloatParts.nan)]
  words [] false ++ words ['+'] false ++ words ['-'] true

/-- A number at the start of the text. -/
def number (t : Text) : Except ReadError (Value String × Text) :=
  let (negative, unsigned) := signOf t
  match basedNumber? t, wholeDigits? unsigned with
  | some (n, rest), _ => .ok (.int n, rest)
  | none, some (whole, r) => decimalNumber negative whole r
  | none, none =>
    orMalformed ((numberWords.find? (fun w => t.startsWith w.1)).map
      (fun (w, parts) => (.float parts, t.drop w.length)))

/-! ## Values -/

/-- A value that holds no others, at the start of the text.  A date or time comes before a number,
which could begin with the same digits. -/
def scalar (t : Text) : Except ReadError (Value String × Text) :=
  if t.startsWith ['"'] || t.startsWith ['\''] then
    orMalformed ((string? t).map (fun (cs, rest) => (.text (String.ofList cs), rest)))
  else if t.startsWith "true".toList then .ok (.bool true, t.drop 4)
  else if t.startsWith "false".toList then .ok (.bool false, t.drop 5)
  else
    match Moment.read t with
    | some (m, rest) => if m.isValid then .ok (.moment m, rest) else .error .malformed
    | none => number t

/-- The room that an array takes. -/
def listRoom : Nat := 2

/-- The room that an inline table takes. -/
def tableRoom : Nat := 3

mutual

/-- A value at the start of the text; `fuel` bounds how many values are read one behind or inside
another, and `room` is what is left for values inside this one. -/
def value (fuel room : Nat) (t : Text) : Except ReadError (Value String × Text) :=
  match fuel with
  | 0 => .error .malformed
  | fuel + 1 =>
    match t with
    | '[' :: r =>
      if room < listRoom then .error .tooDeep
      else do
        let (vs, rest) ← items fuel (room - listRoom) (← orMalformed (skipAll? r))
        return (.list vs, rest)
    | '{' :: r =>
      if room < tableRoom then .error .tooDeep
      else
        match skipSpace r with
        | '}' :: rest => .ok (.table [], rest)
        | r =>
          (entries fuel (room - tableRoom) .empty r).map (fun (d, rest) => (.table d.root, rest))
    | _ => scalar t

/-- The items of an array up to its closing bracket; a comma may stand behind the last one. -/
def items (fuel room : Nat) (t : Text) : Except ReadError (List (Value String) × Text) :=
  match fuel with
  | 0 => .error .malformed
  | fuel + 1 =>
    match t with
    | ']' :: rest => .ok ([], rest)
    | t => do
      let (v, r) ← value fuel room t
      match ← orMalformed (skipAll? r) with
      | ']' :: rest => return ([v], rest)
      | ',' :: r =>
        let (vs, rest) ← items fuel room (← orMalformed (skipAll? r))
        return (v :: vs, rest)
      | _ => throw .malformed

/-- A key, its equals sign and its value. -/
def pair (fuel room : Nat) (t : Text) : Except ReadError ((Key × Value String) × Text) :=
  match fuel with
  | 0 => .error .malformed
  | fuel + 1 => do
    match ← orMalformed (key? t) with
    | (key, '=' :: r) =>
      let (v, rest) ← value fuel room (skipSpace r)
      return ((key, v), rest)
    | _ => throw .malformed

/-- The entries of an inline table up to its closing brace, put into `d`; no comma may stand behind
the last one. -/
def entries (fuel room : Nat) (d : Document) (t : Text) : Except ReadError (Document × Text) :=
  match fuel with
  | 0 => .error .malformed
  | fuel + 1 => do
    let ((key, v), r) ← pair fuel room t
    let d ← orMalformed (d.setInline key v)
    match skipSpace r with
    | '}' :: rest => return (d, rest)
    | ',' :: r => entries fuel room d (skipSpace r)
    | _ => throw .malformed

end

/-! ## Documents -/

/-- A header in brackets: the table it opens, or the array it appends one to. -/
def header? (d : Document) (t : Text) : Option (Document × Text) :=
  match t with
  | '[' :: '[' :: r => do
    let (key, r) ← key? (skipSpace r)
    let d ← d.appendTable key
    match r with
    | ']' :: ']' :: rest => some (d, rest)
    | _ => none
  | '[' :: r => do
    let (key, r) ← key? (skipSpace r)
    let d ← d.openTable key
    match r with
    | ']' :: rest => some (d, rest)
    | _ => none
  | _ => none

/-- One statement at the start of the text; nothing at a comment or a line end. -/
def statement [Limits] (d : Document) (t : Text) : Except ReadError (Document × Text) :=
  match t with
  | [] => .ok (d, [])
  | c :: _ =>
    if c = '\n' || c = '#' then .ok (d, t)
    else if c = '[' then orMalformed (header? d t)
    else do
      -- a value, an item and an entry each take one step, and each of them takes a character
      let ((key, v), rest) ← pair (3 * t.length + 3) Limits.settings t
      return (← orMalformed (d.setKey key v), rest)

/-- The rest of a document, line by line; `fuel` bounds the number of lines. -/
def linesFrom [Limits] (fuel : Nat) (d : Document) (t : Text) : Except ReadError (Table String) :=
  match fuel with
  | 0 => .error .malformed
  | fuel + 1 => do
    let (d, r) ← statement d (skipSpace t)
    match ← orMalformed (skipComment? (skipSpace r)) with
    | [] => return d.root
    | c :: rest => if c = '\n' then linesFrom fuel d rest else throw .malformed

/-- The table that a TOML text writes.  Line ends are newlines already. -/
def read [Limits] (t : Text) : Except ReadError (Table String) :=
  linesFrom (t.length + 1) .empty t

end WasmPackage.Toml
