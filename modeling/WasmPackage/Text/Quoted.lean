import WasmPackage.Text.Classes

/-!
# Quoted texts

A text in a message stands in quotes, so that its ends and its unprintable characters show.  It is
set in apostrophes, or in double quotes if it holds an apostrophe and no double quote.
-/

namespace WasmPackage.Text

/-- The last `width` hexadecimal digits of a number. -/
def hexDigits (width n : Nat) : Text :=
  ((List.range width).map (fun i => Nat.digitChar (n / Nat.pow 16 i % 16))).reverse

/-- One character of a quoted text. -/
def quoteChar (mark c : Char) : Text :=
  let n := c.toNat
  if c = mark || c = '\\' then ['\\', c]
  else if c = '\t' then ['\\', 't']
  else if c = '\n' then ['\\', 'n']
  else if c = '\r' then ['\\', 'r']
  else if isPrintable c then [c]
  else if n < 0x100 then '\\' :: 'x' :: hexDigits 2 n
  else if n < 0x10000 then '\\' :: 'u' :: hexDigits 4 n
  else '\\' :: 'U' :: hexDigits 8 n

/-- The quotation mark that a text is set in. -/
def quoteMark (t : Text) : Char :=
  if t.contains '\'' && !t.contains '"' then '"' else '\''

/-- The text in quotes, with escapes for what would not show. -/
def quoted (t : Text) : Text :=
  t.quoteMark :: t.flatMap (quoteChar t.quoteMark) ++ [t.quoteMark]

end Text

/-- A string in quotes. -/
def quotedString (s : String) : String :=
  String.ofList (Text.quoted s.toList)

end WasmPackage
