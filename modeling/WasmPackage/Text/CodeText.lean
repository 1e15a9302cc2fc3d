import WasmPackage.Text.Quoted

/-!
# Texts of data

A data file may write one half of a surrogate pair by itself.  That is no character, so a text of
data is a list of codes: characters and such halves.  Only a text without halves is a text in the
sense of the other modules; `text?_ofText` says that nothing is lost on it.
-/

namespace WasmPackage

/-- A code of a text: a character, or one of the 2048 halves of surrogate pairs. -/
inductive Code
  | char (c : Char)
  | half (n : Fin 2048)
deriving DecidableEq, Repr

/-- A text of data. -/
abbrev CodeText := List Code

/-- The number of the first half of a pair. -/
def firstHalf : Nat := 0xd800

namespace Code

/-- The code of a number: the character that it is the code point of, or else a half. -/
def ofNat (n : Nat) : Code :=
  if n.isValidChar then .char (Char.ofNat n) else .half (Fin.ofNat 2048 (n - firstHalf))

/-- Is the code a blank? -/
def isBlank : Code → Bool
  | char c => WasmPackage.isBlank c
  | half _ => false

/-- The character that a code is. -/
def char? : Code → Option Char
  | char c => some c
  | half _ => none

/-- A code within quotation marks. -/
def quoted (mark : Char) : Code → Text
  | char c => Text.quoteChar mark c
  | half n => '\\' :: 'u' :: Text.hexDigits 4 (firstHalf + n)

end Code

namespace CodeText

/-- The codes of a text. -/
def ofText (t : Text) : CodeText :=
  t.map .char

/-- The codes of a string. -/
def ofString (s : String) : CodeText :=
  ofText s.toList

/-- The text that the codes are, if none of them is a half. -/
def text? (t : CodeText) : Option Text :=
  t.mapM Code.char?

theorem text?_ofText (t : Text) : text? (ofText t) = some t := by
  induction t with
  | nil => rfl
  | cons c r ih =>
    simp only [text?, ofText] at ih
    simp [text?, ofText, Code.char?, ih]

/-- The text without its leading and trailing blanks. -/
def trim (t : CodeText) : CodeText :=
  ((t.dropWhile Code.isBlank).reverse.dropWhile Code.isBlank).reverse

/-- The text in quotes, with escapes for what would not show. -/
def quoted (t : CodeText) : String :=
  let mark := if t.contains (.char '\'') && !t.contains (.char '"') then '"' else '\''
  String.ofList (mark :: t.flatMap (Code.quoted mark) ++ [mark])

end CodeText

end WasmPackage
