import WasmPackage.Text.Basic
import WasmPackage.Text.Letters
import WasmPackage.Text.Marks
import WasmPackage.Text.Numerals
import WasmPackage.Text.Unprintable

/-!
# Character classes

Letters, digits, names and printable characters, over all of the character set.  Below 128 each
class is said directly; above, by the runs of its property.  The main statements say that every
class holds what the class of the same name holds among the ASCII characters.
-/

namespace WasmPackage

/-- Is this a letter of any script? -/
def isLetter (c : Char) : Bool :=
  if c.toNat < 128 then c.isAlpha else inRuns c.toNat letterRuns

/-- The value of a decimal digit of any script. -/
def decimalValue? (c : Char) : Option Nat :=
  if c.toNat < 128 then if c.isDigit then some (c.toNat - 48) else none
  else (offsetInRuns? c.toNat decimalRuns).map (· % 10)

/-- Is this a decimal digit of any script? -/
def isDecimal (c : Char) : Bool :=
  (decimalValue? c).isSome

/-- Is this a digit: a decimal one, or one that stands for itself as a superscript does? -/
def isDigit (c : Char) : Bool :=
  isDecimal c || inRuns c.toNat otherDigitRuns

/-- Is this a letter or a numeral of any kind? -/
def isLetterOrNumeral (c : Char) : Bool :=
  if c.toNat < 128 then c.isAlphanum
  else isLetter c || isDecimal c || inRuns c.toNat letterNumeralRuns ||
    inRuns c.toNat otherNumeralRuns

/-- Is this a character of a word: a letter, a numeral or the underscore? -/
def isWordChar (c : Char) : Bool :=
  isLetterOrNumeral c || c = '_'

/-- The letters that cannot start a name, because their compatibility form does not start with a
letter. -/
def nonStarterRuns : List (Nat × Nat) := [
  (0x37a, 0x37a), (0xe33, 0xe33), (0xeb3, 0xeb3), (0x2e2f, 0x2e2f), (0xfc5e, 0xfc63),
  (0xfdfa, 0xfdfb), (0xfe70, 0xfe70), (0xfe72, 0xfe72), (0xfe74, 0xfe74), (0xfe76, 0xfe76),
  (0xfe78, 0xfe78), (0xfe7a, 0xfe7a), (0xfe7c, 0xfe7c), (0xfe7e, 0xfe7e), (0xff9e, 0xff9f)]

/-- The characters that start a name without being letters. -/
def starterRuns : List (Nat × Nat) := [
  (0x1885, 0x1886), (0x2118, 0x2118), (0x212e, 0x212e)]

/-- The characters that continue a name without starting one and without being marks, decimal
digits or connectors. -/
def continuerRuns : List (Nat × Nat) := [
  (0xb7, 0xb7), (0x387, 0x387), (0xe33, 0xe33), (0xeb3, 0xeb3), (0x1369, 0x1371),
  (0x19da, 0x19da), (0xff9e, 0xff9f)]

/-- May this character start an identifier? -/
def startsName (c : Char) : Bool :=
  let n := c.toNat
  if n < 128 then c.isAlpha || c = '_'
  else (isLetter c && !inRuns n nonStarterRuns) || inRuns n letterNumeralRuns ||
    inRuns n starterRuns

/-- May this character stand in an identifier behind its first? -/
def continuesName (c : Char) : Bool :=
  let n := c.toNat
  if n < 128 then c.isAlphanum || c = '_'
  else startsName c || isDecimal c || inRuns n markRuns || inRuns n connectorRuns ||
    inRuns n continuerRuns

/-- Is this text an identifier? -/
def Text.isIdentifier : Text → Bool
  | [] => false
  | c :: r => startsName c && r.all continuesName

/-- Does a quoted text show this character as it is? -/
def isPrintable (c : Char) : Bool :=
  let n := c.toNat
  if n < 128 then 32 ≤ n && n < 127 else !inRuns n unprintableRuns

/-! ## The ASCII characters -/

theorem toNat_lt_of_isAlpha {c : Char} (h : c.isAlpha = true) : c.toNat < 128 := by
  change (decide (c.val ≥ 'A'.val ∧ c.val ≤ 'Z'.val) || (c.val ≥ 'a'.val && c.val ≤ 'z'.val)) = true
    at h
  simp only [Bool.or_eq_true, Bool.and_eq_true, decide_eq_true_eq, UInt32.le_iff_toNat_le] at h
  rcases h with ⟨_, h⟩ | ⟨_, h⟩ <;> exact Nat.lt_of_le_of_lt h (by decide)

theorem toNat_lt_of_isDigit {c : Char} (h : c.isDigit = true) : c.toNat < 128 := by
  simp only [Char.isDigit, Bool.and_eq_true, decide_eq_true_eq, UInt32.le_iff_toNat_le] at h
  exact Nat.lt_of_le_of_lt h.2 (by decide)

theorem isLetter_of_isAlpha {c : Char} (h : c.isAlpha = true) : isLetter c = true := by
  simp [isLetter, toNat_lt_of_isAlpha h, h]

theorem isDecimal_of_isDigit {c : Char} (h : c.isDigit = true) : isDecimal c = true := by
  simp [isDecimal, decimalValue?, toNat_lt_of_isDigit h, h]

theorem isLetterOrNumeral_of_isAlphanum {c : Char} (h : c.isAlphanum = true) :
    isLetterOrNumeral c = true := by
  have hc : c.toNat < 128 := by
    simp only [Char.isAlphanum, Bool.or_eq_true] at h
    rcases h with h | h
    · exact toNat_lt_of_isAlpha h
    · exact toNat_lt_of_isDigit h
  simp [isLetterOrNumeral, hc, h]

end WasmPackage
