/-!
# Texts

A text is the list of its characters, and every offset into it counts characters.  This module
holds slices, blanks and lines, in whose words edits and spans are described.
-/

namespace WasmPackage

/-- A text is the list of its characters. -/
abbrev Text := List Char

/-- The blanks: the characters that separate tokens and that trimming removes.  They are the ASCII
controls 9 to 13 and 28 to 31, the space, and the blanks of the other blocks. -/
def isBlank (c : Char) : Bool :=
  let n := c.toNat
  (9 ≤ n && n ≤ 13) || (28 ≤ n && n ≤ 32) || n == 0x85 || n == 0xa0 || n == 0x1680 ||
    (0x2000 ≤ n && n ≤ 0x200a) || n == 0x2028 || n == 0x2029 || n == 0x202f || n == 0x205f ||
    n == 0x3000

theorem isBlank_of_isWhitespace {c : Char} (h : c.isWhitespace = true) : isBlank c = true := by
  simp only [Char.isWhitespace, Bool.or_eq_true, decide_eq_true_eq] at h
  rcases h with ((rfl | rfl) | rfl) | rfl <;> decide

/-- A number with zeros before it, as wide as asked. -/
def paddedNumber (width n : Nat) : String :=
  let ds := toString n
  String.ofList (List.replicate (width - ds.length) '0') ++ ds

/-- The order of names by their characters. -/
def nameLE (a b : String) : Bool :=
  a ≤ b

namespace Text

/-- The characters from offset `start` up to offset `stop`; nothing if `stop` is not behind
`start`. -/
def slice (t : Text) (start stop : Nat) : Text :=
  (t.drop start).take (stop - start)

/-- Does the text hold blanks only? -/
def isBlank (t : Text) : Bool :=
  t.all WasmPackage.isBlank

/-- The text without its leading blanks. -/
def trimStart (t : Text) : Text :=
  t.dropWhile WasmPackage.isBlank

/-- The text without its trailing blanks. -/
def trimEnd (t : Text) : Text :=
  (t.reverse.dropWhile WasmPackage.isBlank).reverse

/-- The text without its leading and trailing blanks. -/
def trim (t : Text) : Text :=
  t.trimStart.trimEnd

/-- Does the text begin with `word`? -/
def startsWith (t word : Text) : Bool :=
  word.isPrefixOf t

/-- Does the text end with `word`? -/
def endsWith (t word : Text) : Bool :=
  word.isSuffixOf t

/-- The number of characters before the first occurrence of `word`, if it occurs. -/
def indexOf? (word : Text) : Text → Option Nat
  | [] => if word.isEmpty then some 0 else none
  | c :: r => if word.isPrefixOf (c :: r) then some 0 else (indexOf? word r).map (· + 1)

/-! ## Lines -/

/-- The offset at which the line of `offset` begins: just behind the last newline before it. -/
def lineStart (t : Text) (offset : Nat) : Nat :=
  let before := t.take offset
  before.length - (before.reverse.takeWhile (· ≠ '\n')).length

/-- The offset at which the line of `offset` ends: that of the next newline, or of the end. -/
def lineEnd (t : Text) (offset : Nat) : Nat :=
  offset + ((t.drop offset).takeWhile (· ≠ '\n')).length

/-- The whole lines that `start` to `stop` stands on, when it has only blanks beside it there.  The
newline behind the last line belongs to them; the last line of the text has none, and takes the one
before it instead. -/
def wholeLines? (t : Text) (start stop : Nat) : Option (Nat × Nat) :=
  let first := t.lineStart start
  let last := t.lineEnd stop
  if (t.slice first start).isBlank && (t.slice stop last).isBlank then
    if last < t.length then some (first, last + 1)
    else if 0 < first then some (first - 1, last)
    else some (first, last)
  else none

/-- The whole lines of `start` to `stop` if nothing else stands on them, else the span itself. -/
def lineSpan (t : Text) (start stop : Nat) : Nat × Nat :=
  (t.wholeLines? start stop).getD (start, stop)

/-- The spaces and tabs at the start of the line of `offset`, as far as `offset`. -/
def lineIndent (t : Text) (offset : Nat) : Text :=
  (t.slice (t.lineStart offset) offset).takeWhile (fun c => c = ' ' || c = '\t')

/-- The offset that a signed one stands for: a negative one counts from the end, and both ends of
the text are limits. -/
def resolve (t : Text) (offset : Int) : Nat :=
  if offset < 0 then (t.length + offset).toNat else min offset.toNat t.length

/-- Is this a character that ends a line?  A carriage return before a newline ends it together with
the newline. -/
def isLineBreak (c : Char) : Bool :=
  let n := c.toNat
  (10 ≤ n && n ≤ 13) || (28 ≤ n && n ≤ 30) || n == 0x85 || n == 0x2028 || n == 0x2029

/-- The first line of the text, if it has one, and the text behind its end. -/
def splitLine : Text → Text × Text
  | [] => ([], [])
  | c :: r =>
    if c = '\r' then
      match r with
      | '\n' :: r' => ([], r')
      | _ => ([], r)
    else if isLineBreak c then ([], r)
    else
      let (line, rest) := splitLine r
      (c :: line, rest)

theorem length_splitLine_snd_le (t : Text) : (splitLine t).2.length ≤ t.length := by
  induction t with
  | nil => simp [splitLine]
  | cons c r ih =>
    unfold splitLine
    split
    · split <;> simp only [List.length_cons] <;> omega
    · split
      · simp
      · simp only [List.length_cons]
        omega

theorem length_splitLine_snd_lt {t : Text} (h : t ≠ []) : (splitLine t).2.length < t.length := by
  cases t with
  | nil => exact absurd rfl h
  | cons c r =>
    have hr := length_splitLine_snd_le r
    unfold splitLine
    split
    · split <;> simp only [List.length_cons] <;> omega
    · split
      · simp
      · simp only [List.length_cons]
        omega

/-- The lines of the text, without what ends them. -/
def lines : Text → List Text
  | [] => []
  | c :: r => (splitLine (c :: r)).1 :: lines (splitLine (c :: r)).2
termination_by t => t.length
decreasing_by exact length_splitLine_snd_lt (List.cons_ne_nil c r)

/-- The text with every line ending, `\r\n` or a lone `\r`, written as a newline. -/
def withNewlines : Text → Text
  | [] => []
  | '\r' :: '\n' :: r => '\n' :: withNewlines r
  | '\r' :: r => '\n' :: withNewlines r
  | c :: r => c :: withNewlines r

/-! ## Positions -/

/-- A place in a text: line and column both count from one. -/
structure Position where
  line : Nat
  column : Nat
deriving DecidableEq, Repr

/-- The position of an offset. -/
def position (t : Text) (offset : Nat) : Position where
  line := (t.take offset).count '\n' + 1
  column := offset - t.lineStart offset + 1

end Text

/-- A cause of failure and the place in the text where it was met. -/
structure Fault (κ : Type) where
  cause : κ
  offset : Nat
  position : Text.Position
deriving DecidableEq, Repr

namespace Fault

/-- The fault of `cause` at an offset of `t`. -/
def ofOffset {κ : Type} (t : Text) (cause : κ) (offset : Nat) : Fault κ :=
  ⟨cause, offset, t.position offset⟩

/-- The line that names a fault, given the words for its cause. -/
def message {κ : Type} (describe : κ → String) (f : Fault κ) : String :=
  s!"{describe f.cause} at line {f.position.line}, column {f.position.column}"

end Fault

end WasmPackage
