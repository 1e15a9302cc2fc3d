import WasmPackage.Text.Classes

/-!
# Escapes of quoted strings

Inside the quotes a backslash stands before a named escape or before the two hexadecimal digits of
a character.  A backslash that begins neither stands for itself.
-/

namespace WasmPackage.SExpr

/-- The character that a named escape stands for. -/
def namedEscape? (c : Char) : Option Char :=
  if c = 'n' then some '\n'
  else if c = 't' then some '\t'
  else if c = 'r' then some '\r'
  else if c = '"' || c = '\'' || c = '\\' then some c
  else none

/-- The value of a hexadecimal digit; the digits up to nine may be those of any script. -/
def hexValue? (c : Char) : Option Nat :=
  if 'a' ≤ c ∧ c ≤ 'f' then some (c.toNat - 87)
  else if 'A' ≤ c ∧ c ≤ 'F' then some (c.toNat - 55)
  else decimalValue? c

/-- Is this a blank that a number may have around it?  The ASCII separators 28 to 31 are none. -/
def isNumberBlank (c : Char) : Bool :=
  isBlank c && !(28 ≤ c.toNat && c.toNat ≤ 31)

/-- The number written by at most two characters: two digits, or one digit alone, with a plus sign
or beside a blank.  Minus zero is zero, and every other negative number stands for no character. -/
def hexNumber? : Text → Option Nat
  | [a] => hexValue? a
  | [a, b] =>
    match hexValue? a, hexValue? b with
    | some x, some y => some (16 * x + y)
    | some x, none => if isNumberBlank b then some x else none
    | none, some y =>
      if a = '+' || isNumberBlank a then some y
      else if a = '-' && y = 0 then some 0
      else none
    | none, none => none
  | _ => none

/-- The body of a quoted string with its escapes undone. -/
def unescape : Text → Text
  | [] => []
  | ['\\'] => ['\\']
  | '\\' :: c :: r =>
    match namedEscape? c with
    | some e => e :: unescape r
    | none =>
      match r with
      | [] =>
        match hexNumber? [c] with
        | some n => [Char.ofNat n]
        | none => '\\' :: unescape [c]
      | d :: r' =>
        match hexNumber? [c, d] with
        | some n => Char.ofNat n :: unescape r'
        | none => '\\' :: unescape (c :: d :: r')
  | c :: r => c :: unescape r
termination_by t => t.length

end WasmPackage.SExpr
