import WasmPackage.Text.Classes

/-!
# Tokens of scripts

The glue module and the type declarations are scripts of one lexical form.  A token keeps the text
it was read from and where that text begins.
-/

namespace WasmPackage.Script

/-- The kinds of tokens. -/
inductive TokenKind
  | identifier
  | punctuation
  | string
  | template
  | number
  | regex
  | comment
deriving DecidableEq, Repr

/-- A token: its kind, its text, and the offset where it begins. -/
structure Token where
  kind : TokenKind
  text : String
  start : Nat
deriving DecidableEq, Repr

namespace Token

/-- The offset behind the token. -/
def stop (t : Token) : Nat :=
  t.start + t.text.length

/-- Is this a punctuation token or an identifier with the given text?  A string, template, number or
regex is never taken for structure. -/
def is (t : Token) (text : String) : Bool :=
  t.text = text && (t.kind = .punctuation || t.kind = .identifier)

end Token

/-- May this character start an identifier of a script? -/
def startsIdentifier (c : Char) : Bool :=
  isLetter c || c = '_' || c = '$'

/-- May this character stand in an identifier of a script? -/
def continuesIdentifier (c : Char) : Bool :=
  isLetterOrNumeral c || c = '_' || c = '$'

/-- What makes a text no script, or one that is not read: template literals that stand too deep in
one another. -/
inductive Malformed
  | openString
  | openTemplate
  | openSubstitution
  | openComment
  | openRegex
  | unbalanced (bracket : String)
  | mismatched (bracket : String)
  | unclosed (bracket : String)
  | classWithoutBody
  | functionWithoutParameters
  | tooDeep
deriving DecidableEq, Repr

/-- The words for it. -/
def Malformed.message : Malformed → String
  | .openString => "Unterminated string literal"
  | .openTemplate => "Unterminated template literal"
  | .openSubstitution => "Unterminated template substitution"
  | .openComment => "Unterminated comment"
  | .openRegex => "Unterminated regular expression"
  | .unbalanced bracket => s!"Unbalanced '{bracket}'"
  | .mismatched bracket => s!"Mismatched '{bracket}'"
  | .unclosed bracket => s!"Unclosed '{bracket}'"
  | .classWithoutBody => "Class without body"
  | .functionWithoutParameters => "Expected '(' after function name"
  | .tooDeep => "Template literals nested too deep"

end WasmPackage.Script
