import WasmPackage.Script.DocComment
import WasmPackage.Script.Lexer

/-!
# Scripts as code tokens

The code of a script is its tokens without the comments.  A source keeps the code under indices,
with the bracket that closes each opening one and the documentation comment before each token.
Walks over the code go on with `skip`, which jumps over bracketed parts and always advances.
-/

namespace WasmPackage.Script

/-- The code tokens among `tokens`, each with the documentation comment that stands between it and
the code token before; `pending` is such a comment met already. -/
def documented (pending : Option DocComment) : List Token → List (Token × Option DocComment)
  | [] => []
  | t :: r =>
    if t.kind = .comment then
      if Text.startsWith t.text.toList "/**".toList then
        documented (some ⟨t.text.toList, t.start⟩) r
      else documented pending r
    else (t, pending) :: documented none r

/-- A script read into tokens, with its brackets matched. -/
structure Source where
  text : Text
  tokens : List Token
  code : Array Token
  docs : Array (Option DocComment)
  brackets : List (Nat × Nat)
deriving DecidableEq, Repr

namespace Source

/-- Reads a script. -/
def read [Limits] (t : Text) : Except (Fault Malformed) Source := do
  let tokens ← tokenize t
  let code := documented none tokens
  let brackets ← (matchBrackets (code.map (·.1))).mapError (fun e => Fault.ofOffset t e.1 e.2)
  return ⟨t, tokens, (code.map (·.1)).toArray, (code.map (·.2)).toArray, brackets⟩

/-- The number of code tokens. -/
def size (s : Source) : Nat :=
  s.code.size

/-- The text of code token `i`. -/
def word? (s : Source) (i : Nat) : Option String :=
  s.code[i]?.map (·.text)

/-- Is the text of code token `i` one of these? -/
def wordIn (s : Source) (words : List String) (i : Nat) : Bool :=
  (s.word? i).any words.contains

/-- The kind of code token `i`. -/
def kind? (s : Source) (i : Nat) : Option TokenKind :=
  s.code[i]?.map (·.kind)

/-- Is code token `i` this punctuation or identifier? -/
def is (s : Source) (text : String) (i : Nat) : Bool :=
  s.code[i]?.any (·.is text)

/-- The index of the bracket that closes the one at index `i`. -/
def closer? (s : Source) (i : Nat) : Option Nat :=
  s.brackets.lookup i

/-- The index behind code token `i` or, if a bracket opens there, behind the bracket that closes
it. -/
def skip (s : Source) (i : Nat) : Nat :=
  max (i + 1) ((s.closer? i).elim 0 (· + 1))

theorem lt_skip (s : Source) (i : Nat) : i < s.skip i := by
  unfold skip
  omega

/-- The offset at which code token `i` begins; behind the code it is the end of the text. -/
def startAt (s : Source) (i : Nat) : Nat :=
  (s.code[i]?.map (·.start)).getD s.text.length

/-- The offset behind code token `i`; behind the code it is the end of the text. -/
def stopAt (s : Source) (i : Nat) : Nat :=
  (s.code[i]?.map (·.stop)).getD s.text.length

/-- The text from one offset to another. -/
def excerpt (s : Source) (start stop : Nat) : String :=
  String.ofList (s.text.slice start stop)

/-- The texts of the code tokens from index `i` up to index `j`. -/
def words (s : Source) (i j : Nat) : List String :=
  (s.code.extract i j).toList.map (·.text)

/-- The first index from `i` on whose token is this punctuation or identifier. -/
def find? (s : Source) (text : String) (i : Nat) : Option Nat :=
  if i < s.size then
    if s.is text i then some i else find? s text (i + 1)
  else none
termination_by s.size - i

/-- The documentation comment before code token `i`. -/
def doc? (s : Source) (i : Nat) : Option DocComment :=
  (s.docs[i]?).join

end Source

end WasmPackage.Script
