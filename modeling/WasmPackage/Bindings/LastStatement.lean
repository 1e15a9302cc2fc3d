import WasmPackage.Script.Token

/-!
# The last statement of a body

A body is given by its code tokens.  Only a semicolon and the brace that closes a statement block
end a statement; braces of object literals and of function expressions do not, nor does a block that
the next token continues.
-/

namespace WasmPackage.Bindings

open Script (Token)

/-- The words that a block follows directly. -/
def blockWords : List String := ["else", "do", "try", "finally"]

/-- The words that a block follows behind a head in parentheses. -/
def headWords : List String := ["if", "for", "while", "with", "switch", "catch"]

/-- The words that begin a declaration with a body in braces. -/
def declarationWords : List String := ["function", "class"]

/-- The words that continue the statement of a block. -/
def continuationWords : List String := ["else", "catch", "finally"]

/-- A scan through the statements of a body: the index of the token at which the current statement
begins, that token's text, the token before in the same statement, the word before the last
outermost parenthesis, and for each open bracket the word of its block, if it is one. -/
structure StatementScan where
  start : Nat
  first : String
  previous : Option Token
  head : String
  opened : List (Option String)
deriving DecidableEq, Repr

namespace StatementScan

/-- The word of the block that a brace opens, if it opens one at the outermost level. -/
def block? (s : StatementScan) : Option String :=
  if s.opened.isEmpty then
    match s.previous with
    | none => some "\x7b"
    | some p =>
      if p.kind = .identifier && blockWords.contains p.text then some p.text
      else if p.text = ")" && headWords.contains s.head then some s.head
      else if declarationWords.contains s.first then some s.first
      else none
  else none

/-- Does the next token continue the statement behind a block? -/
def continues (block next : String) : Bool :=
  continuationWords.contains next || (block = "do" && next = "while")

/-- The scan behind one more token, and whether a statement ends with it; `next` is the token
behind it. -/
def push (s : StatementScan) (t : Token) (next : Option Token) : StatementScan × Bool :=
  let s' := { s with previous := some t }
  if t.kind ≠ .punctuation then (s', false)
  else if t.text = "(" then
    -- only the word before an outermost parenthesis can be the head of a block
    let head := if s.opened.isEmpty then (s.previous.map (·.text)).getD "" else s.head
    ({ s' with head, opened := none :: s.opened }, false)
  else if t.text = "[" then ({ s' with opened := none :: s.opened }, false)
  else if t.text = "\x7b" then ({ s' with opened := s.block? :: s.opened }, false)
  else if t.text = ";" then (s', s.opened.isEmpty)
  else if t.text = "\x7d" then
    let ends := match s.opened with
      | [some block] => !next.any (fun n => continues block n.text)
      | _ => false
    ({ s' with opened := s.opened.tail }, ends)
  else if t.text = ")" || t.text = "]" then ({ s' with opened := s.opened.tail }, false)
  else (s', false)

end StatementScan

/-- The index at which the last statement begins, for tokens that go on at index `i`. -/
def finalStatementFrom (s : StatementScan) (i : Nat) : List Token → Nat
  | [] => s.start
  | t :: r =>
    match s.push t r.head?, r with
    | (s', true), next :: _ =>
      finalStatementFrom { s' with start := i + 1, first := next.text, previous := none } (i + 1) r
    | (s', _), _ => finalStatementFrom s' (i + 1) r

/-- The index of the first token of the last statement. -/
def lastStatement (tokens : List Token) : Nat :=
  finalStatementFrom ⟨0, (tokens.head?.map (·.text)).getD "", none, "", []⟩ 0 tokens

end WasmPackage.Bindings
