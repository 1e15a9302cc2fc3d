import WasmPackage.SExpr.Basic

/-!
# Reading s-expressions

The reader takes one lexeme after the other off the front of the text and keeps the lists that are
still open on a stack.  Between lexemes stand blanks, line comments behind `;;`, and block comments
between `(;` and `;)`, which nest.
-/

namespace WasmPackage.SExpr

/-- What is wrong with a text that is no sequence of s-expressions. -/
inductive Malformed
  | openComment
  | openString
  | unbalanced
  | straySemicolon
  | openList
  | notOneModule
deriving DecidableEq, Repr

/-- The words for it. -/
def Malformed.message : Malformed → String
  | .openComment => "Unterminated block comment"
  | .openString => "Unterminated string"
  | .unbalanced => "Unbalanced ')'"
  | .straySemicolon => "Stray ';'"
  | .openList => "Unclosed '('"
  | .notOneModule => "Expected a single (module ...) form"

/-- The blanks between s-expressions. -/
def isSeparator (c : Char) : Bool :=
  c = ' ' || c = '\t' || c = '\r' || c = '\n'

/-- The characters that end a word. -/
def isDelimiter (c : Char) : Bool :=
  isSeparator c || c = '(' || c = ')' || c = '"' || c = ';'

/-- The number of characters up to and with the end of a block comment of which `depth` levels are
open. -/
def blockCommentLength? (depth : Nat) : Text → Option Nat
  | '(' :: ';' :: r => (blockCommentLength? (depth + 1) r).map (· + 2)
  | ';' :: ')' :: r =>
    if depth ≤ 1 then some 2 else (blockCommentLength? (depth - 1) r).map (· + 2)
  | _ :: r => (blockCommentLength? depth r).map (· + 1)
  | [] => none

/-- The number of characters up to and with the quote that ends a string; a backslash takes the
character behind it along. -/
def stringLength? : Text → Option Nat
  | '\\' :: _ :: r => (stringLength? r).map (· + 2)
  | ['\\'] => none
  | '"' :: _ => some 1
  | _ :: r => (stringLength? r).map (· + 1)
  | [] => none

/-- What stands at the front of a text. -/
inductive Lexeme
  | gap
  | openParen
  | closeParen
  | atom
deriving DecidableEq, Repr

/-- The lexeme at the front of `c :: r`, and how many characters of `r` belong to it.  The offset of
a fault counts from `c`. -/
def lexeme (c : Char) (r : Text) : Except (Malformed × Nat) (Lexeme × Nat) :=
  if isSeparator c then .ok (.gap, 0)
  else if c = ';' then
    if r.startsWith [';'] then .ok (.gap, (r.takeWhile (· ≠ '\n')).length + 1)
    else .error (.straySemicolon, 0)
  else if c = '(' then
    if r.startsWith [';'] then
      match blockCommentLength? 1 (r.drop 1) with
      | some n => .ok (.gap, n + 1)
      | none => .error (.openComment, r.length + 1)
    else .ok (.openParen, 0)
  else if c = ')' then .ok (.closeParen, 0)
  else if c = '"' then
    match stringLength? r with
    | some n => .ok (.atom, n)
    | none => .error (.openString, 0)
  else if c = '$' && r.startsWith ['"'] then
    match stringLength? (r.drop 1) with
    | some n => .ok (.atom, n + 1)
    | none => .error (.openString, 1)
  else .ok (.atom, (r.takeWhile (fun d => !isDelimiter d)).length)

/-- A list whose closing parenthesis is still to come: where it opens, and the items so far, last
one first. -/
structure OpenList where
  start : Nat
  items : List Node

/-- Adds a finished node to the innermost open list, or to the top level. -/
def attach (n : Node) : List OpenList → List Node → List OpenList × List Node
  | [], top => ([], n :: top)
  | o :: os, top => ({ o with items := n :: o.items } :: os, top)

/-- Reads the rest of a text from offset `pos` on, with `stack` open and `top` read, both innermost
and last first. -/
def readFrom (pos : Nat) (stack : List OpenList) (top : List Node) :
    Text → Except (Malformed × Nat) (List Node)
  | [] =>
    match stack with
    | [] => .ok top.reverse
    | o :: _ => .error (.openList, o.start)
  | c :: r =>
    match lexeme c r with
    | .error (cause, offset) => .error (cause, pos + offset)
    | .ok (.gap, n) => readFrom (pos + 1 + n) stack top (r.drop n)
    | .ok (.openParen, n) => readFrom (pos + 1 + n) (⟨pos, []⟩ :: stack) top (r.drop n)
    | .ok (.closeParen, n) =>
      match stack with
      | [] => .error (.unbalanced, pos)
      | o :: os =>
        let (stack', top') := attach (.list o.items.reverse o.start (pos + 1)) os top
        readFrom (pos + 1 + n) stack' top' (r.drop n)
    | .ok (.atom, n) =>
      let (stack', top') := attach (.atom ⟨String.ofList (c :: r.take n), pos⟩) stack top
      readFrom (pos + 1 + n) stack' top' (r.drop n)
termination_by t => t.length
decreasing_by all_goals simp only [List.length_cons, List.length_drop]; omega

/-- The s-expressions of a text. -/
def read (t : Text) : Except (Fault Malformed) (List Node) :=
  (readFrom 0 [] [] t).mapError (fun e => Fault.ofOffset t e.1 e.2)

/-- The one `(module …)` list that a text consists of. -/
def readModule (t : Text) : Except (Fault Malformed) Node := do
  match ← read t with
  | [m] =>
    if m.head? = some "module" then return m
    else throw (Fault.ofOffset t .notOneModule 0)
  | _ => throw (Fault.ofOffset t .notOneModule 0)

end WasmPackage.SExpr
