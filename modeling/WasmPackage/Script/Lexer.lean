import WasmPackage.Script.Bracket
import WasmPackage.Script.Literal

/-!
# Splitting a script into tokens

A script is its tokens with blanks between them.  Whether a slash begins a regular expression
depends on the token before it, comments apart.
-/

namespace WasmPackage.Script

/-- The words that an expression may follow, so that a slash behind them begins a regular
expression. -/
def wordsBeforeRegex : List String :=
  ["return", "typeof", "instanceof", "in", "of", "new", "delete", "void", "throw", "case", "do",
    "else", "yield", "await"]

/-- May a regular expression stand behind this token? -/
def regexMayFollow : Option Token → Bool
  | none => true
  | some t =>
    match t.kind with
    | .punctuation => !closers.contains t.text
    | .identifier => wordsBeforeRegex.contains t.text
    | _ => false

/-- The answer for a literal: its kind and length, or the fault of a literal without an end. -/
def literal (kind : TokenKind) (extra : Nat) (cause : Malformed) :
    Option Nat → Except (Malformed × Nat) (TokenKind × Nat)
  | some n => .ok (kind, n + extra)
  | none => .error (cause, 0)

/-- The token that begins with `c` and goes on in `r`: its kind, and how many characters of `r`
belong to it.  The offset of a fault counts from `c`. -/
def lexeme [Limits] (previous : Option Token) (c : Char) (r : Text) :
    Except (Malformed × Nat) (TokenKind × Nat) :=
  if c = '/' && r.startsWith ['/'] then .ok (.comment, (r.takeWhile (· ≠ '\n')).length)
  else if c = '/' && r.startsWith ['*'] then
    literal .comment 1 .openComment (blockCommentLength? (r.drop 1))
  else if c = '\'' || c = '"' then literal .string 0 .openString (stringLength? c r)
  else if c = templateMark then
    (closingOffset deepest 1 [.template 0] r).map (fun stop => (.template, stop - 1))
  else if startsIdentifier c then .ok (.identifier, (r.takeWhile continuesIdentifier).length)
  else if isDigit c || (c = '.' && (r.head?).any isDigit) then
    .ok (.number, (r.takeWhile (fun d => continuesIdentifier d || d = '.')).length)
  else if c = '/' && regexMayFollow previous then
    literal .regex 0 .openRegex (regexLength? false r)
  else if c = '.' && r.startsWith ['.', '.'] then .ok (.punctuation, 2)
  else if c = '=' && r.startsWith ['>'] then .ok (.punctuation, 1)
  else .ok (.punctuation, 0)

/-- The tokens of the rest of a script from offset `pos` on, behind the code token `previous`. -/
def tokensFrom [Limits] (pos : Nat) (previous : Option Token) :
    Text → Except (Malformed × Nat) (List Token)
  | [] => .ok []
  | c :: r =>
    if isBlank c then tokensFrom (pos + 1) previous r
    else
      match lexeme previous c r with
      | .error (cause, offset) => .error (cause, pos + offset)
      | .ok (kind, n) =>
        let t : Token := ⟨kind, String.ofList (c :: r.take n), pos⟩
        let previous' := if kind = .comment then previous else some t
        (tokensFrom (pos + 1 + n) previous' (r.drop n)).map (t :: ·)
termination_by t => t.length
decreasing_by all_goals simp only [List.length_cons, List.length_drop]; omega

theorem tokensFrom_nil [Limits] (pos : Nat) (previous : Option Token) :
    tokensFrom pos previous [] = .ok [] :=
  tokensFrom.eq_def pos previous []

theorem tokensFrom_cons [Limits] (pos : Nat) (previous : Option Token) (c : Char) (r : Text) :
    tokensFrom pos previous (c :: r) =
      if isBlank c then tokensFrom (pos + 1) previous r
      else
        match lexeme previous c r with
        | .error (cause, offset) => .error (cause, pos + offset)
        | .ok (kind, n) =>
          let t : Token := ⟨kind, String.ofList (c :: r.take n), pos⟩
          let previous' := if kind = .comment then previous else some t
          (tokensFrom (pos + 1 + n) previous' (r.drop n)).map (t :: ·) :=
  tokensFrom.eq_def pos previous (c :: r)

/-- The tokens of a script, comments included. -/
def tokenize [Limits] (t : Text) : Except (Fault Malformed) (List Token) :=
  (tokensFrom 0 none t).mapError (fun e => Fault.ofOffset t e.1 e.2)

end WasmPackage.Script
