import WasmPackage.Limits
import WasmPackage.Script.Token

/-!
# Literals of scripts

How far strings, comments, regular expressions and template literals reach.  Each function is given
the text behind the opening mark and counts the characters up to and with the closing one.
-/

namespace WasmPackage.Script

/-- The length of a string behind its opening mark: a backslash takes the next character along, and
a newline may not stand in it otherwise. -/
def stringLength? (mark : Char) : Text → Option Nat
  | '\\' :: _ :: r => (stringLength? mark r).map (· + 2)
  | ['\\'] => none
  | c :: r =>
    if c = mark then some 1
    else if c = '\n' then none
    else (stringLength? mark r).map (· + 1)
  | [] => none

/-- The length of a block comment behind its opening mark. -/
def blockCommentLength? : Text → Option Nat
  | '*' :: '/' :: _ => some 2
  | _ :: r => (blockCommentLength? r).map (· + 1)
  | [] => none

/-- The length of a regular expression behind its opening slash, with the flags behind the closing
one.  Inside a character class a slash is an ordinary character. -/
def regexLength? (inClass : Bool) : Text → Option Nat
  | '\\' :: _ :: r => (regexLength? inClass r).map (· + 2)
  | ['\\'] => none
  | c :: r =>
    if c = '\n' then none
    else if c = '/' && !inClass then some (1 + (r.takeWhile continuesIdentifier).length)
    else (regexLength? (c = '[' || (inClass && c ≠ ']')) r).map (· + 1)
  | [] => none

/-! ## Template literals -/

/-- The mark that a template literal stands between. -/
def templateMark : Char := '\x60'

/-- A construct inside a template literal that is still to be closed, and the offset at which it
began.  A substitution also counts the braces that are open in it. -/
inductive Enclosure
  | template (start : Nat)
  | substitution (start braces : Nat)
  | string (mark : Char) (start : Nat)
  | lineComment
  | blockComment (start : Nat)
deriving DecidableEq, Repr

/-- What is wrong when the text ends inside these constructs, innermost first.  A line comment is
allowed to end with the text, what stands around it is not. -/
def openFault : List Enclosure → Malformed × Nat
  | [] => (.openTemplate, 0)
  | .template start :: _ => (.openTemplate, start)
  | .substitution start _ :: _ => (.openSubstitution, start)
  | .string _ start :: _ => (.openString, start)
  | .lineComment :: outer => openFault outer
  | .blockComment start :: _ => (.openComment, start)

/-- How many template literals, substitutions and strings in them may stand in one another. -/
def deepest [Limits] : Nat :=
  Limits.literals + 1

/-- The offset at which all the open constructs have closed, for a text that goes on at offset `pos`
inside them.  A substitution holds code: strings, comments, braces and further templates.  At most
`limit` strings, templates and substitutions may stand in one another. -/
def closingOffset (limit pos : Nat) : List Enclosure → Text → Except (Malformed × Nat) Nat
  | [], _ => .ok pos
  | .template start :: outer, '\\' :: r =>
    match r with
    | [] => .error (.openTemplate, start)
    | _ :: r' => closingOffset limit (pos + 2) (.template start :: outer) r'
  | .template start :: outer, '$' :: '{' :: r =>
    if limit ≤ outer.length + 1 then .error (.tooDeep, pos)
    -- the brace behind the dollar sign is the first open one
    else closingOffset limit (pos + 2) (.substitution (pos + 2) 1 :: .template start :: outer) r
  | .template start :: outer, c :: r =>
    if c = templateMark then closingOffset limit (pos + 1) outer r
    else closingOffset limit (pos + 1) (.template start :: outer) r
  | .substitution start braces :: outer, '/' :: '/' :: r =>
    closingOffset limit (pos + 2) (.lineComment :: .substitution start braces :: outer) r
  | .substitution start braces :: outer, '/' :: '*' :: r =>
    closingOffset limit (pos + 2) (.blockComment pos :: .substitution start braces :: outer) r
  | .substitution start braces :: outer, c :: r =>
    if c = '\'' || c = '"' then
      if limit ≤ outer.length + 1 then .error (.tooDeep, pos)
      else closingOffset limit (pos + 1) (.string c pos :: .substitution start braces :: outer) r
    else if c = templateMark then
      if limit ≤ outer.length + 1 then .error (.tooDeep, pos)
      else closingOffset limit (pos + 1) (.template pos :: .substitution start braces :: outer) r
    else if c = '{' then closingOffset limit (pos + 1) (.substitution start (braces + 1) :: outer) r
    else if c = '}' then
      -- the last open brace is the one that began the substitution
      if braces ≤ 1 then closingOffset limit (pos + 1) outer r
      else closingOffset limit (pos + 1) (.substitution start (braces - 1) :: outer) r
    else closingOffset limit (pos + 1) (.substitution start braces :: outer) r
  | .string mark start :: outer, '\\' :: r =>
    match r with
    | [] => .error (.openString, start)
    | _ :: r' => closingOffset limit (pos + 2) (.string mark start :: outer) r'
  | .string mark start :: outer, c :: r =>
    if c = mark then closingOffset limit (pos + 1) outer r
    else if c = '\n' then .error (.openString, start)
    else closingOffset limit (pos + 1) (.string mark start :: outer) r
  | .lineComment :: outer, c :: r =>
    if c = '\n' then closingOffset limit (pos + 1) outer r
    else closingOffset limit (pos + 1) (.lineComment :: outer) r
  | .blockComment _ :: outer, '*' :: '/' :: r => closingOffset limit (pos + 2) outer r
  | .blockComment start :: outer, _ :: r =>
    closingOffset limit (pos + 1) (.blockComment start :: outer) r
  | e :: outer, [] => .error (openFault (e :: outer))

end WasmPackage.Script
