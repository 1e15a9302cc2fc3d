import WasmPackage.Script.Token

/-!
# Matching brackets

The brackets of a script are the punctuation tokens of three kinds.  Matching them is one pass with
a stack of the brackets that are open; its answer is the list of pairs of token indices.
-/

namespace WasmPackage.Script

/-- The brackets, opening and closing. -/
def bracketPairs : List (String × String) :=
  [("(", ")"), ("[", "]"), ("\x7b", "\x7d")]

/-- The closing brackets. -/
def closers : List String :=
  bracketPairs.map (·.2)

namespace Token

/-- The text of the bracket that closes this one, if the token is an opening bracket. -/
def closer? (t : Token) : Option String :=
  if t.kind = .punctuation then bracketPairs.lookup t.text else none

/-- Is this a closing bracket? -/
def closes (t : Token) : Bool :=
  t.kind = .punctuation && closers.contains t.text

end Token

/-- The pairs of brackets in the rest of the tokens, which begin at index `i`, behind the open
brackets `opened`, innermost first.  A fault is placed where its token begins. -/
def bracketsFrom (i : Nat) (opened : List (Nat × Token)) :
    List Token → Except (Malformed × Nat) (List (Nat × Nat))
  | [] =>
    match opened with
    | [] => .ok []
    | (_, t) :: _ => .error (.unclosed t.text, t.start)
  | t :: r =>
    if t.closer?.isSome then bracketsFrom (i + 1) ((i, t) :: opened) r
    else if t.closes then
      match opened with
      | [] => .error (.unbalanced t.text, t.start)
      | (j, o) :: outer =>
        if o.closer? = some t.text then (bracketsFrom (i + 1) outer r).map ((j, i) :: ·)
        else .error (.mismatched t.text, t.start)
    else bracketsFrom (i + 1) opened r

/-- The pairs of indices of matching brackets. -/
def matchBrackets (tokens : List Token) : Except (Malformed × Nat) (List (Nat × Nat)) :=
  bracketsFrom 0 [] tokens

end WasmPackage.Script
