import WasmPackage.Shell.Command

/-!
# Reading tool scripts

A script is split into words, operators and line ends, and these are read into commands.  A script
that holds anything else cannot be read.
-/

namespace WasmPackage.Shell

/-! ## Parameters -/

/-- Is this a character of a parameter's name? -/
def isNameChar (c : Char) : Bool :=
  c.isAlphanum || c = '_'

/-- Can this be the name of a variable? -/
def isVariableName (t : Text) : Bool :=
  t.all isNameChar && t.head?.any (!Char.isDigit ·)

/-- Is this a parameter that is named by one sign or digit? -/
def isSpecial (c : Char) : Bool :=
  c.isDigit || ['@', '*', '#', '?', '$'].contains c

/-- The sign around a command whose output would stand in its place. -/
def backquote : Char := '\x60'

/-- What a dollar sign begins, with the number of characters behind the sign: a parameter, which may
stand in braces.  Before anything but that, a bracket or a brace it stands for itself. -/
def dollar? (quoted : Bool) : Text → Option (WordPart × Nat)
  | '(' :: _ => none
  | '{' :: r =>
    let name := r.takeWhile (· ≠ '}')
    let isKnown := isVariableName name || (name.length = 1 && name.all isSpecial)
    if isKnown && name.length < r.length then some (.parameter name quoted, name.length + 2)
    else none
  | t =>
    let name := if t.head?.any isSpecial then t.take 1 else t.takeWhile isNameChar
    some (if name.isEmpty then .literal ['$'] quoted else .parameter name quoted, name.length)

/-! ## Words -/

/-- The characters that end a word. -/
def endsWord (c : Char) : Bool :=
  [' ', '\t', '\n', ';', '&', '|', '<', '>', '(', ')'].contains c

/-- What a backslash and the character behind it stand for in a quotation. -/
def quotedEscape (c : Char) : Text :=
  if c = '\n' then []
  else if ['$', '"', '\\', backquote].contains c then [c]
  else ['\\', c]

/-- The parts of a quotation up to its closing mark, and the text behind that; `fuel` bounds their
number. -/
def quotation? (fuel : Nat) (t : Text) : Option (Word × Text) :=
  match fuel, t with
  | 0, _ => none
  | _, [] => none
  | fuel + 1, c :: r =>
    let behind := fun (part : WordPart) (rest : Text) =>
      (quotation? fuel rest).map (fun (w, rest) => (part :: w, rest))
    if c = '"' then some ([], r)
    else if c = backquote then none
    else if c = '$' then (dollar? true r).bind (fun (part, n) => behind part (r.drop n))
    else
      match c, r with
      | '\\', d :: r => behind (.literal (quotedEscape d) true) r
      | _, _ => behind (.literal [c] true) r

/-- A word up to a character that ends it, with the text behind it; `fuel` bounds the number of its
parts. -/
def word? (fuel : Nat) (t : Text) : Option (Word × Text) :=
  match fuel, t with
  | 0, _ => none
  | _, [] => some ([], [])
  | fuel + 1, c :: r =>
    let behind := fun (w : Word) (rest : Text) =>
      (word? fuel rest).map (fun (w', rest) => (w ++ w', rest))
    if endsWord c then some ([], c :: r)
    else if c = backquote then none
    else if c = '\'' then
      let body := r.takeWhile (· ≠ '\'')
      if body.length = r.length then none
      else behind [.literal body true] (r.drop (body.length + 1))
    else if c = '"' then
      -- a quotation is a word even if nothing stands in it
      (quotation? (r.length + 1) r).bind (fun (w, rest) => behind (.literal [] true :: w) rest)
    else if c = '$' then (dollar? false r).bind (fun (part, n) => behind [part] (r.drop n))
    else
      match c, r with
      | '\\', '\n' :: r => behind [] r
      | '\\', d :: r => behind [.literal [d] true] r
      | _, _ => behind [.literal [c] false] r

/-- The characters of a word that has neither quotes nor parameters. -/
def plainText? : Word → Option Text
  | [] => some []
  | .literal t false :: r => (plainText? r).map (t ++ ·)
  | _ :: _ => none

/-! ## Lexemes -/

/-- What a lexeme is: a word, an operator, or a redirection mark with the number of the stream
before it. -/
inductive LexemeKind
  | word (w : Word)
  | operator (text : String)
  | redirect (stream : Option Nat) (mark : String)
deriving DecidableEq, Repr

/-- A lexeme of a script with the line that it stands on. -/
structure Lexeme where
  kind : LexemeKind
  line : Nat
deriving DecidableEq, Repr

/-- The operators, a longer one before those that it begins with. -/
def operators : List String := ["&&", "||", "|", ";", "\n"]

/-- The redirection marks, a longer one before those that it begins with. -/
def redirectMarks : List String := [">>", ">&", ">", "<"]

/-- The first of some marks that a text begins with. -/
def markAt? (marks : List String) (t : Text) : Option String :=
  marks.find? (fun m => Text.startsWith t m.toList)

/-- The lexemes of a script from a line on; `fuel` bounds their number. -/
def lexemesFrom? (fuel line : Nat) (t : Text) : Option (List Lexeme) :=
  match fuel, t with
  | 0, _ => none
  | _, [] => some []
  | fuel + 1, c :: r =>
    let behind := fun (kind : LexemeKind) (rest : Text) =>
      let lines := ((c :: r).take ((c :: r).length - rest.length)).count '\n'
      (lexemesFrom? fuel (line + lines) rest).map (⟨kind, line⟩ :: ·)
    let number := (c :: r).takeWhile Char.isDigit
    let behindNumber := (c :: r).drop number.length
    if c = ' ' || c = '\t' then lexemesFrom? fuel line r
    else if c = '#' then lexemesFrom? fuel line (r.dropWhile (· ≠ '\n'))
    else
      match markAt? redirectMarks behindNumber, markAt? operators (c :: r) with
      | some mark, _ =>
        behind (.redirect (String.ofList number).toNat? mark) (behindNumber.drop mark.length)
      | none, some operator => behind (.operator operator) ((c :: r).drop operator.length)
      | none, none =>
        if endsWord c then none
        else (word? (r.length + 2) (c :: r)).bind (fun (w, rest) => behind (.word w) rest)

/-- Something that was read, with the lexemes behind it. -/
abbrev Read (α : Type) := α × List Lexeme

/-- Is this lexeme the operator? -/
def isOperator (text : String) (l : Lexeme) : Bool :=
  l.kind = .operator text

/-- The characters of a lexeme that is a word without quotes and parameters. -/
def Lexeme.plainText? (l : Lexeme) : Option Text :=
  match l.kind with
  | .word w => Shell.plainText? w
  | _ => none

/-- Is this lexeme the reserved word? -/
def isReserved (text : String) (l : Lexeme) : Bool :=
  l.plainText? = some text.toList

/-- The lexemes behind line ends. -/
def skipLines (ls : List Lexeme) : List Lexeme :=
  ls.dropWhile (isOperator "\n")

/-- The lexemes behind the first one, which must pass. -/
def behind? (passes : Lexeme → Bool) : List Lexeme → Option (List Lexeme)
  | l :: r => if passes l then some r else none
  | [] => none

/-! ## Commands -/

/-- The redirection that a mark and the word behind it stand for. -/
def redirect? (stream : Option Nat) (mark : String) (w : Word) : Option Redirect :=
  match mark with
  | ">" => some (.output (stream.getD 1) false w)
  | ">>" => some (.output (stream.getD 1) true w)
  | "<" => some (.input w)
  | _ => do return .duplicate (stream.getD 1) (← (String.ofList (← plainText? w)).toNat?)

/-- The words and redirections at the front of the lexemes. -/
def simple : List Lexeme → Option (Read (List Word × List Redirect))
  | ⟨.word w, _⟩ :: r => do
    let ((words, rs), rest) ← simple r
    return ((w :: words, rs), rest)
  | ⟨.redirect stream mark, _⟩ :: ⟨.word w, _⟩ :: r => do
    let first ← redirect? stream mark w
    let ((words, rs), rest) ← simple r
    return ((words, first :: rs), rest)
  | ⟨.redirect _ _, _⟩ :: _ => none
  | ls => some (([], []), ls)

/-- Does this lexeme end a list of commands? -/
def endsList (l : Lexeme) : Bool :=
  isReserved "\x7d" l || isReserved "done" l

mutual

/-- One command; `fuel` bounds the number of commands that are read one behind or inside another. -/
def command (fuel : Nat) (ls : List Lexeme) : Option (Read Command) :=
  match fuel, ls with
  | 0, _ => none
  | _, [] => none
  | fuel + 1, l :: r =>
    if isReserved "\x7b" l then do
      let (body, rest) ← commands fuel r
      let ((words, rs), rest) ← simple (← behind? (isReserved "\x7d") rest)
      -- only redirections may stand behind a group
      if words.isEmpty then return (.group l.line body rs, rest) else none
    else if isReserved "for" l then do
      let name ← r.head?.bind Lexeme.plainText?
      let r ← behind? (fun _ => isVariableName name) r
      let (words, rest) ← match behind? (isReserved "in") (skipLines r) with
        | some r => do
          let ((words, rs), rest) ← simple r
          if rs.isEmpty then pure (some words, rest) else none
        | none => pure (none, r)
      let rest := (behind? (isOperator ";") rest).getD rest
      let (body, rest) ← commands fuel (← behind? (isReserved "do") (skipLines rest))
      return (.each name words body, ← behind? (isReserved "done") rest)
    else if endsList l then none
    else do
      let ((words, rs), rest) ← simple (l :: r)
      if words.isEmpty && rs.isEmpty then none else return (.simple l.line words rs, rest)

/-- Commands joined by pipes, behind those that are read. -/
def piped (fuel : Nat) (first : Option Command) (ls : List Lexeme) : Option (Read Command) :=
  match fuel with
  | 0 => none
  | fuel + 1 => do
    let (c, rest) ← command fuel ls
    let whole := (first.map (Command.pipe · c)).getD c
    match behind? (isOperator "|") rest with
    | some r => piped fuel whole (skipLines r)
    | none => return (whole, rest)

/-- Commands joined by their success or failure, behind the command that has been read. -/
def joined (fuel : Nat) (first : Command) (ls : List Lexeme) : Option (Read Command) :=
  match fuel with
  | 0 => none
  | fuel + 1 =>
    match behind? (isOperator "&&") ls, behind? (isOperator "||") ls with
    | some r, _ => do
      let (second, rest) ← piped fuel none (skipLines r)
      joined fuel (.andThen first second) rest
    | none, some r => do
      let (second, rest) ← piped fuel none (skipLines r)
      joined fuel (.orElse first second) rest
    | none, none => some (first, ls)

/-- Commands up to a word that ends a list, or up to the end. -/
def commands (fuel : Nat) (ls : List Lexeme) : Option (Read (List Command)) :=
  match fuel with
  | 0 => none
  | fuel + 1 =>
    let ls := skipLines ls
    if ls.head?.all endsList then some ([], ls)
    else do
      let (first, rest) ← piped fuel none ls
      let (c, rest) ← joined fuel first rest
      match behind? (fun l => isOperator ";" l || isOperator "\n" l) rest with
      | some r =>
        let (cs, rest) ← commands fuel r
        return (c :: cs, rest)
      | none => return ([c], rest)

end

/-- The commands of a script. -/
def readScript? (t : Text) : Option (List Command) := do
  let ls ← lexemesFrom? (t.length + 1) 1 t
  let (cs, rest) ← commands (4 * ls.length + 4) ls
  if rest.isEmpty then return cs else none

end WasmPackage.Shell
