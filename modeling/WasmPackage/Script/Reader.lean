import WasmPackage.Script.Member

/-!
# Reading outlines

The items of a script are read one behind another: words that export or qualify a declaration, then
a class or a function, or else a statement.
-/

namespace WasmPackage.Script

/-- Why a script has no outline. -/
inductive OutlineError
  | malformed (fault : Fault Malformed)
  | namelessFunction
deriving DecidableEq, Repr

/-- The words that may stand before a declaration. -/
def declarationModifiers : List String := ["export", "default", "declare", "abstract"]

/-- The words that show, behind a closing brace, that a new statement begins. -/
def statementStarters : List String :=
  ["function", "class", "export", "import", "let", "const", "var", "if", "async"]

/-- How a declaration behind these words is exported. -/
def ExportKind.ofWords (words : List String) : ExportKind :=
  if words.contains "default" then .default
  else if words.contains "export" then .named
  else .none

namespace Source

/-- The first index from `i` on that no modifier of a declaration stands at. -/
def behindModifiers (s : Source) (i : Nat) : Nat :=
  if i < s.size then
    if s.wordIn declarationModifiers i then behindModifiers s (i + 1) else i
  else i
termination_by s.size - i

/-- A fault placed where code token `i` begins. -/
def fault (s : Source) (cause : Malformed) (i : Nat) : OutlineError :=
  .malformed (Fault.ofOffset s.text cause (s.startAt i))

/-- The class that begins at index `start`, with its keyword at index `keyword`, and the index
behind it. -/
def classDecl (s : Source) (start keyword : Nat) : Except OutlineError (ClassShape × Nat) :=
  match s.find? "\x7b" (keyword + 2) with
  | none => .error (s.fault .classWithoutBody (keyword + 1))
  | some i =>
    let close := (s.closer? i).getD i
    .ok ({ name := (s.word? (keyword + 1)).getD ""
           start := s.startAt start
           stop := s.stopAt close
           bodyOpen := s.startAt i
           bodyClose := s.startAt close
           members := s.membersFrom close (i + 1) }, s.skip i)

/-- The function that begins at index `start`, with its own words from index `keyword` on, and the
index behind it.  Without a body or a semicolon its span ends with its parameters. -/
def functionDecl (s : Source) (start keyword : Nat) (exported : ExportKind) :
    Except OutlineError (FunctionShape × Nat) :=
  let behindKeyword := if s.is "async" keyword then keyword + 2 else keyword + 1
  let name := if s.is "*" behindKeyword then behindKeyword + 1 else behindKeyword
  match s.word? name with
  | none => .error .namelessFunction
  | some text =>
    let i := s.behindTypeParameters (name + 1)
    if s.is "(" i then
      let behindParams := s.skip i
      let note := s.typeNote s.size behindParams
      let j := note.2
      let body :=
        if s.is "\x7b" j then some (s.startAt j, s.stopAt ((s.closer? j).getD j)) else none
      let isEnded := body.isSome || s.is ";" j
      let next := if isEnded then s.skip j else j
      .ok ({ name := text
             exported
             start := s.startAt start
             keywordStart := s.startAt keyword
             nameStart := s.startAt name
             nameStop := s.stopAt name
             stop := s.stopAt ((if isEnded then next else behindParams) - 1)
             params := s.params i
             returnType := note.1
             body }, next)
    else .error (s.fault .functionWithoutParameters name)

/-- The index behind the statement that goes on at index `i`: behind a semicolon, behind a brace
that something new follows, or behind the code. -/
def statementStop (s : Source) (i : Nat) : Nat :=
  if i < s.size then
    if (s.closer? i).isSome then
      let j := s.skip i
      if s.is "\x7b" i && (s.size ≤ j || s.wordIn statementStarters j) then j
      else statementStop s j
    else if s.is ";" i then i + 1
    else statementStop s (i + 1)
  else i
termination_by s.size - i
decreasing_by
  all_goals
    have := s.lt_skip i
    omega

/-- The item that begins at index `start`, and the index behind it. -/
def item (s : Source) (start : Nat) : Except OutlineError (Item × Nat) :=
  let i := s.behindModifiers start
  let more := i + 1 < s.size
  let isFunction := s.is "function" i || (s.is "async" i && s.is "function" (i + 1))
  if s.is "class" i && more then
    (s.classDecl start i).map (fun (c, next) => (.classDecl c, next))
  else if isFunction && more then
    (s.functionDecl start i (.ofWords (s.words start i))).map
      (fun (f, next) => (.function f, next))
  else
    let next := s.statementStop start
    .ok (.statement ⟨s.startAt start, s.stopAt (next - 1), s.words start next⟩, next)

/-- The items from index `i` on. -/
def itemsFrom (s : Source) (i : Nat) : Except OutlineError (List Item) :=
  if i < s.size then
    match s.item i with
    | .error e => .error e
    | .ok (it, next) => (itemsFrom s (max (i + 1) next)).map (it :: ·)
  else .ok []
termination_by s.size - i

end Source

/-- The outline of a script. -/
def outline [Limits] (t : Text) : Except OutlineError Outline :=
  match Source.read t with
  | .error fault => .error (.malformed fault)
  | .ok s => (s.itemsFrom 0).map (⟨s, ·⟩)

end WasmPackage.Script
