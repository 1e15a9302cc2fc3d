import WasmPackage.Script.Reader

/-!
# Outlines by look-ups that can fail

The readers of outlines go by indices, and have an answer for every index.  Here they are written
once more with look-ups that fail where there is no token or no closing bracket, and with loops that
fail where they do not advance.
-/

namespace WasmPackage.Script

/-- Why a script has no outline if look-ups may fail. -/
inductive CheckedError
  | malformed (fault : Fault Malformed)
  | noToken
  | noPartner
  | stuck
deriving DecidableEq, Repr

/-- A function without a name fails at a look-up. -/
def OutlineError.checked : OutlineError → CheckedError
  | .malformed fault => .malformed fault
  | .namelessFunction => .noToken

namespace Checked

/-! ## Readers -/

/-- Code token `i`. -/
def token (s : Source) (i : Nat) : Except CheckedError Token :=
  match s.code[i]? with
  | some x => .ok x
  | none => .error .noToken

/-- The index of the bracket that closes the one at index `i`. -/
def partner (s : Source) (i : Nat) : Except CheckedError Nat :=
  match s.closer? i with
  | some j => .ok j
  | none => .error .noPartner

/-- The index behind code token `i` or, if a bracket opens there, behind the bracket that closes
it. -/
def advance (s : Source) (i : Nat) : Except CheckedError { j : Nat // i < j } := do
  let x ← token s i
  if x.closer?.isSome then
    let j ← partner s i
    if h : i < j + 1 then return ⟨j + 1, h⟩ else throw .stuck
  else return ⟨i + 1, Nat.lt_succ_self i⟩

/-- The marks of a parameter. -/
def paramMarks (s : Source) (close i : Nat) (colon default : Option Nat) :
    Except CheckedError Source.ParamMarks :=
  if _ : i < close ∧ s.is "," i = false then do
    let x ← token s i
    if x.closer?.isSome then
      let ⟨next, _⟩ ← advance s i
      paramMarks s close next colon default
    else if colon.isNone && default.isNone && s.is ":" i then
      paramMarks s close (i + 1) (some i) default
    else if default.isNone && s.is "=" i then paramMarks s close (i + 1) colon (some i)
    else paramMarks s close (i + 1) colon default
  else return ⟨i, colon, default⟩
termination_by close - i

/-- The parameter between index `start` and its marks. -/
def param (s : Source) (start : Nat) (marks : Source.ParamMarks) :
    Except CheckedError Parameter := do
  let first ← token s start
  let name ← token s (if s.is "..." start then start + 1 else start)
  let last ← token s (marks.stop - 1)
  match marks.colon with
  | none => return ⟨name.text, none, first.start, last.stop⟩
  | some colon =>
    let typeFirst ← token s (colon + 1)
    let typeLast ← token s ((marks.default.map (· - 1)).getD (marks.stop - 1))
    let type := String.ofList (s.text.slice typeFirst.start typeLast.stop).trim
    return ⟨name.text, some type, first.start, last.stop⟩

/-- The parameters from index `i` on, of a list that closes at index `close`. -/
def paramsFrom (s : Source) (close i : Nat) : Except CheckedError (List Parameter) :=
  if _ : i < close then do
    let marks ← paramMarks s close i none none
    let first ← param s i marks
    if _ : i < marks.stop + 1 then
      let rest ← paramsFrom s close (marks.stop + 1)
      return first :: rest
    else throw .stuck
  else return []
termination_by close - i

/-- The parameters of the list that opens at index `i`. -/
def params (s : Source) (i : Nat) : Except CheckedError (List Parameter) := do
  paramsFrom s (← partner s i) (i + 1)

/-- Does the type before index `i` end there, with `angles` angle brackets open? -/
def typeStopsAt (s : Source) (i angles : Nat) : Except CheckedError Bool :=
  if angles ≠ 0 then return false
  else if s.is ";" i then return true
  else if s.is "\x7b" i && 0 < i then do
    let x ← token s (i - 1)
    return x.kind = .identifier || [">", "]", ")"].contains x.text
  else return false

/-- The index behind the type that goes on at index `i` with `angles` angle brackets open. -/
def typeStop (s : Source) (stop i angles : Nat) : Except CheckedError Nat :=
  if _ : i < stop then do
    let _ ← token s i
    if s.is "<" i then typeStop s stop (i + 1) (angles + 1)
    else if s.is ">" i && 0 < angles then typeStop s stop (i + 1) (angles - 1)
    else
      if ← typeStopsAt s i angles then return i
      else
        let ⟨next, _⟩ ← advance s i
        typeStop s stop next angles
  else return stop
termination_by stop - i

/-- The type behind a colon at index `i`, if there is one, and the index behind it. -/
def typeNote (s : Source) (stop i : Nat) : Except CheckedError (Option TypeNote × Nat) :=
  if s.is ":" i then do
    let e ← typeStop s stop (i + 1) 0
    if i + 1 < e then
      let first ← token s (i + 1)
      let last ← token s (e - 1)
      return (some ⟨s.excerpt first.start last.stop, first.start, last.stop⟩, e)
    else return (none, e)
  else return (none, i)

/-- The name that begins at index `i`, and the index of its last token. -/
def memberName (s : Source) (stop i : Nat) : Except CheckedError (Option (String × Nat)) := do
  let x ← token s i
  match x.kind with
  | .identifier | .string | .number => return some (x.text, i)
  | _ =>
    if s.is "[" i then
      let close ← partner s i
      let y ← token s close
      return some (s.excerpt x.start y.stop, close)
    else if s.is "#" i && i + 1 < stop then
      let y ← token s (i + 1)
      return some ("#" ++ y.text, i + 1)
    else return none

/-- The index of the semicolon that ends the initial value which goes on at index `i`. -/
def initialValueStop (s : Source) (stop i : Nat) : Except CheckedError Nat :=
  if _ : i < stop ∧ s.is ";" i = false then do
    let ⟨next, _⟩ ← advance s i
    initialValueStop s stop next
  else return i
termination_by stop - i

/-- The parameters of a member at index `i`, the offset behind them and the index behind them. -/
def memberParams (s : Source) (i : Nat) :
    Except CheckedError (List Parameter × Option Nat × Nat) :=
  if s.is "(" i then do
    let close ← partner s i
    let y ← token s close
    return (← params s i, some y.stop, close + 1)
  else return ([], none, i)

/-- The body that begins at index `j`, the offset at which its owner ends, and the index behind that
one.  Without a body or a semicolon the owner ends with the token before. -/
def ending (s : Source) (j : Nat) :
    Except CheckedError (Option (Nat × Nat) × Nat × Nat) :=
  if s.is "\x7b" j then do
    let close ← partner s j
    let x ← token s j
    let y ← token s close
    return (some (x.start, y.stop), y.stop, close + 1)
  else if s.is ";" j then do
    let x ← token s j
    return (none, x.stop, j + 1)
  else do
    let x ← token s (j - 1)
    return (none, x.stop, j)

/-- The index behind the initial value at index `j`, of a member whose name ends before index
`i`. -/
def memberValue (s : Source) (stop i j : Nat) : Except CheckedError Nat :=
  if !s.is "(" i && s.is "=" j then initialValueStop s stop j else return j

/-- The member whose name, from token `first` to token `last`, is `name`, and the index behind
it. -/
def memberAt (s : Source) (stop start : Nat) (modifiers : Modifiers) (first : Nat) (name : String)
    (last : Nat) : Except CheckedError (Member × Nat) := do
  let x ← token s start
  let y ← token s first
  let z ← token s last
  let i := s.behindTypeParameters (s.skipMarks (last + 1))
  let (params, paramsStop, behindParams) ← memberParams s i
  let (returnType, behindType) ← typeNote s stop behindParams
  let j ← memberValue s stop i behindType
  let (body, memberStop, next) ← ending s j
  return ({ name
            kind := if s.is "(" i || modifiers.kind ≠ .method then modifiers.kind else .property
            isStatic := modifiers.isStatic
            start := x.start
            nameStart := y.start
            nameStop := z.stop
            stop := memberStop
            doc := s.doc? start
            params
            paramsStop
            returnType
            body }, next)

/-- The member that begins at index `start`, if it is one, and the index at which to go on. -/
def member (s : Source) (stop start : Nat) : Except CheckedError (Option Member × Nat) :=
  match s.memberHead stop start ⟨false, .method⟩ with
  | .staticBlock i => do return (none, (← partner s i) + 1)
  | .name modifiers i =>
    let first := if s.is "*" i then i + 1 else i
    if first < stop then do
      match ← memberName s stop first with
      | some (name, last) =>
        let (m, next) ← memberAt s stop start modifiers first name last
        return (some m, next)
      | none => return (none, first + 1)
    else return (none, stop)

/-- The members from index `i` on, of a class that closes at index `stop`. -/
def membersFrom (s : Source) (stop i : Nat) : Except CheckedError (List Member) :=
  if _ : i < stop then
    if s.is ";" i then membersFrom s stop (i + 1)
    else do
      let (m, next) ← member s stop i
      if _ : i < next then
        let rest ← membersFrom s stop next
        return m.toList ++ rest
      else throw .stuck
  else return []
termination_by stop - i

/-- The class that begins at index `start`, with its keyword at index `keyword`, and the index
behind it. -/
def classDecl (s : Source) (start keyword : Nat) : Except CheckedError (ClassShape × Nat) := do
  let name ← token s (keyword + 1)
  match s.find? "\x7b" (keyword + 2) with
  | none => throw (.malformed (Fault.ofOffset s.text .classWithoutBody name.start))
  | some i =>
    let close ← partner s i
    let x ← token s start
    let y ← token s close
    let z ← token s i
    let members ← membersFrom s close (i + 1)
    return (⟨name.text, x.start, y.stop, z.start, y.start, members⟩, close + 1)

/-- The body of a function whose parameters close at index `close`, and what is behind them at index
`j`.  Without a body or a semicolon the function ends with its parameters. -/
def functionEnding (s : Source) (close j : Nat) :
    Except CheckedError (Option (Nat × Nat) × Nat × Nat) :=
  if s.is "\x7b" j || s.is ";" j then ending s j
  else do return (none, (← token s close).stop, j)

/-- The function that begins at index `start`, with its own words from index `keyword` on, and the
index behind it. -/
def functionDecl (s : Source) (start keyword : Nat) (exported : ExportKind) :
    Except CheckedError (FunctionShape × Nat) := do
  let behindKeyword := if s.is "async" keyword then keyword + 2 else keyword + 1
  let nameIndex := if s.is "*" behindKeyword then behindKeyword + 1 else behindKeyword
  let name ← token s nameIndex
  let i := s.behindTypeParameters (nameIndex + 1)
  if s.is "(" i then
    let close ← partner s i
    let x ← token s start
    let y ← token s keyword
    let params ← params s i
    let (returnType, j) ← typeNote s s.size (close + 1)
    let (body, stop, next) ← functionEnding s close j
    return (⟨name.text, exported, x.start, y.start, name.start, name.stop, stop, params, returnType,
      body⟩, next)
  else throw (.malformed (Fault.ofOffset s.text .functionWithoutParameters name.start))

/-- Does the bracket at index `i` end a statement, with index `j` behind it? -/
def blockEnds (s : Source) (i j : Nat) : Except CheckedError Bool :=
  if s.is "\x7b" i then
    if s.size ≤ j then return true
    else do return statementStarters.contains (← token s j).text
  else return false

/-- The index behind the statement that goes on at index `i`. -/
def statementStop (s : Source) (i : Nat) : Except CheckedError Nat :=
  if _ : i < s.size then do
    let x ← token s i
    if x.closer?.isSome then
      let ⟨j, _⟩ ← advance s i
      if ← blockEnds s i j then return j else statementStop s j
    else if s.is ";" i then return i + 1
    else statementStop s (i + 1)
  else return i
termination_by s.size - i

/-- The item that begins at index `start`, and the index behind it. -/
def item (s : Source) (start : Nat) : Except CheckedError (Item × Nat) :=
  let i := s.behindModifiers start
  let more := i + 1 < s.size
  let isFunction := s.is "function" i || (s.is "async" i && s.is "function" (i + 1))
  if s.is "class" i && more then do
    let (c, next) ← classDecl s start i
    return (.classDecl c, next)
  else if isFunction && more then do
    let (f, next) ← functionDecl s start i (.ofWords (s.words start i))
    return (.function f, next)
  else do
    let next ← statementStop s start
    let x ← token s start
    let y ← token s (next - 1)
    return (.statement ⟨x.start, y.stop, s.words start next⟩, next)

/-- The items from index `i` on. -/
def itemsFrom (s : Source) (i : Nat) : Except CheckedError (List Item) :=
  if _ : i < s.size then do
    let (it, next) ← item s i
    if _ : i < next then
      let rest ← itemsFrom s next
      return it :: rest
    else throw .stuck
  else return []
termination_by s.size - i

/-- The outline of a script. -/
def outline [Limits] (t : Text) : Except CheckedError Outline :=
  match Source.read t with
  | .error fault => .error (.malformed fault)
  | .ok s => (itemsFrom s 0).map (⟨s, ·⟩)

end Checked

end WasmPackage.Script
