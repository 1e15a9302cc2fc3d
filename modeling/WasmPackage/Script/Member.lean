import WasmPackage.Script.Signature

/-!
# Class members

A member is modifiers, a name, and then parameters and a type, or a type and an initial value, and
last a body or a semicolon.  Modifiers are names themselves where nothing follows that they could
modify.
-/

namespace WasmPackage.Script

/-- The words that may stand before the name of a member. -/
def memberModifiers : List String :=
  ["static", "readonly", "public", "private", "protected", "async", "declare", "abstract",
    "override", "get", "set"]

/-- The marks before which such a word is the name of the member itself. -/
def nameFollowers : List String := ["(", ":", "=", ";", "?", "!", "<"]

/-- What the modifiers of a member say. -/
structure Modifiers where
  isStatic : Bool
  kind : MemberKind
deriving DecidableEq, Repr

/-- What one more modifier says. -/
def Modifiers.push (m : Modifiers) : String → Modifiers
  | "static" => { m with isStatic := true }
  | "get" => { m with kind := .getter }
  | "set" => { m with kind := .setter }
  | _ => m

/-- What stands behind the modifiers of a member: the index of its name, or a static block that
opens at an index. -/
inductive MemberHead
  | name (modifiers : Modifiers) (index : Nat)
  | staticBlock (index : Nat)
deriving DecidableEq, Repr

namespace Source

/-- The head of a member whose modifiers go on at index `i`, in a class that closes at `stop`. -/
def memberHead (s : Source) (stop i : Nat) (m : Modifiers) : MemberHead :=
  if i < stop then
    if s.wordIn memberModifiers i && !s.wordIn nameFollowers (i + 1) then
      -- a static block has no name, and is no member
      if s.is "static" i && s.is "\x7b" (i + 1) then .staticBlock (i + 1)
      else memberHead s stop (i + 1) (m.push ((s.word? i).getD ""))
    else .name m i
  else .name m i
termination_by stop - i

/-- The name that begins at index `i`, and the index of its last token.  A computed name is its
brackets and all between them, a private one begins with a number sign. -/
def memberName? (s : Source) (stop i : Nat) : Option (String × Nat) :=
  match s.kind? i with
  | some .identifier | some .string | some .number => some ((s.word? i).getD "", i)
  | _ =>
    if s.is "[" i then
      let close := (s.closer? i).getD i
      some (s.excerpt (s.startAt i) (s.stopAt close), close)
    else if s.is "#" i && i + 1 < stop then some ("#" ++ (s.word? (i + 1)).getD "", i + 1)
    else none

/-- The index behind the question and exclamation marks from index `i` on. -/
def skipMarks (s : Source) (i : Nat) : Nat :=
  if i < s.size then if s.wordIn ["?", "!"] i then skipMarks s (i + 1) else i else i
termination_by s.size - i

/-- The index of the semicolon that ends the initial value which goes on at index `i`, at most
`stop`. -/
def initialValueStop (s : Source) (stop i : Nat) : Nat :=
  if i < stop ∧ s.is ";" i = false then initialValueStop s stop (s.skip i) else i
termination_by stop - i
decreasing_by
  have := s.lt_skip i
  omega

/-- The member whose name, from token `first` to token `last`, is `name`, and the index behind it.
It began at token `start`, with these modifiers. -/
def memberAt (s : Source) (stop start : Nat) (modifiers : Modifiers) (first : Nat)
    (name : String) (last : Nat) : Member × Nat :=
  let i := s.behindTypeParameters (s.skipMarks (last + 1))
  let isCallable := s.is "(" i
  let behindParams := if isCallable then s.skip i else i
  let note := s.typeNote stop behindParams
  let j :=
    if !isCallable && s.is "=" note.2 then s.initialValueStop stop note.2 else note.2
  -- what has no parameters is a property, unless a modifier made it an accessor
  let kind := if isCallable || modifiers.kind ≠ .method then modifiers.kind else .property
  let body := if s.is "\x7b" j then some (s.startAt j, s.stopAt ((s.closer? j).getD j)) else none
  let next := if body.isSome then s.skip j else if s.is ";" j then j + 1 else j
  ({ name, kind
     isStatic := modifiers.isStatic
     start := s.startAt start
     nameStart := s.startAt first
     nameStop := s.stopAt last
     stop := s.stopAt (next - 1)
     doc := s.doc? start
     params := if isCallable then s.params i else []
     paramsStop := if isCallable then some (s.stopAt (behindParams - 1)) else none
     returnType := note.1
     body }, next)

/-- The member that begins at index `start` of a class which closes at index `stop`, if it is one,
and the index at which to go on. -/
def member (s : Source) (stop start : Nat) : Option Member × Nat :=
  match s.memberHead stop start ⟨false, .method⟩ with
  | .staticBlock i => (none, s.skip i)
  | .name modifiers i =>
    -- the asterisk of a generator stands before its name
    let first := if s.is "*" i then i + 1 else i
    if first < stop then
      match s.memberName? stop first with
      | some (name, last) =>
        let (m, next) := s.memberAt stop start modifiers first name last
        (some m, next)
      | none => (none, first + 1)
    else (none, stop)

/-- The members from index `i` on, of a class that closes at index `stop`. -/
def membersFrom (s : Source) (stop i : Nat) : List Member :=
  if i < stop then
    if s.is ";" i then membersFrom s stop (i + 1)
    else
      let (m, next) := s.member stop i
      m.toList ++ membersFrom s stop (max (i + 1) next)
  else []
termination_by stop - i

end Source

end WasmPackage.Script
