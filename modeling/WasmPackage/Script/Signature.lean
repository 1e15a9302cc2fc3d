import WasmPackage.Script.Outline

/-!
# Parameters and types

Parameter lists and type annotations are read from the code tokens by their indices.  Commas and
colons count only outside inner brackets, and a type ends where no angle bracket is open.
-/

namespace WasmPackage.Script

namespace Source

/-! ## Parameters -/

/-- Where a parameter ends, and the indices of the colon before its type and of the sign before its
default value. -/
structure ParamMarks where
  stop : Nat
  colon : Option Nat
  default : Option Nat
deriving DecidableEq, Repr

/-- The marks of a parameter that goes on at index `i` of a list which closes at index `close`: the
first colon before any default value, and the first equals sign. -/
def paramMarks (s : Source) (close i : Nat) (colon default : Option Nat) : ParamMarks :=
  if i < close ∧ s.is "," i = false then
    -- commas and colons between inner brackets belong to the type or the default value
    if (s.closer? i).isSome then paramMarks s close (s.skip i) colon default
    else if colon.isNone && default.isNone && s.is ":" i then
      paramMarks s close (i + 1) (some i) default
    else if default.isNone && s.is "=" i then paramMarks s close (i + 1) colon (some i)
    else paramMarks s close (i + 1) colon default
  else ⟨i, colon, default⟩
termination_by close - i
decreasing_by
  all_goals
    have := s.lt_skip i
    omega

/-- The parameter between index `start` and its marks. -/
def param (s : Source) (start : Nat) (marks : ParamMarks) : Parameter :=
  let name := if s.is "..." start then start + 1 else start
  let last := marks.stop - 1
  let type := marks.colon.map fun colon =>
    let typeLast := (marks.default.map (· - 1)).getD last
    String.ofList (s.text.slice (s.startAt (colon + 1)) (s.stopAt typeLast)).trim
  ⟨(s.word? name).getD "", type, s.startAt start, s.stopAt last⟩

/-- The parameters from index `i` on, of a list that closes at index `close`. -/
def paramsFrom (s : Source) (close i : Nat) : List Parameter :=
  if i < close then
    let marks := s.paramMarks close i none none
    s.param i marks :: paramsFrom s close (max (i + 1) (marks.stop + 1))
  else []
termination_by close - i

/-- The parameters of the list that opens at index `i`. -/
def params (s : Source) (i : Nat) : List Parameter :=
  s.paramsFrom ((s.closer? i).getD i) (i + 1)

/-! ## Types -/

/-- The tokens behind which a brace begins a body; behind others it belongs to the type. -/
def endsType (s : Source) (i : Nat) : Bool :=
  s.kind? i = some .identifier || s.wordIn [">", "]", ")"] i

/-- Does the type before index `i` end there, at a semicolon or at the brace of a body? -/
def typeStopsAt (s : Source) (i : Nat) : Bool :=
  s.is ";" i || (s.is "\x7b" i && 0 < i && s.endsType (i - 1))

/-- The index behind the type that goes on at index `i` with `angles` angle brackets open, at most
`stop`. -/
def typeStop (s : Source) (stop i angles : Nat) : Nat :=
  if i < stop then
    if s.is "<" i then typeStop s stop (i + 1) (angles + 1)
    else if s.is ">" i && 0 < angles then typeStop s stop (i + 1) (angles - 1)
    -- an object type inside angle brackets does not begin a body
    else if angles = 0 && s.typeStopsAt i then i
    else typeStop s stop (s.skip i) angles
  else stop
termination_by stop - i
decreasing_by
  all_goals
    have := s.lt_skip i
    omega

/-- The type behind a colon at index `i`, if there is one, and the index behind it. -/
def typeNote (s : Source) (stop i : Nat) : Option TypeNote × Nat :=
  if s.is ":" i then
    let e := s.typeStop stop (i + 1) 0
    if i + 1 < e then
      let first := s.startAt (i + 1)
      let last := s.stopAt (e - 1)
      (some ⟨s.excerpt first last, first, last⟩, e)
    else (none, e)
  else (none, i)

/-- The index behind the type parameters that go on at index `i` with `depth` angle brackets open,
or behind the code if they do not end. -/
def typeParamsStop (s : Source) (i depth : Nat) : Nat :=
  if i < s.size then
    if s.is "<" i then typeParamsStop s (i + 1) (depth + 1)
    else if s.is ">" i then
      if depth ≤ 1 then i + 1 else typeParamsStop s (i + 1) (depth - 1)
    else typeParamsStop s (i + 1) depth
  else i
termination_by s.size - i

/-- The index behind type parameters at index `i`, if they stand there. -/
def behindTypeParameters (s : Source) (i : Nat) : Nat :=
  if s.is "<" i then s.typeParamsStop i 0 else i

end Source

end WasmPackage.Script
