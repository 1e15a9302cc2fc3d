import WasmPackage.Text.Basic

/-!
# Revisions

A revision collects replacements of spans of one text.  Offsets always refer to the text as it was
given, so edits may be recorded in any order; a span that meets a recorded one is refused, and the
revision is then as it was.
-/

namespace WasmPackage

/-- The replacement of the characters from `start` to `stop`; an insertion when the two are
equal. -/
structure Edit where
  start : Nat
  stop : Nat
  replacement : Text
deriving DecidableEq, Repr

/-- Why an edit is refused. -/
inductive EditError
  | outside (start stop : Int)
  | overlaps (start stop otherStart otherStop : Nat)
  | duplicate (offset : Nat)
deriving DecidableEq, Repr

/-- The words for a refusal. -/
def EditError.message : EditError → String
  | .outside start stop => s!"Edit span {start}:{stop} outside text"
  | .overlaps start stop otherStart otherStop =>
    s!"Edit span {start}:{stop} overlaps {otherStart}:{otherStop}"
  | .duplicate offset => s!"Duplicate insertion at {offset}"

namespace Edit

/-- What a span does against a recorded edit: two spans must not share a character, nor may one
point lie inside the other, nor two insertions at one point meet. -/
def refusal? (e : Edit) (start stop : Nat) : Option EditError :=
  if start < e.stop && e.start < stop then some (.overlaps start stop e.start e.stop)
  else if start = stop && e.start = start && e.stop = start then some (.duplicate start)
  else none

/-- Edits apply by their start, and at one start the shorter one first. -/
def le (a b : Edit) : Bool :=
  a.start < b.start || (a.start = b.start && a.stop ≤ b.stop)

end Edit

/-- A text and the edits recorded against it, oldest first. -/
structure Revision where
  text : Text
  edits : List Edit
deriving DecidableEq, Repr

namespace Revision

/-- The revision of a text that nothing is to be done to. -/
def ofText (t : Text) : Revision :=
  ⟨t, []⟩

/-- The number of recorded edits. -/
def size (b : Revision) : Nat :=
  b.edits.length

/-- Records that `start` to `stop` is to be replaced. -/
def replace (b : Revision) (start stop : Int) (replacement : Text) :
    Except EditError Revision :=
  if 0 ≤ start ∧ start ≤ stop ∧ stop ≤ b.text.length then
    match b.edits.findSome? (·.refusal? start.toNat stop.toNat) with
    | some e => .error e
    | none => .ok { b with edits := b.edits ++ [⟨start.toNat, stop.toNat, replacement⟩] }
  else .error (.outside start stop)

/-- Records that something is to be inserted at an offset. -/
def insert (b : Revision) (offset : Int) (inserted : Text) : Except EditError Revision :=
  b.replace offset offset inserted

/-- Records that `start` to `stop` is to be removed. -/
def delete (b : Revision) (start stop : Int) : Except EditError Revision :=
  b.replace start stop []

/-- Records that `start` to `stop` is to be removed, with its whole lines when nothing else stands
on them. -/
def deleteLines (b : Revision) (start stop : Int) : Except EditError Revision :=
  match b.text.wholeLines? (b.text.resolve start) (b.text.resolve stop) with
  | some (first, last) => b.delete first last
  | none => b.delete start stop

/-- The text from offset `cursor` on, with sorted edits done. -/
def splice (t : Text) (cursor : Nat) : List Edit → Text
  | [] => t.drop cursor
  | e :: es => t.slice cursor e.start ++ e.replacement ++ splice t e.stop es

/-- The text with every recorded edit done. -/
def apply (b : Revision) : Text :=
  splice b.text 0 (b.edits.mergeSort Edit.le)

end Revision

end WasmPackage
