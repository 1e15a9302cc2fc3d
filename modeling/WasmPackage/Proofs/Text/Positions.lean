import Mathlib.Algebra.GroupWithZero.Nat
import WasmPackage.Proofs.Text.WholeLines

/-!
# Places in a text

A fault is placed by an offset, and by a line and a column for the reader of its message.  The main
statement is `Fault.pointsInto_ofOffset`: the two say the same, for the column counts from where the
line begins.
-/

namespace WasmPackage

namespace Text

variable {t head : Text} {offset : Nat}

/-- The offset at which line `n`, counted from one, begins: behind the lines before it, each with
its newline. -/
def startOfLine (t : Text) (n : Nat) : Nat :=
  (((t.splitOn '\n').take (n - 1)).map (fun line => line.length + 1)).sum

/-- The lines of a text, each with a newline, are one character longer than the text. -/
theorem sum_length_splitOn (t : Text) :
    ((t.splitOn '\n').map (fun line => line.length + 1)).sum = t.length + 1 := by
  induction t with
  | nil => rfl
  | cons c r ih =>
    rw [List.splitOn_cons_eq_if_modifyHead]
    split
    case isTrue =>
      rw [List.map_cons, List.sum_cons, ih, List.length_nil, List.length_cons]
      omega
    case isFalse =>
      -- the first line of the rest gets one character more
      rcases List.exists_cons_of_ne_nil (List.splitOn_ne_nil '\n' r) with ⟨line, lines, hlines⟩
      rw [hlines, List.map_cons, List.sum_cons] at ih
      rw [hlines, List.modifyHead_cons, List.map_cons, List.sum_cons, List.length_cons,
        List.length_cons]
      omega

/-- The lines in front of a line, each with its newline, are what stands in front of it. -/
theorem sum_length_dropLast_splitOn (h : EndsLine head) :
    (((head.splitOn '\n').dropLast).map (fun line => line.length + 1)).sum = head.length := by
  rcases h with rfl | ⟨b, rfl⟩
  · rfl
  · rw [List.splitOn_append_cons_self, List.splitOn_nil, List.dropLast_concat,
      sum_length_splitOn, List.length_append, List.length_singleton]

/-- The line of an offset begins where the reader finds its start. -/
theorem startOfLine_position (h : offset ≤ t.length) :
    t.startOfLine (t.position offset).line = t.lineStart offset := by
  have hlines := splitOn_append_of_endsLine (endsLine_take_lineStart t offset)
    (t.drop (t.lineStart offset))
  rw [List.take_append_drop] at hlines
  have hstart : t.lineStart offset ≤ t.length := Nat.le_trans lineStart_le h
  rw [startOfLine, hlines, length_linesBefore, List.take_left,
    sum_length_dropLast_splitOn (endsLine_take_lineStart t offset), List.length_take_of_le hstart]

end Text

namespace Fault

variable {κ : Type} {t : Text} {offset : Nat}

/-- The fault is placed in the text: its offset is one of the text or the end of it, its line is one
more than the newlines in front of the offset, and the columns of that line, which count from one,
lead from where it begins to the offset. -/
structure PointsInto (f : Fault κ) (t : Text) : Prop where
  offset_le : f.offset ≤ t.length
  line_eq : f.position.line = (t.take f.offset).count '\n' + 1
  column_pos : 0 < f.position.column
  offset_eq : t.startOfLine f.position.line + (f.position.column - 1) = f.offset

/-- A fault that is told at an offset of a text is placed there. -/
theorem pointsInto_ofOffset (cause : κ) (h : offset ≤ t.length) :
    (Fault.ofOffset t cause offset).PointsInto t where
  offset_le := h
  line_eq := rfl
  column_pos := Nat.succ_pos _
  offset_eq := by
    have hstart : t.lineStart offset ≤ offset := Text.lineStart_le
    change t.startOfLine (t.position offset).line + (offset - t.lineStart offset) = offset
    rw [Text.startOfLine_position h, Nat.add_sub_cancel' hstart]

end Fault

end WasmPackage
