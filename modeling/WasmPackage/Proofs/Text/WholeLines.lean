import WasmPackage.Proofs.Text.Revision

/-!
# Which lines a removal takes

A span that is removed with its lines takes them whole, or takes nothing but itself.  Lines are what
newlines split a text into; the main statement compares them before and after.
-/

namespace WasmPackage.Text

variable {t u head tail : Text} {start stop i j : Nat}

/-! ## Lines of the parts of a text -/

/-- The text ends where a line does: it is empty or ends with a newline. -/
def EndsLine (head : Text) : Prop :=
  head = [] ∨ ∃ b, head = b ++ ['\n']

/-- The text begins where a line ends: it is empty or begins with a newline. -/
def BeginsBehindLine (tail : Text) : Prop :=
  tail = [] ∨ ∃ r, tail = '\n' :: r

/-- A text has one line more than it has newlines. -/
theorem length_splitOn_newline (t : Text) : (t.splitOn '\n').length = t.count '\n' + 1 := by
  induction t with
  | nil => rfl
  | cons c r ih =>
    rw [List.splitOn_cons_eq_if_modifyHead, List.count_cons]
    cases hc : c == '\n' with
    | true => simp [ih]
    | false => simp [ih]

/-- The lines of what stands in front of a line, but for the empty one at its end, come first. -/
theorem splitOn_append_of_endsLine (h : EndsLine head) (u : Text) :
    (head ++ u).splitOn '\n' = (head.splitOn '\n').dropLast ++ u.splitOn '\n' := by
  rcases h with rfl | ⟨b, rfl⟩
  · rfl
  · rw [List.append_assoc, List.singleton_append, List.splitOn_append_cons_self,
      List.splitOn_append_cons_self, List.splitOn_nil, List.dropLast_concat]

/-- The lines of what stands behind a line, but for the empty one at its start, come last. -/
theorem splitOn_append_of_beginsBehindLine (h : BeginsBehindLine tail) (u : Text) :
    (u ++ tail).splitOn '\n' = u.splitOn '\n' ++ (tail.splitOn '\n').tail := by
  rcases h with rfl | ⟨r, rfl⟩
  · simp
  · have htail : ('\n' :: r).splitOn '\n' = [] :: r.splitOn '\n' := by
      simp [List.splitOn_cons_eq_if_modifyHead]
    rw [List.splitOn_append_cons_self, htail, List.tail_cons]

theorem length_dropLast_splitOn (head : Text) :
    ((head.splitOn '\n').dropLast).length = head.count '\n' := by
  rw [List.length_dropLast, length_splitOn_newline, Nat.add_sub_cancel]

/-! ## The line of an offset -/

theorem line_eq (t : Text) (i : Nat) : (t.position i).line = (t.take i).count '\n' + 1 := rfl

theorem take_append_slice (h : i ≤ j) : t.take i ++ t.slice i j = t.take j := by
  rw [slice, ← List.take_add, Nat.add_sub_cancel' h]

/-- Two offsets are on one line if no newline stands between them. -/
theorem line_eq_iff (h : i ≤ j) :
    (t.position i).line = (t.position j).line ↔ '\n' ∉ t.slice i j := by
  rw [line_eq, line_eq, ← take_append_slice h, List.count_append, ← List.count_eq_zero]
  omega

/-- The characters on the line of an offset that come before it. -/
theorem lineStart_le_iff (h : i < start) :
    t.lineStart start ≤ i ↔ (t.position i).line = (t.position start).line := by
  rw [line_eq_iff (Nat.le_of_lt h)]
  constructor
  · intro hle hmem
    rcases mem_slice_iff.mp hmem with ⟨k, hk, hlt, hget⟩
    exact newline_notMem_lineBeginning (mem_slice_iff.mpr ⟨k, Nat.le_trans hle hk, hlt, hget⟩)
  · intro hmem
    by_contra hlt
    -- the newline in front of the line would stand between the two
    have hnewline : t[t.lineStart start - 1]? = some '\n' :=
      lineStart_eq_zero_or.resolve_left (by omega)
    have hle : t.lineStart start ≤ start := lineStart_le
    exact hmem (mem_slice_iff.mpr ⟨_, by omega, by omega, hnewline⟩)

/-- The characters on the line of an offset that stand at it or behind it, the newline excepted. -/
theorem lt_lineEnd_iff (h : stop ≤ i) (hink : t.IsInkAt i) :
    i < t.lineEnd stop ↔ (t.position i).line = (t.position stop).line := by
  rw [eq_comm, line_eq_iff h]
  constructor
  · intro hlt hmem
    rcases mem_slice_iff.mp hmem with ⟨k, hk, hki, hget⟩
    exact newline_notMem_lineEnding (mem_slice_iff.mpr ⟨k, hk, Nat.lt_trans hki hlt, hget⟩)
  · intro hmem
    by_contra hle
    rcases hink with ⟨c, hget, hc⟩
    have hlength : i < t.length := (List.getElem?_eq_some_iff.mp hget).1
    have hnewline : t[t.lineEnd stop]? = some '\n' := getElem?_lineEnd (by omega)
    rcases Nat.lt_or_eq_of_le (Nat.not_lt.mp hle) with hlt | heq
    · exact hmem (mem_slice_iff.mpr ⟨_, le_lineEnd, hlt, hnewline⟩)
    · rw [heq, hget] at hnewline
      cases hnewline
      cases hc

/-! ## What shares the lines of a span -/

/-- A character that is no blank stands beside the span, on its first line before it or on its last
line behind it. -/
def SharesLines (t : Text) (start stop : Nat) : Prop :=
  ∃ i, t.IsInkAt i ∧ (i < start ∧ (t.position i).line = (t.position start).line ∨
    stop ≤ i ∧ (t.position i).line = (t.position stop).line)

theorem isBlank_slice_eq_false_iff :
    (t.slice start stop).isBlank = false ↔ ∃ i, t.IsInkAt i ∧ start ≤ i ∧ i < stop := by
  rw [Bool.eq_false_iff, Ne, isBlank_slice_iff]
  push Not
  constructor
  · rintro ⟨i, c, hstart, hstop, hget, hc⟩
    exact ⟨i, ⟨c, hget, by simpa using hc⟩, hstart, hstop⟩
  · rintro ⟨i, ⟨c, hget, hc⟩, hstart, hstop⟩
    exact ⟨i, c, hstart, hstop, hget, by simp [hc]⟩

/-- A span has its lines for itself if only blanks stand beside it there. -/
theorem sharesLines_iff : t.SharesLines start stop ↔
    ((t.slice (t.lineStart start) start).isBlank &&
      (t.slice stop (t.lineEnd stop)).isBlank) = false := by
  rw [Bool.and_eq_false_iff, isBlank_slice_eq_false_iff, isBlank_slice_eq_false_iff]
  constructor
  · rintro ⟨i, hink, ⟨hlt, hline⟩ | ⟨hle, hline⟩⟩
    · exact Or.inl ⟨i, hink, (lineStart_le_iff hlt).mpr hline, hlt⟩
    · exact Or.inr ⟨i, hink, hle, (lt_lineEnd_iff hle hink).mpr hline⟩
  · rintro (⟨i, hink, hle, hlt⟩ | ⟨i, hink, hle, hlt⟩)
    · exact ⟨i, hink, Or.inl ⟨hlt, (lineStart_le_iff hlt).mp hle⟩⟩
    · exact ⟨i, hink, Or.inr ⟨hle, (lt_lineEnd_iff hle hink).mp hlt⟩⟩

theorem lineSpan_of_sharesLines (h : t.SharesLines start stop) :
    t.lineSpan start stop = (start, stop) := by
  simp [lineSpan_eq, sharesLines_iff.mp h]

/-! ## The other lines -/

/-- The lines of the text without those from the line of `start` to the line of `stop`. -/
def otherLines (t : Text) (start stop : Nat) : List Text :=
  (t.splitOn '\n').take ((t.position start).line - 1) ++
    (t.splitOn '\n').drop (t.position stop).line

/-- In front of a line that is not the first there is a newline. -/
theorem take_lineStart_eq_concat (h : 0 < t.lineStart start) :
    t.take (t.lineStart start) = t.take (t.lineStart start - 1) ++ ['\n'] := by
  have hnewline : t[t.lineStart start - 1]? = some '\n' :=
    lineStart_eq_zero_or.resolve_left (Nat.ne_of_gt h)
  rw [← Option.toList_some, ← hnewline, ← List.take_add_one, Nat.sub_add_cancel h]

/-- Behind a line that is not the last there is a newline. -/
theorem drop_lineEnd_eq_cons (h : t.lineEnd stop < t.length) :
    t.drop (t.lineEnd stop) = '\n' :: t.drop (t.lineEnd stop + 1) := by
  have hnewline := getElem?_lineEnd h
  rw [List.getElem?_eq_getElem h, Option.some_inj] at hnewline
  rw [List.drop_eq_getElem_cons h, hnewline]

theorem endsLine_take_lineStart (t : Text) (start : Nat) :
    EndsLine (t.take (t.lineStart start)) := by
  by_cases hfront : 0 < t.lineStart start
  · exact Or.inr ⟨_, take_lineStart_eq_concat hfront⟩
  · exact Or.inl (by rw [Nat.eq_zero_of_not_pos hfront, List.take_zero])

theorem beginsBehindLine_drop_lineEnd (t : Text) (stop : Nat) :
    BeginsBehindLine (t.drop (t.lineEnd stop)) := by
  by_cases hend : t.lineEnd stop < t.length
  · exact Or.inr ⟨_, drop_lineEnd_eq_cons hend⟩
  · exact Or.inl (List.drop_eq_nil_of_le (Nat.not_lt.mp hend))

/-- The lines in front of the line of an offset are one less than its number. -/
theorem length_linesBefore (t : Text) (start : Nat) : (t.position start).line - 1 =
    (((t.take (t.lineStart start)).splitOn '\n').dropLast).length := by
  have hfirst : t.lineStart start ≤ start := lineStart_le
  rw [length_dropLast_splitOn, line_eq, Nat.add_sub_cancel, ← take_append_slice hfirst,
    List.count_append, List.count_eq_zero.mpr newline_notMem_lineBeginning, Nat.add_zero]

/-- The other lines are those in front of the first line of the span and those behind its last. -/
theorem otherLines_eq (hle : start ≤ stop) : t.otherLines start stop =
    ((t.take (t.lineStart start)).splitOn '\n').dropLast ++
      ((t.drop (t.lineEnd stop)).splitOn '\n').tail := by
  have hfirst : t.lineStart start ≤ start := lineStart_le
  have hlast : stop ≤ t.lineEnd stop := le_lineEnd
  have hwithin : t.lineStart start ≤ t.lineEnd stop := by omega
  -- the text is what stands in front of the lines, the lines, and what stands behind them
  have hlines := splitOn_append_of_endsLine (endsLine_take_lineStart t start)
    (t.slice (t.lineStart start) (t.lineEnd stop) ++ t.drop (t.lineEnd stop))
  rw [splitOn_append_of_beginsBehindLine (beginsBehindLine_drop_lineEnd t stop),
    slice_append_drop hwithin, List.take_append_drop] at hlines
  have hstop : (t.position stop).line =
      (((t.take (t.lineStart start)).splitOn '\n').dropLast ++
        (t.slice (t.lineStart start) (t.lineEnd stop)).splitOn '\n').length := by
    rw [List.length_append, length_dropLast_splitOn, length_splitOn_newline, ← Nat.add_assoc,
      ← List.count_append, take_append_slice hwithin, line_eq, ← take_append_slice hlast,
      List.count_append, List.count_eq_zero.mpr newline_notMem_lineEnding, Nat.add_zero]
  unfold otherLines
  rw [length_linesBefore, hstop, hlines, List.take_left, ← List.append_assoc, List.drop_left]

/-! ## What is left -/

/-- The text without a span. -/
def without (t : Text) (span : Nat × Nat) : Text :=
  t.take span.1 ++ t.drop span.2

/-- The text is made of these lines; without any line it is empty. -/
def HasLines (t : Text) (lines : List Text) : Prop :=
  t.splitOn '\n' = lines ∨ lines = [] ∧ t = []

/-- A span that has its lines for itself leaves the other lines as they were. -/
theorem hasLines_without_lineSpan (hle : start ≤ stop) (h : ¬t.SharesLines start stop) :
    (t.without (t.lineSpan start stop)).HasLines (t.otherLines start stop) := by
  rw [sharesLines_iff, Bool.not_eq_false] at h
  rw [otherLines_eq hle, lineSpan_eq, if_pos h]
  by_cases hend : t.lineEnd stop < t.length
  · -- the newline behind the lines goes with them
    left
    rw [if_pos hend, without, splitOn_append_of_endsLine (endsLine_take_lineStart t start),
      drop_lineEnd_eq_cons hend, List.splitOn_cons_eq_if_modifyHead, if_pos (beq_self_eq_true _),
      List.tail_cons]
  · have htail : t.drop (t.lineEnd stop) = [] := List.drop_eq_nil_of_le (Nat.not_lt.mp hend)
    rw [htail, List.splitOn_nil, List.tail_cons, List.append_nil, if_neg hend]
    by_cases hfront : 0 < t.lineStart start
    · -- on the last lines of the text the newline in front goes with them
      left
      rw [without, htail, List.append_nil, take_lineStart_eq_concat hfront,
        List.splitOn_append_cons_self, List.splitOn_nil, List.dropLast_concat]
    · -- no line is left
      right
      rw [without, htail, Nat.eq_zero_of_not_pos hfront]
      exact ⟨rfl, rfl⟩

theorem trim_eq_nil_of_isBlank (h : u.isBlank = true) : u.trim = [] := by
  have hstart : u.trimStart = [] := List.dropWhile_eq_nil_iff.mpr (List.all_eq_true.mp h)
  rw [trim, hstart]
  rfl

/-- How a span grows to the whole lines that it stands on: by blanks, and not at all if its lines
hold something else; and what is left then has the other lines of the text. -/
structure GrowsToLines (t : Text) (start stop : Nat) (grown : Nat × Nat) : Prop where
  first_le : grown.1 ≤ start
  le_last : stop ≤ grown.2
  last_le : grown.2 ≤ t.length
  before : (t.slice grown.1 start).trim = []
  after : (t.slice stop grown.2).trim = []
  shared : t.SharesLines start stop → grown = (start, stop)
  alone : ¬t.SharesLines start stop → (t.without grown).HasLines (t.otherLines start stop)

/-- A removal with its lines leaves what stands outside of the grown span. -/
theorem apply_deleteLines (hle : start ≤ stop) (hstop : stop ≤ t.length) :
    ∃ b, (Revision.ofText t).deleteLines start stop = .ok b ∧
      b.apply = t.without (t.lineSpan start stop) := by
  have hgrown := growsByBlanks_lineSpan t start stop
  have hfirst := hgrown.first_le
  have hlast := hgrown.last_le hstop
  have hbetween := hgrown.le_last
  refine ⟨⟨t, [⟨(t.lineSpan start stop).1, (t.lineSpan start stop).2, []⟩]⟩, ?_, ?_⟩
  · rw [Revision.deleteLines_eq (Nat.le_trans hle hstop) hstop, Revision.replace_eq_ok_iff]
    refine ⟨?_, List.forall_mem_nil _, rfl⟩
    simp only [Revision.ofText]
    omega
  · simp [Revision.apply, Revision.splice, without, slice]

/-- Growth to whole lines removes whole lines only, and so does a deletion that grows. -/
theorem lineSpan_growsToLines (hle : start ≤ stop) (hstop : stop ≤ t.length) :
    GrowsToLines t start stop (t.lineSpan start stop) ∧
      ∃ b, (Revision.ofText t).deleteLines start stop = .ok b ∧
        b.apply = t.without (t.lineSpan start stop) := by
  have hgrown := growsByBlanks_lineSpan t start stop
  exact ⟨
    { first_le := hgrown.first_le
      le_last := hgrown.le_last
      last_le := hgrown.last_le hstop
      before := trim_eq_nil_of_isBlank hgrown.before
      after := trim_eq_nil_of_isBlank hgrown.after
      shared := lineSpan_of_sharesLines
      alone := hasLines_without_lineSpan hle },
    apply_deleteLines hle hstop⟩

/-- Three lines; the last one has no newline behind it. -/
def threeLines : Text :=
  "one\n two;\n\tthree; ".toList

/-- The last two lines go with the newline in front of them. -/
theorem lineSpan_growsToLines_threeLines :
    5 ≤ 17 ∧ 17 ≤ threeLines.length ∧ threeLines.lineSpan 5 17 = (3, 18) ∧
      threeLines.otherLines 5 17 = ["one".toList] ∧
      GrowsToLines threeLines 5 17 (threeLines.lineSpan 5 17) ∧
      ∃ b, (Revision.ofText threeLines).deleteLines 5 17 = .ok b ∧
        b.apply = threeLines.without (threeLines.lineSpan 5 17) := by
  have hle : 5 ≤ 17 := by decide
  have hstop : 17 ≤ threeLines.length := by decide
  exact ⟨hle, hstop, by decide, by decide, lineSpan_growsToLines hle hstop⟩

end WasmPackage.Text
