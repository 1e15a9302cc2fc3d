import Mathlib.Data.List.TakeWhile
import WasmPackage.Text.Basic

/-!
# Lines of a text

What stands beside a span on its first and last lines, and how a span grows to its whole lines.
-/

namespace WasmPackage.Text

variable {t : Text} {offset start stop first last : Nat}

/-! ## Slices -/

theorem length_slice (h : stop ≤ t.length) : (t.slice start stop).length = stop - start := by
  simp only [slice, List.length_take, List.length_drop]
  omega

theorem getElem?_slice {i : Nat} (h : start + i < stop) :
    (t.slice start stop)[i]? = t[start + i]? := by
  have hi : i < stop - start := by omega
  simp [slice, hi]

theorem mem_slice_iff {c : Char} :
    c ∈ t.slice start stop ↔ ∃ i, start ≤ i ∧ i < stop ∧ t[i]? = some c := by
  rw [List.mem_iff_getElem?]
  constructor
  · rintro ⟨j, hj⟩
    have hin : start + j < stop := by
      by_contra hout
      rw [slice, List.getElem?_take, if_neg (by omega)] at hj
      cases hj
    rw [getElem?_slice hin] at hj
    exact ⟨start + j, Nat.le_add_right _ _, hin, hj⟩
  · rintro ⟨i, hstart, hstop, hget⟩
    refine ⟨i - start, ?_⟩
    rw [getElem?_slice (by omega), Nat.add_sub_cancel' hstart, hget]

theorem slice_append_drop (h : start ≤ stop) :
    t.slice start stop ++ t.drop stop = t.drop start := by
  have hdrop : t.drop stop = (t.drop start).drop (stop - start) := by
    rw [List.drop_drop]
    congr 1
    omega
  rw [slice, hdrop, List.take_append_drop]

/-- A slice with the character behind it. -/
theorem slice_succ {c : Char} (hle : start ≤ stop) (hget : t[stop]? = some c) :
    t.slice start (stop + 1) = t.slice start stop ++ [c] := by
  have hlength : stop + 1 - start = stop - start + 1 := by omega
  rw [slice, slice, hlength, List.take_add_one, List.getElem?_drop, Nat.add_sub_cancel' hle, hget,
    Option.toList_some]

/-- A slice with its first character. -/
theorem slice_eq_cons {c : Char} (hlt : start < stop) (hget : t[start]? = some c) :
    t.slice start stop = c :: t.slice (start + 1) stop := by
  have hlength : stop - start = stop - (start + 1) + 1 := by omega
  obtain ⟨hbound, rfl⟩ := List.getElem?_eq_some_iff.mp hget
  rw [slice, slice, hlength, List.drop_eq_getElem_cons hbound, List.take_succ_cons]

/-! ## Where lines begin and end -/

/-- The text before an offset is some lines and the beginning of the offset's own line. -/
theorem take_eq_lines_append (t : Text) (offset : Nat) :
    ∃ before beginning, t.take offset = before ++ beginning ∧
      before.length = t.lineStart offset ∧ '\n' ∉ beginning ∧
      (before = [] ∨ before.getLast? = some '\n') := by
  -- read backwards, the line is what comes before the first newline
  let isOther : Char → Bool := fun c => c ≠ '\n'
  let reversed := (t.take offset).reverse
  refine ⟨(reversed.dropWhile isOther).reverse, (reversed.takeWhile isOther).reverse,
    ?_, ?_, ?_, ?_⟩
  · rw [← List.reverse_append, List.takeWhile_append_dropWhile, List.reverse_reverse]
  · have hlength := congrArg List.length
      (List.takeWhile_append_dropWhile (p := isOther) (l := reversed))
    simp only [List.length_append] at hlength
    have hreversed : reversed.length = (t.take offset).length := List.length_reverse
    simp only [List.length_reverse, lineStart]
    change _ = (t.take offset).length - (reversed.takeWhile isOther).length
    omega
  · intro hmem
    have := List.mem_takeWhile_imp (List.mem_reverse.mp hmem)
    simp [isOther] at this
  · cases hdrop : reversed.dropWhile isOther with
    | nil => exact Or.inl rfl
    | cons c r =>
      right
      have hc := List.head?_dropWhile_not isOther reversed
      rw [hdrop] at hc
      have hnewline : c = '\n' := by simpa [isOther] using hc
      simp [hnewline]

theorem lineStart_le : t.lineStart offset ≤ offset := by
  have h : (t.take offset).length ≤ offset := List.length_take_le _ _
  simp only [lineStart]
  omega

theorem slice_lineStart_eq {before beginning : Text} (h : t.take offset = before ++ beginning)
    (hlength : before.length = t.lineStart offset) :
    t.slice (t.lineStart offset) offset = beginning := by
  have hdrop : (t.take offset).drop (t.lineStart offset) = beginning := by
    rw [h, ← hlength, List.drop_left]
  rw [slice, ← hdrop, List.drop_take]

/-- No newline stands between the start of a line and an offset on it. -/
theorem newline_notMem_lineBeginning : '\n' ∉ t.slice (t.lineStart offset) offset := by
  rcases take_eq_lines_append t offset with ⟨before, beginning, htake, hlength, hmem, -⟩
  rwa [slice_lineStart_eq htake hlength]

/-- A line begins at the start of the text or behind a newline. -/
theorem lineStart_eq_zero_or : t.lineStart offset = 0 ∨ t[t.lineStart offset - 1]? = some '\n' := by
  rcases take_eq_lines_append t offset with ⟨before, beginning, htake, hlength, -, rfl | hlast⟩
  · exact Or.inl hlength.symm
  · right
    have hne : before ≠ [] := by
      rintro rfl
      simp at hlast
    have hpos : 0 < before.length := List.length_pos_iff.mpr hne
    have hoffset : before.length - 1 < offset := by
      have hle : t.lineStart offset ≤ offset := lineStart_le
      omega
    have hget : (t.take offset)[before.length - 1]? = some '\n' := by
      rw [htake, List.getElem?_append_left (by omega), ← List.getLast?_eq_getElem?, hlast]
    rwa [← hlength, ← List.getElem?_take_of_lt hoffset]

theorem le_lineEnd : offset ≤ t.lineEnd offset :=
  Nat.le_add_right _ _

theorem lineEnd_le (h : offset ≤ t.length) : t.lineEnd offset ≤ t.length := by
  have hprefix : ((t.drop offset).takeWhile (· ≠ '\n')).length ≤ (t.drop offset).length :=
    (List.takeWhile_prefix _).length_le
  simp only [List.length_drop] at hprefix
  simp only [lineEnd]
  omega

theorem slice_lineEnd :
    t.slice offset (t.lineEnd offset) = (t.drop offset).takeWhile (· ≠ '\n') := by
  have hlength : t.lineEnd offset - offset = ((t.drop offset).takeWhile (· ≠ '\n')).length := by
    simp [lineEnd]
  rw [slice, hlength]
  exact (List.prefix_iff_eq_take.mp (List.takeWhile_prefix _)).symm

/-- No newline stands between an offset and the end of its line. -/
theorem newline_notMem_lineEnding : '\n' ∉ t.slice offset (t.lineEnd offset) := by
  rw [slice_lineEnd]
  intro hmem
  have := List.mem_takeWhile_imp hmem
  simp at this

theorem drop_lineEnd : t.drop (t.lineEnd offset) = (t.drop offset).dropWhile (· ≠ '\n') := by
  have hsplit : (t.drop offset).takeWhile (· ≠ '\n') ++ (t.drop offset).dropWhile (· ≠ '\n') =
      t.drop offset := List.takeWhile_append_dropWhile
  have hbehind := congrArg (List.drop ((t.drop offset).takeWhile (· ≠ '\n')).length) hsplit
  rw [List.drop_left, List.drop_drop] at hbehind
  exact hbehind.symm

/-- A line that is not the last one ends before a newline. -/
theorem getElem?_lineEnd (h : t.lineEnd offset < t.length) :
    t[t.lineEnd offset]? = some '\n' := by
  have hget : t[t.lineEnd offset]? = ((t.drop offset).dropWhile (· ≠ '\n')).head? := by
    rw [← drop_lineEnd, List.head?_drop]
  have hhead := List.head?_dropWhile_not (fun c : Char => decide (c ≠ '\n')) (t.drop offset)
  rw [List.getElem?_eq_getElem h] at hget ⊢
  rw [← hget] at hhead
  simpa using hhead

/-! ## Whole lines -/

/-- Blanks on one line. -/
def IsBlankRun (u : Text) : Prop :=
  u.isBlank = true ∧ '\n' ∉ u

/-- `first` to `last` are the whole lines that `start` to `stop` stands on, with only blanks beside
it there, and with the newline behind the last one. -/
structure WholeLines (t : Text) (start stop first last : Nat) : Prop where
  first_le : first ≤ start
  stop_lt : stop < last
  last_le : last ≤ t.length
  behind_newline : first = 0 ∨ t[first - 1]? = some '\n'
  before : IsBlankRun (t.slice first start)
  after : IsBlankRun (t.slice stop (last - 1))
  newline : t[last - 1]? = some '\n'

/-- What a span may grow to when it is removed: itself, or its whole lines. -/
def GrowsTo (t : Text) (start stop : Nat) (grown : Nat × Nat) : Prop :=
  grown = (start, stop) ∨ WholeLines t start stop grown.1 grown.2

namespace GrowsTo

variable {grown : Nat × Nat}

theorem first_le (h : GrowsTo t start stop grown) : grown.1 ≤ start := by
  rcases h with rfl | h
  · exact Nat.le_refl _
  · exact h.first_le

theorem le_last (h : GrowsTo t start stop grown) : stop ≤ grown.2 := by
  rcases h with rfl | h
  · exact Nat.le_refl _
  · exact Nat.le_of_lt h.stop_lt

theorem last_le (h : GrowsTo t start stop grown) (hstop : stop ≤ t.length) :
    grown.2 ≤ t.length := by
  rcases h with rfl | h
  · exact hstop
  · exact h.last_le

end GrowsTo

/-- A run of blanks holds only blanks, and no newline. -/
theorem IsBlankRun.of_getElem? {i : Nat} {c : Char} (h : IsBlankRun (t.slice first last))
    (hfirst : first ≤ i) (hlast : i < last) (hget : t[i]? = some c) :
    WasmPackage.isBlank c = true ∧ c ≠ '\n' := by
  have hmem : c ∈ t.slice first last := mem_slice_iff.mpr ⟨i, hfirst, hlast, hget⟩
  refine ⟨List.all_eq_true.mp h.1 c hmem, ?_⟩
  rintro rfl
  exact h.2 hmem

/-- Is the character at an offset one that is no blank? -/
def IsInkAt (t : Text) (offset : Nat) : Prop :=
  ∃ c, t[offset]? = some c ∧ WasmPackage.isBlank c = false

/-- A slice between two characters that are no blanks has no blanks to trim. -/
theorem trim_slice (hlt : start < stop) (hfirst : t.IsInkAt start) (hlast : t.IsInkAt (stop - 1)) :
    (t.slice start stop).trim = t.slice start stop := by
  obtain ⟨c, hc, hblank⟩ := hfirst
  obtain ⟨d, hd, hblank'⟩ := hlast
  have hcons : t.slice start stop = c :: t.slice (start + 1) stop := slice_eq_cons hlt hc
  have hconcat : t.slice start (stop - 1 + 1) = t.slice start (stop - 1) ++ [d] :=
    slice_succ (by omega) hd
  rw [Nat.sub_add_cancel (by omega)] at hconcat
  have hstart : (t.slice start stop).trimStart = t.slice start stop := by
    rw [trimStart, hcons, List.dropWhile_cons_of_neg (by simp [hblank])]
  rw [trim, hstart, trimEnd, hconcat, List.reverse_append, List.reverse_singleton,
    List.singleton_append, List.dropWhile_cons_of_neg (by simp [hblank']), List.reverse_cons,
    List.reverse_reverse]

/-- Whole lines end before the next character that is no blank. -/
theorem WholeLines.last_le_of_isInkAt {i : Nat} (h : WholeLines t start stop first last)
    (hi : stop ≤ i) (hink : IsInkAt t i) : last ≤ i := by
  rcases hink with ⟨c, hget, hc⟩
  by_contra hnot
  by_cases hnewline : i = last - 1
  · rw [hnewline, h.newline] at hget
    cases hget
    cases hc
  · have hblank := h.after.of_getElem? hi (by omega) hget
    rw [hc] at hblank
    cases hblank.1

/-- Whole lines begin behind the last character before that is no blank. -/
theorem WholeLines.lt_first_of_isInkAt {i : Nat} (h : WholeLines t start stop first last)
    (hi : i < start) (hink : IsInkAt t i) : i < first := by
  rcases hink with ⟨c, hget, hc⟩
  by_contra hnot
  have hblank := h.before.of_getElem? (by omega) hi hget
  rw [hc] at hblank
  cases hblank.1

/-- Spans that grow stay apart when they begin and end in characters that are no blanks. -/
theorem GrowsTo.last_le_first {start' stop' : Nat} {grown grown' : Nat × Nat}
    (h : GrowsTo t start stop grown) (h' : GrowsTo t start' stop' grown') (hstop : start < stop)
    (hle : stop ≤ start') (hend : IsInkAt t (stop - 1)) (hbegin : IsInkAt t start') :
    grown.2 ≤ grown'.1 := by
  rcases h with rfl | h
  · rcases h' with rfl | h'
    · exact hle
    · have := h'.lt_first_of_isInkAt (by omega) hend
      simp only
      omega
  · have hbehind := h.last_le_of_isInkAt hle hbegin
    rcases h' with rfl | h'
    · exact hbehind
    · have hbefore := h'.lt_first_of_isInkAt (by omega) hend
      have hle' := h'.first_le
      -- the newline in front of the second span's lines is not before that behind the first one's
      rcases h'.behind_newline with hzero | hnewline
      · omega
      · by_contra hcross
        have hpast : stop ≤ grown'.1 - 1 := by
          by_contra hnot
          rcases hend with ⟨c, hget, hc⟩
          rw [show grown'.1 - 1 = stop - 1 by omega, hget] at hnewline
          cases hnewline
          cases hc
        have hblank := h.after.of_getElem? hpast (by omega) hnewline
        exact hblank.2 rfl

/-- A span that has its lines for itself takes the newline behind them along, or at the end of the
text the one in front of them; any other span stays as it is. -/
theorem lineSpan_eq (t : Text) (start stop : Nat) : t.lineSpan start stop =
    if (t.slice (t.lineStart start) start).isBlank && (t.slice stop (t.lineEnd stop)).isBlank then
      if t.lineEnd stop < t.length then (t.lineStart start, t.lineEnd stop + 1)
      else (t.lineStart start - 1, t.lineEnd stop)
    else (start, stop) := by
  simp only [lineSpan, wholeLines?]
  split
  · split
    · rfl
    · split
      · rfl
      · next hzero => rw [Option.getD_some, Nat.eq_zero_of_not_pos hzero]
  · rfl

/-- A span with a newline behind its last line grows to its whole lines or not at all. -/
theorem growsTo_lineSpan_of_lt (hend : t.lineEnd stop < t.length) :
    GrowsTo t start stop (t.lineSpan start stop) := by
  rw [lineSpan_eq, if_pos hend]
  split
  · next hblank =>
    rw [Bool.and_eq_true] at hblank
    right
    exact
      { first_le := lineStart_le
        stop_lt := Nat.lt_succ_of_le le_lineEnd
        last_le := hend
        behind_newline := lineStart_eq_zero_or
        before := ⟨hblank.1, newline_notMem_lineBeginning⟩
        after := ⟨hblank.2, newline_notMem_lineEnding⟩
        newline := getElem?_lineEnd hend }
  · exact Or.inl rfl

/-- A span with a character behind it that is no blank grows to its whole lines or not at all: it
never takes the newline in front of the text's last line. -/
theorem growsTo_lineSpan {i : Nat} (hi : stop ≤ i) (hink : IsInkAt t i) :
    GrowsTo t start stop (t.lineSpan start stop) := by
  rcases hink with ⟨c, hget, hc⟩
  have hlength : i < t.length := by
    by_contra h
    rw [List.getElem?_eq_none (by omega)] at hget
    cases hget
  rcases Nat.lt_or_ge (t.lineEnd stop) t.length with hend | hend
  · exact growsTo_lineSpan_of_lt hend
  · -- on the text's last line the character stands beside the span
    have hmem : c ∈ t.slice stop (t.lineEnd stop) := mem_slice_iff.mpr ⟨i, hi, by omega, hget⟩
    have hafter : (t.slice stop (t.lineEnd stop)).isBlank = false := by
      rw [Bool.eq_false_iff]
      intro hblank
      have := List.all_eq_true.mp hblank c hmem
      simp [hc] at this
    exact Or.inl (by simp [lineSpan_eq, hafter])

/-- A span grows by blanks only, wherever it stands. -/
structure GrowsByBlanks (t : Text) (start stop : Nat) (grown : Nat × Nat) : Prop where
  first_le : grown.1 ≤ start
  le_last : stop ≤ grown.2
  last_le : stop ≤ t.length → grown.2 ≤ t.length
  before : (t.slice grown.1 start).isBlank = true
  after : (t.slice stop grown.2).isBlank = true

theorem isBlank_slice_iff : (t.slice start stop).isBlank = true ↔
    ∀ i c, start ≤ i → i < stop → t[i]? = some c → WasmPackage.isBlank c = true := by
  rw [isBlank, List.all_eq_true]
  constructor
  · intro h i c hstart hstop hget
    exact h c (mem_slice_iff.mpr ⟨i, hstart, hstop, hget⟩)
  · intro h c hc
    rcases mem_slice_iff.mp hc with ⟨i, hstart, hstop, hget⟩
    exact h i c hstart hstop hget

theorem growsByBlanks_lineSpan (t : Text) (start stop : Nat) :
    GrowsByBlanks t start stop (t.lineSpan start stop) := by
  have hfirst : t.lineStart start ≤ start := lineStart_le
  have hlast : stop ≤ t.lineEnd stop := le_lineEnd
  have hnewline : WasmPackage.isBlank '\n' = true := by decide
  rw [lineSpan_eq]
  split
  · next hblank =>
    rw [Bool.and_eq_true] at hblank
    rcases hblank with ⟨hbefore, hafter⟩
    split
    · next hend =>
      refine ⟨hfirst, Nat.le_succ_of_le hlast, fun _ => hend, hbefore,
        isBlank_slice_iff.mpr ?_⟩
      intro i c hi hlt hget
      rcases Nat.lt_succ_iff_lt_or_eq.mp hlt with hlt | rfl
      · exact isBlank_slice_iff.mp hafter i c hi hlt hget
      · rw [getElem?_lineEnd hend] at hget
        cases hget
        exact hnewline
    · refine ⟨Nat.le_trans (Nat.sub_le _ _) hfirst, hlast, lineEnd_le,
        isBlank_slice_iff.mpr ?_, hafter⟩
      intro i c hi hlt hget
      simp only at hi
      by_cases hbehind : t.lineStart start ≤ i
      · exact isBlank_slice_iff.mp hbefore i c hbehind hlt hget
      · have hi' : i = t.lineStart start - 1 := by omega
        rcases @lineStart_eq_zero_or t start with hnone | hline
        · omega
        · rw [hi', hline] at hget
          cases hget
          exact hnewline
  · exact ⟨Nat.le_refl _, Nat.le_refl _, id, by simp [slice, isBlank], by simp [slice, isBlank]⟩

/-- What a span may take along when it is removed: the blanks beside it on its own lines, and one
newline, behind them or else in front of them. -/
structure GrowsOnLines (t : Text) (start stop : Nat) (grown : Nat × Nat) : Prop where
  first_le : grown.1 ≤ start
  le_last : stop ≤ grown.2
  last_le : stop ≤ t.length → grown.2 ≤ t.length
  beside : ∃ before after, IsBlankRun before ∧ IsBlankRun after ∧
    (t.slice grown.1 start = before ∧ t.slice stop grown.2 = after ∨
      t.slice grown.1 start = before ∧ t.slice stop grown.2 = after ++ ['\n'] ∨
      t.slice grown.1 start = '\n' :: before ∧ t.slice stop grown.2 = after)

theorem isBlankRun_nil : IsBlankRun [] :=
  ⟨rfl, List.not_mem_nil⟩

theorem growsOnLines_lineSpan (t : Text) (start stop : Nat) :
    GrowsOnLines t start stop (t.lineSpan start stop) := by
  have hfirst : t.lineStart start ≤ start := lineStart_le
  have hlast : stop ≤ t.lineEnd stop := le_lineEnd
  rw [lineSpan_eq]
  split
  · next hblank =>
    rw [Bool.and_eq_true] at hblank
    have hbefore : IsBlankRun (t.slice (t.lineStart start) start) :=
      ⟨hblank.1, newline_notMem_lineBeginning⟩
    have hafter : IsBlankRun (t.slice stop (t.lineEnd stop)) :=
      ⟨hblank.2, newline_notMem_lineEnding⟩
    split
    · next hend =>
      exact ⟨hfirst, Nat.le_succ_of_le hlast, fun _ => hend, _, _, hbefore, hafter,
        .inr (.inl ⟨rfl, slice_succ hlast (getElem?_lineEnd hend)⟩)⟩
    · refine ⟨Nat.le_trans (Nat.sub_le _ _) hfirst, hlast, lineEnd_le, _, _, hbefore, hafter, ?_⟩
      rcases Nat.eq_zero_or_pos (t.lineStart start) with hzero | hpos
      · -- the span stands on all the lines of the text
        rw [hzero]
        exact .inl ⟨rfl, rfl⟩
      · have hnewline : t[t.lineStart start - 1]? = some '\n' :=
          lineStart_eq_zero_or.resolve_left (Nat.ne_of_gt hpos)
        have hfront := slice_eq_cons (show t.lineStart start - 1 < start by omega) hnewline
        rw [Nat.sub_add_cancel hpos] at hfront
        exact .inr (.inr ⟨hfront, rfl⟩)
  · exact ⟨Nat.le_refl _, Nat.le_refl _, id, [], [], isBlankRun_nil, isBlankRun_nil,
      .inl ⟨by simp [slice], by simp [slice]⟩⟩

end WasmPackage.Text
