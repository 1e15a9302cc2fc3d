import WasmPackage.Proofs.Bindings.EditPlaces

/-!
# Removals that meet

A statement that stands alone on its line is removed with the newline behind it.  The last line of a
text has none, and takes the one before it; so two statements that stand alone on the last two lines
cannot both be removed.
-/

namespace WasmPackage

namespace Text

variable {t : Text} {start stop start' stop' i : Nat}

/-- Two spans stand alone on the last two lines of a text that does not end with a newline: each
takes the newline between them. -/
def ShareNewline (t : Text) (start stop start' stop' : Nat) : Prop :=
  (t.wholeLines? start stop).isSome = true ∧ (t.wholeLines? start' stop').isSome = true ∧
    t.lineEnd stop + 1 = t.lineStart start' ∧ t.lineEnd stop' = t.length

instance (t : Text) (start stop start' stop' : Nat) :
    Decidable (ShareNewline t start stop start' stop') :=
  inferInstanceAs (Decidable (_ ∧ _ ∧ _ ∧ _))

theorem isSome_wholeLines?_iff : (t.wholeLines? start stop).isSome = true ↔
    (t.slice (t.lineStart start) start).isBlank = true ∧
      (t.slice stop (t.lineEnd stop)).isBlank = true := by
  rw [wholeLines?, ← Bool.and_eq_true]
  cases (t.slice (t.lineStart start) start).isBlank && (t.slice stop (t.lineEnd stop)).isBlank with
  | false => simp
  | true =>
    simp only [if_true, iff_true]
    split
    · rfl
    · split <;> rfl

theorem lineSpan_of_isNone (h : ¬ (t.wholeLines? start stop).isSome = true) :
    t.lineSpan start stop = (start, stop) := by
  rw [isSome_wholeLines?_iff, ← Bool.and_eq_true] at h
  rw [lineSpan_eq, if_neg h]

/-- A line that stands alone has its newline behind it, or on the text's last line before it. -/
theorem lineSpan_of_isSome (h : (t.wholeLines? start stop).isSome = true) :
    t.lineSpan start stop =
      if t.lineEnd stop < t.length then (t.lineStart start, t.lineEnd stop + 1)
      else (t.lineStart start - 1, t.lineEnd stop) := by
  rw [isSome_wholeLines?_iff, ← Bool.and_eq_true] at h
  rw [lineSpan_eq, if_pos h]

theorem lineEnd_le_of_newline (hi : stop ≤ i) (hnewline : t[i]? = some '\n') :
    t.lineEnd stop ≤ i := by
  by_contra hlt
  exact newline_notMem_lineEnding (mem_slice_iff.mpr ⟨i, hi, Nat.lt_of_not_le hlt, hnewline⟩)

/-- What is removed with two spans meets just if they share a newline. -/
theorem apart_lineSpan_iff (hlt : start < stop) (hle : stop ≤ start') (hlt' : start' < stop')
    (hstop' : stop' ≤ t.length) (hend : IsInkAt t (stop - 1)) (hbegin : IsInkAt t start') :
    Apart (t.lineSpan start stop) (t.lineSpan start' stop') ↔
      ¬ ShareNewline t start stop start' stop' := by
  have hgrows : GrowsTo t start stop (t.lineSpan start stop) := growsTo_lineSpan hle hbegin
  have hbehind : GrowsTo t start' stop' (t.lineSpan start' stop') →
      Apart (t.lineSpan start stop) (t.lineSpan start' stop') :=
    fun h => Or.inl (hgrows.last_le_first h hlt hle hend hbegin)
  by_cases hlast : (t.wholeLines? start' stop').isSome = true ∧ t.lineEnd stop' = t.length
  case neg =>
    apply iff_of_true
    · apply hbehind
      by_cases halone : (t.wholeLines? start' stop').isSome = true
      · have hle' := lineEnd_le hstop'
        exact growsTo_lineSpan_of_lt (by have := not_and.mp hlast halone; omega)
      · exact Or.inl (lineSpan_of_isNone halone)
    · rintro ⟨-, halone, -, hline⟩
      exact hlast ⟨halone, hline⟩
  case pos =>
    rcases hlast with ⟨halone, hline⟩
    have hspan := lineSpan_of_isSome halone
    rw [hline, if_neg (Nat.lt_irrefl _)] at hspan
    -- the first span ends before the newline in front of the last line
    have hbefore : stop ≤ t.lineStart start' - 1 ∧ t[t.lineStart start' - 1]? = some '\n' := by
      rcases hend with ⟨c, hget, hc⟩
      have hline : stop - 1 < t.lineStart start' := by
        by_contra hnot
        rw [isBlank_slice_iff.mp (isSome_wholeLines?_iff.mp halone).1 (stop - 1) c
          (Nat.le_of_not_lt hnot) (by omega) hget] at hc
        cases hc
      rcases @lineStart_eq_zero_or t start' with hzero | hnewline
      · omega
      · refine ⟨?_, hnewline⟩
        by_contra hnot
        rw [show t.lineStart start' - 1 = stop - 1 by omega, hget] at hnewline
        cases hnewline
        cases hc
    have hfirst := lineEnd_le_of_newline hbefore.1 hbefore.2
    have hstart' : t.lineStart start' ≤ start' := lineStart_le
    rw [hspan, ShareNewline]
    by_cases halone' : (t.wholeLines? start stop).isSome = true
    · have hstart : t.lineStart start ≤ start := lineStart_le
      rw [lineSpan_of_isSome halone', if_pos (by omega)]
      simp only [Apart, halone, halone', hline, true_and, and_true]
      omega
    · rw [lineSpan_of_isNone halone']
      simp only [Apart, halone', Bool.false_eq_true, false_and, not_false_eq_true, iff_true]
      exact Or.inl hbefore.1

end Text

namespace Bindings

open Script (Outline Source Statement)

variable {t : Text} {o : Outline} {st : Statement} {words : List String}

/-- The last of some words is that before the index behind them. -/
theorem word?_of_getLast?_words {s : Source} {i next : Nat} {w : String} (hnext : next ≤ s.size)
    (h : (s.words i next).getLast? = some w) : s.word? (next - 1) = some w := by
  have hlt : i < next := (Source.lt_of_words_ne_nil (by
    intro hnil
    rw [hnil] at h
    cases h)).1
  have hsize : next ≤ s.code.size := hnext
  have hlength : (s.words i next).length = next - i := by
    rw [Source.words, List.length_map, Array.length_toList, Array.size_extract,
      Nat.min_eq_left hsize]
  have hindex : i + (next - i - 1) = next - 1 := by omega
  rw [List.getLast?_eq_getElem?, hlength, Source.words, List.getElem?_map, Array.getElem?_toList,
    Array.getElem?_extract, if_pos (by omega), hindex] at h
  exact h

/-- No two statements of these words stand alone on the last two lines of the text. -/
def KeepNewlines (o : Outline) (words : List String) : Prop :=
  (o.statementsOf words).Pairwise fun a b =>
    ¬ Text.ShareNewline o.text a.start a.stop b.start b.stop

instance (o : Outline) (words : List String) : Decidable (KeepNewlines o words) :=
  inferInstanceAs (Decidable ((o.statementsOf words).Pairwise _))

/-- A statement begins, and ends with its semicolon, in a character that is no blank. -/
theorem ink_of_statementsOf [Limits] (h : Script.outline t = .ok o)
    (hwords : words.getLast? = some ";")
    (hst : st ∈ o.statementsOf words) : t.IsInkAt st.start ∧ t.IsInkAt (st.stop - 1) := by
  rcases Script.outline_eq_ok_iff.mp h with ⟨hs, hitems⟩
  rcases List.mem_filter.mp hst with ⟨hmem, hsame⟩
  rw [decide_eq_true_eq] at hsame
  rcases List.mem_filterMap.mp hmem with ⟨it, hit, hstatement⟩
  cases it <;> cases hstatement
  rcases Source.exists_item_of_mem hitems hit with ⟨i, next, hitem, hi⟩
  rcases Source.item_span hs hi hitem with ⟨-, -, -, hnext, -⟩
  have hst' := Source.eq_of_item_statement hitem
  -- the last word is the token before the next item
  have hlast : o.source.word? (next - 1) = some ";" := by
    apply word?_of_getLast?_words (i := i) hnext
    rw [← hwords, ← hsame, hst']
  rcases Option.map_eq_some_iff.mp hlast with ⟨x, hx, htext⟩
  have hlt := Source.lt_size_of_getElem? hx
  have hend : o.source.stopAt (next - 1) - 1 = o.source.startAt (next - 1) := by
    rw [Source.stopAt_eq hx, Source.startAt_eq hx, Script.Token.stop, htext]
    rfl
  rw [hst']
  refine ⟨Source.isInkAt_startAt hs hi, ?_⟩
  simp only [hend]
  exact Source.isInkAt_startAt hs hlt

theorem ordered_statementsOf [Limits] (h : Script.outline t = .ok o) :
    (o.statementsOf words).Pairwise fun a b => a.stop ≤ b.start := by
  apply List.Pairwise.filter
  rw [Outline.statements, List.pairwise_filterMap]
  refine (Script.ordered_items h).imp ?_
  intro a b hab s hs s' hs'
  cases a <;> cases hs
  cases b <;> cases hs'
  exact hab

/-- All statements of some words can be removed together just if no two of them share a newline. -/
theorem removals_isSound_iff [Limits] (h : Script.outline t = .ok o)
    (hwords : words.getLast? = some ";") :
    Revision.IsSound ⟨t, (o.statementsOf words).map (removalOf t)⟩ ↔ KeepNewlines o words := by
  have htext : o.text = t := (Script.isPlaced_of_outline h).1
  have hne : words ≠ [] := by
    rintro rfl
    cases hwords
  have hiff : ∀ a ∈ o.statementsOf words, ∀ b ∈ o.statementsOf words, a.stop ≤ b.start →
      (Apart (removalOf t a).span (removalOf t b).span ↔
        ¬ Text.ShareNewline o.text a.start a.stop b.start b.stop) := by
    intro a ha b hb hab
    rw [htext]
    exact Text.apart_lineSpan_iff (place_of_statementsOf h hne ha).1 hab
      (place_of_statementsOf h hne hb).1 (place_of_statementsOf h hne hb).2
      (ink_of_statementsOf h hwords ha).2 (ink_of_statementsOf h hwords hb).1
  have hordered : (o.statementsOf words).Pairwise fun a b => a.stop ≤ b.start :=
    ordered_statementsOf h
  constructor
  · intro hsound
    have hapart := List.pairwise_map.mp hsound.apart
    refine (hapart.and hordered).imp_of_mem ?_
    intro a b ha hb hab
    exact (hiff a ha b hb hab.2).mp hab.1.1
  · intro hkeep
    constructor
    · intro e he
      obtain ⟨st, hst, rfl⟩ := List.mem_map.mp he
      obtain ⟨hinside, hlast⟩ := removalOf_inside h hne hst
      exact ⟨hinside.ordered, hlast⟩
    · rw [List.pairwise_map]
      refine (List.Pairwise.and hkeep hordered).imp_of_mem ?_
      intro a b ha hb hab
      exact (removalOf_inside h hne ha).1.compatible (removalOf_inside h hne hb).1
        ((hiff a ha b hb hab.2).mpr hab.1)

end Bindings

end WasmPackage
