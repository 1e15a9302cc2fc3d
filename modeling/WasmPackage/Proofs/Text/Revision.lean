import Mathlib.Data.List.Basic
import Mathlib.Data.List.Sort
import WasmPackage.Proofs.Text.Kept
import WasmPackage.Proofs.Text.Lines
import WasmPackage.Text.Revision

/-!
# Revisions that only remove

What a recorded edit says about those before it, and the text that is left when every edit removes
something: in whatever order the edits were recorded, exactly the offsets in their spans are gone.
-/

namespace WasmPackage

/-- Does an offset lie in one of the spans? -/
def inSpans (spans : List (Nat × Nat)) (pos : Nat) : Bool :=
  spans.any (fun s => s.1 ≤ pos && pos < s.2)

/-- Two spans without a common offset. -/
def Apart (a b : Nat × Nat) : Prop :=
  a.2 ≤ b.1 ∨ b.2 ≤ a.1

theorem Apart.symm {a b : Nat × Nat} (h : Apart a b) : Apart b a :=
  Or.symm h

/-- What is apart from a span is apart from what lies in it. -/
theorem Apart.narrow {a b s : Nat × Nat} (h : Apart s b) (hfirst : b.1 ≤ a.1) (hlast : a.2 ≤ b.2) :
    Apart s a :=
  h.imp (fun hle => Nat.le_trans hle hfirst) (fun hle => Nat.le_trans hlast hle)

theorem inSpans_eq_true_iff {spans : List (Nat × Nat)} {pos : Nat} :
    inSpans spans pos = true ↔ ∃ s ∈ spans, s.1 ≤ pos ∧ pos < s.2 := by
  simp [inSpans]

theorem inSpans_perm {spans spans' : List (Nat × Nat)} (h : spans.Perm spans') :
    inSpans spans = inSpans spans' := by
  funext pos
  rw [Bool.eq_iff_iff, inSpans_eq_true_iff, inSpans_eq_true_iff]
  simp only [h.mem_iff]

namespace Edit

/-- The span that an edit replaces. -/
def span (e : Edit) : Nat × Nat :=
  (e.start, e.stop)

/-- A removal is refused by the edits that it is not apart from. -/
theorem refusal?_eq_none_iff {e : Edit} {start stop : Nat} (h : start < stop) :
    e.refusal? start stop = none ↔ Apart e.span (start, stop) := by
  have hpoint : ¬ start = stop := Nat.ne_of_lt h
  simp only [refusal?, hpoint, decide_false, Bool.false_and, Bool.false_eq_true, if_false,
    Bool.and_eq_true, decide_eq_true_eq, ite_eq_right_iff, reduceCtorEq, imp_false, Apart, span]
  omega

theorem le_iff {a b : Edit} :
    le a b = true ↔ a.start < b.start ∨ a.start = b.start ∧ a.stop ≤ b.stop := by
  simp [le]

theorem le_trans (a b c : Edit) (hab : le a b = true) (hbc : le b c = true) : le a c = true := by
  rw [le_iff] at *
  omega

theorem le_total (a b : Edit) : (le a b || le b a) = true := by
  rw [Bool.or_eq_true, le_iff, le_iff]
  omega

end Edit

namespace Revision

variable {b b' : Revision} {start stop : Nat} {es : List Edit}

/-! ## Recording -/

/-- An edit is recorded when it lies in the text and no recorded one refuses it. -/
theorem replace_eq_ok_iff {start stop : Int} {replacement : Text} :
    b.replace start stop replacement = .ok b' ↔
      (0 ≤ start ∧ start ≤ stop ∧ stop ≤ b.text.length) ∧
        (∀ e ∈ b.edits, e.refusal? start.toNat stop.toNat = none) ∧
        b' = { b with edits := b.edits ++ [⟨start.toNat, stop.toNat, replacement⟩] } := by
  unfold replace
  split
  case isTrue hin =>
    cases hfind : b.edits.findSome? (·.refusal? start.toNat stop.toNat) with
    | none =>
      rw [List.findSome?_eq_none_iff] at hfind
      simp only [Except.ok.injEq, hin, true_and]
      constructor
      · intro h
        exact ⟨hfind, h.symm⟩
      · intro h
        exact h.2.symm
    | some refusal =>
      rcases List.exists_of_findSome?_eq_some hfind with ⟨e, he, hrefusal⟩
      simp only [reduceCtorEq, false_iff, not_and]
      intro _ hnone
      rw [hnone e he] at hrefusal
      cases hrefusal
  case isFalse hout =>
    simp only [reduceCtorEq, false_iff]
    intro h
    exact hout h.1

theorem resolve_natCast {t : Text} (h : start ≤ t.length) : t.resolve start = start := by
  have hnot : ¬ (start : Int) < 0 := by omega
  simp only [Text.resolve, hnot, if_false, Int.toNat_natCast]
  omega

/-- A span of the text is removed with all that it grows to. -/
theorem deleteLines_eq (hstart : start ≤ b.text.length) (hstop : stop ≤ b.text.length) :
    b.deleteLines start stop =
      b.replace (b.text.lineSpan start stop).1 (b.text.lineSpan start stop).2 [] := by
  simp only [deleteLines, resolve_natCast hstart, resolve_natCast hstop, Text.lineSpan, delete]
  cases b.text.wholeLines? start stop with
  | none => rfl
  | some grown => rfl

/-! ## Applying -/

/-- Removing spans that follow one another leaves what lies between them. -/
theorem splice_eq_keptFrom {t : Text} {cursor : Nat}
    (hremoves : ∀ e ∈ es, e.replacement = [] ∧ e.start ≤ e.stop ∧ e.stop ≤ t.length)
    (hcursor : ∀ e ∈ es, cursor ≤ e.start) (hsorted : es.Pairwise (fun a e => a.stop ≤ e.start)) :
    splice t cursor es = Text.keptFrom (inSpans (es.map Edit.span)) cursor (t.drop cursor) := by
  -- on the edits; the cursor stands behind the last one that was applied
  induction es generalizing cursor with
  | nil =>
    symm
    apply Text.keptFrom_of_kept
    intro i _
    rfl
  | cons e es ih =>
    rcases hremoves e List.mem_cons_self with ⟨hempty, hle, hlength⟩
    rcases List.pairwise_cons.mp hsorted with ⟨hbefore, hrest⟩
    have hstart : cursor ≤ e.start := hcursor e List.mem_cons_self
    -- up to the first span all is kept, the span is gone, and behind it only the others matter
    have hgap : Text.keptFrom (inSpans ((e :: es).map Edit.span)) cursor (t.slice cursor e.start) =
        t.slice cursor e.start := by
      apply Text.keptFrom_of_kept
      intro i hi
      rw [Text.length_slice (by omega)] at hi
      rw [Bool.eq_false_iff, Ne, inSpans_eq_true_iff]
      rintro ⟨s, hs, hfirst, -⟩
      rcases List.mem_map.mp hs with ⟨e', he', rfl⟩
      simp only [Edit.span] at hfirst
      rcases List.mem_cons.mp he' with rfl | he'
      · omega
      · have := hbefore e' he'
        omega
    have hspan : Text.keptFrom (inSpans ((e :: es).map Edit.span)) e.start
        (t.slice e.start e.stop) = [] := by
      apply Text.keptFrom_of_cut
      intro i hi
      rw [Text.length_slice hlength] at hi
      rw [inSpans_eq_true_iff]
      refine ⟨e.span, by simp, ?_, ?_⟩ <;> simp only [Edit.span] <;> omega
    have hbehind : Text.keptFrom (inSpans ((e :: es).map Edit.span)) e.stop (t.drop e.stop) =
        Text.keptFrom (inSpans (es.map Edit.span)) e.stop (t.drop e.stop) := by
      apply Text.keptFrom_congr
      intro i _
      have hpast : ¬ e.stop + i < e.span.2 := Nat.not_lt.mpr (Nat.le_add_right _ _)
      simp only [inSpans, List.map_cons, List.any_cons, hpast, decide_false, Bool.and_false,
        Bool.false_or]
    have hsplit : t.drop cursor =
        t.slice cursor e.start ++ (t.slice e.start e.stop ++ t.drop e.stop) := by
      rw [Text.slice_append_drop hle, Text.slice_append_drop hstart]
    have hfirst : cursor + (t.slice cursor e.start).length = e.start := by
      rw [Text.length_slice (by omega)]
      omega
    have hsecond : e.start + (t.slice e.start e.stop).length = e.stop := by
      rw [Text.length_slice hlength]
      omega
    have ih' : splice t e.stop es =
        Text.keptFrom (inSpans (es.map Edit.span)) e.stop (t.drop e.stop) :=
      ih (fun e' he' => hremoves e' (List.mem_cons_of_mem _ he')) hbefore hrest
    rw [hsplit, Text.keptFrom_append, Text.keptFrom_append, hfirst, hsecond, hgap, hspan, hbehind,
      ← ih', splice, hempty]
    simp

/-- When every edit removes something, exactly the offsets in the edits' spans are gone, in
whatever order the edits were recorded. -/
theorem apply_eq_kept
    (hremoves : ∀ e ∈ b.edits, e.replacement = [] ∧ e.start < e.stop ∧ e.stop ≤ b.text.length)
    (hapart : (b.edits.map Edit.span).Pairwise Apart) :
    b.apply = b.text.kept (inSpans (b.edits.map Edit.span)) := by
  have hperm : (b.edits.mergeSort Edit.le).Perm b.edits := List.mergeSort_perm _ _
  have hmem : ∀ e ∈ b.edits.mergeSort Edit.le, e ∈ b.edits := fun e he => hperm.mem_iff.mp he
  have hle : (b.edits.mergeSort Edit.le).Pairwise (fun a e => Edit.le a e = true) :=
    List.pairwise_mergeSort Edit.le_trans Edit.le_total _
  have hapart' : (b.edits.mergeSort Edit.le).Pairwise (fun a e => Apart a.span e.span) :=
    (hperm.pairwise_iff (fun h => Apart.symm h)).mpr (List.pairwise_map.mp hapart)
  -- edits that are sorted and do not meet follow one another
  have hsorted : (b.edits.mergeSort Edit.le).Pairwise (fun a e => a.stop ≤ e.start) := by
    refine (hle.and hapart').imp_of_mem ?_
    intro a e ha he h
    have hnonempty := (hremoves e (hmem e he)).2.1
    rcases h.2 with hbefore | hbehind
    · exact hbefore
    · have := Edit.le_iff.mp h.1
      simp only [Edit.span] at hbehind
      omega
  have hspans : inSpans ((b.edits.mergeSort Edit.le).map Edit.span) =
      inSpans (b.edits.map Edit.span) := inSpans_perm (hperm.map _)
  have hremoves' : ∀ e ∈ b.edits.mergeSort Edit.le,
      e.replacement = [] ∧ e.start ≤ e.stop ∧ e.stop ≤ b.text.length := by
    intro e he
    rcases hremoves e (hmem e he) with ⟨hempty, hlt, hlength⟩
    exact ⟨hempty, Nat.le_of_lt hlt, hlength⟩
  have hsplice : splice b.text 0 (b.edits.mergeSort Edit.le) =
      Text.keptFrom (inSpans ((b.edits.mergeSort Edit.le).map Edit.span)) 0 (b.text.drop 0) :=
    splice_eq_keptFrom hremoves' (fun e _ => Nat.zero_le _) hsorted
  rw [hspans] at hsplice
  exact hsplice

/-! ## Sorting edits -/

/-- Sorting by insertion gives the same: both keep the order of edits that compare as equal. -/
theorem mergeSort_eq_insertionSort (es : List Edit) :
    es.mergeSort Edit.le = es.insertionSort (fun a e => Edit.le a e = true) := by
  induction es with
  | nil => rw [List.mergeSort_nil, List.insertionSort_nil]
  | cons e es ih =>
    -- both sorts put the first edit behind those that are smaller than it, and before the others
    obtain ⟨before, after, hcons, hrest, hbefore⟩ :=
      List.mergeSort_cons Edit.le_trans Edit.le_total e es
    have hsorted := List.pairwise_mergeSort Edit.le_trans Edit.le_total (e :: es)
    rw [hcons, List.pairwise_append] at hsorted
    have hafter := (List.pairwise_cons.mp hsorted.2.1).1
    have htake : ∀ a ∈ before, decide (¬Edit.le e a = true) = true := by
      intro a ha
      simpa using hbefore a ha
    rw [hcons, List.insertionSort_cons, ← ih, hrest, List.orderedInsert_eq_take_drop,
      List.takeWhile_append_of_pos htake, List.dropWhile_append_of_pos htake]
    cases after with
    | nil => simp
    | cons a after =>
      have hle := hafter a List.mem_cons_self
      simp [hle]

/-- The edited text with the edits sorted in a way that can be evaluated. -/
theorem apply_eq_splice_insertionSort (b : Revision) :
    b.apply = splice b.text 0 (b.edits.insertionSort (fun a e => Edit.le a e = true)) := by
  rw [apply, mergeSort_eq_insertionSort]

end Revision

end WasmPackage
