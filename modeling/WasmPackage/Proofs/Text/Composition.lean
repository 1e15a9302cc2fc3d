import Mathlib.Algebra.BigOperators.Group.List.Basic
import Mathlib.Algebra.Ring.Int.Defs
import WasmPackage.Proofs.Text.Revision

/-!
# What a sequence of calls composes

A caller records edits in any order, and some of its calls fail.  What every call keeps is that the
recorded edits lie in the text and do not meet.  From this the edited text can be told offset by
offset, whatever the order was: at each offset first what is inserted there, then what replaces a
span that begins there, and then the character, if no span covers it.
-/

namespace WasmPackage

variable {a e : Edit} {es es' : List Edit} {t : Text} {cursor pos : Nat}

namespace Edit

/-! ## Edits that do not meet -/

/-- Can the two edits be recorded for one text? -/
def Compatible (a e : Edit) : Prop :=
  a.refusal? e.start e.stop = none

theorem compatible_iff : a.Compatible e ↔ ¬ (e.start < a.stop ∧ a.start < e.stop) ∧
    ¬ (e.start = e.stop ∧ a.start = e.start ∧ a.stop = e.start) := by
  unfold Compatible refusal?
  split
  · next h =>
    rw [Bool.and_eq_true, decide_eq_true_eq, decide_eq_true_eq] at h
    simp [h]
  · next h =>
    rw [Bool.and_eq_true, decide_eq_true_eq, decide_eq_true_eq] at h
    simp [h, and_assoc]

theorem Compatible.symm (h : a.Compatible e) : e.Compatible a := by
  rw [compatible_iff] at *
  omega

/-- Edits can be recorded for one text when their spans are apart and are not the same point. -/
theorem compatible_iff_apart (ha : a.start ≤ a.stop) (he : e.start ≤ e.stop) :
    a.Compatible e ↔ Apart a.span e.span ∧ a.span ≠ e.span := by
  rw [compatible_iff, Ne, span, span, Prod.mk.injEq]
  simp only [Apart]
  omega

/-- The number of characters by which the edit makes a text longer. -/
def growth (e : Edit) : Int :=
  e.replacement.length - (e.stop - e.start)

end Edit

/-! ## The edited text, offset by offset -/

namespace Text

/-- What comes to stand at an offset: what is inserted there, then what replaces a span that begins
there, then the character itself if it lies in no span. -/
def editedAt (t : Text) (es : List Edit) (pos : Nat) : Text :=
  (es.filter (fun e => e.start = pos && e.stop = pos)).flatMap Edit.replacement ++
    (es.filter (fun e => e.start = pos && pos < e.stop)).flatMap Edit.replacement ++
      if inSpans (es.map Edit.span) pos then [] else t[pos]?.toList

/-- The text in which each span is replaced; the offset behind the last character is one at which
something may be inserted. -/
def edited (t : Text) (es : List Edit) : Text :=
  (List.range (t.length + 1)).flatMap (t.editedAt es)

theorem inSpans_span_cons {spans : List (Nat × Nat)} : inSpans (e.span :: spans) pos =
    (e.start ≤ pos && pos < e.stop || inSpans spans pos) := rfl

/-- An offset that no edit begins at and no span covers keeps its character. -/
theorem editedAt_of_untouched (h : ∀ e ∈ es, e.start ≠ pos ∧ ¬ (e.start ≤ pos ∧ pos < e.stop)) :
    t.editedAt es pos = t[pos]?.toList := by
  have hinserted : es.filter (fun e => e.start = pos && e.stop = pos) = [] := by
    rw [List.filter_eq_nil_iff]
    intro e he
    simp [(h e he).1]
  have hreplaced : es.filter (fun e => e.start = pos && pos < e.stop) = [] := by
    rw [List.filter_eq_nil_iff]
    intro e he
    simp [(h e he).1]
  have hspans : inSpans (es.map Edit.span) pos = false := by
    rw [Bool.eq_false_iff, Ne, inSpans_eq_true_iff]
    rintro ⟨s, hs, hcovers⟩
    rcases List.mem_map.mp hs with ⟨e, he, rfl⟩
    exact (h e he).2 hcovers
  simp [editedAt, hinserted, hreplaced, hspans]

/-- An edit that neither begins at an offset nor covers it changes nothing there. -/
theorem editedAt_cons_of_untouched (hstart : e.start ≠ pos)
    (hcovers : ¬ (e.start ≤ pos ∧ pos < e.stop)) :
    t.editedAt (e :: es) pos = t.editedAt es pos := by
  have hspan : (decide (e.start ≤ pos) && decide (pos < e.stop)) = false := by
    rwa [Bool.eq_false_iff, Ne, Bool.and_eq_true, decide_eq_true_eq, decide_eq_true_eq]
  simp [editedAt, hstart, inSpans_span_cons, hspan]

/-- An insertion comes first at its offset. -/
theorem editedAt_cons_of_insertion (hstart : e.start = pos) (hstop : e.stop = pos) :
    t.editedAt (e :: es) pos = e.replacement ++ t.editedAt es pos := by
  simp [editedAt, hstart, hstop, inSpans_span_cons]

/-- Where a replaced span begins there is nothing but the replacement, if the other edits are
behind the span. -/
theorem editedAt_cons_of_replacement (hstart : e.start = pos) (hstop : pos < e.stop)
    (hbehind : ∀ e' ∈ es, e.stop ≤ e'.start) : t.editedAt (e :: es) pos = e.replacement := by
  have hinserted : (e :: es).filter (fun e => e.start = pos && e.stop = pos) = [] := by
    rw [List.filter_eq_nil_iff]
    intro e' he'
    rcases List.mem_cons.mp he' with rfl | he'
    · simp [Nat.ne_of_gt hstop]
    · have := hbehind e' he'
      simp only [Bool.and_eq_true, decide_eq_true_eq]
      omega
  have hreplaced : es.filter (fun e => e.start = pos && pos < e.stop) = [] := by
    rw [List.filter_eq_nil_iff]
    intro e' he'
    have := hbehind e' he'
    simp only [Bool.and_eq_true, decide_eq_true_eq]
    omega
  simp [editedAt, hinserted, hreplaced, inSpans_span_cons, hstart, hstop]

/-- Behind its first offset a replaced span leaves nothing. -/
theorem editedAt_cons_of_covered (hstart : e.start < pos) (hstop : pos < e.stop)
    (hbehind : ∀ e' ∈ es, e.stop ≤ e'.start) : t.editedAt (e :: es) pos = [] := by
  have hstart' : ∀ e' ∈ e :: es, e'.start ≠ pos := by
    intro e' he'
    rcases List.mem_cons.mp he' with rfl | he'
    · omega
    · have := hbehind e' he'
      omega
  have hinserted : (e :: es).filter (fun e => e.start = pos && e.stop = pos) = [] := by
    rw [List.filter_eq_nil_iff]
    intro e' he'
    simp [hstart' e' he']
  have hreplaced : (e :: es).filter (fun e => e.start = pos && pos < e.stop) = [] := by
    rw [List.filter_eq_nil_iff]
    intro e' he'
    simp [hstart' e' he']
  simp [editedAt, hinserted, hreplaced, inSpans_span_cons, hstop, Nat.le_of_lt hstart]

/-- A stretch of offsets that keep their characters is a slice of the text. -/
theorem flatMap_getElem? (t : Text) (cursor n : Nat) :
    (List.range' cursor n).flatMap (fun pos => t[pos]?.toList) = t.slice cursor (cursor + n) := by
  induction n generalizing cursor with
  | zero => simp [slice]
  | succ n ih =>
    rw [List.range'_succ, List.flatMap_cons, ih]
    by_cases h : cursor < t.length
    · simp only [slice, List.drop_eq_getElem_cons h, List.getElem?_eq_getElem h]
      have htake : cursor + (n + 1) - cursor = n + 1 := by omega
      have hrest : cursor + 1 + n - (cursor + 1) = n := by omega
      rw [htake, hrest, List.take_succ_cons]
      rfl
    · simp [slice, List.getElem?_eq_none (Nat.not_lt.mp h),
        List.drop_eq_nil_of_le (Nat.not_lt.mp h),
        List.drop_eq_nil_of_le (Nat.le_succ_of_le (Nat.not_lt.mp h))]

/-- In front of all edits the text stays as it is. -/
theorem flatMap_editedAt_of_before {n : Nat} (hbefore : ∀ e ∈ es, cursor + n ≤ e.start) :
    (List.range' cursor n).flatMap (t.editedAt es) = t.slice cursor (cursor + n) := by
  have hkept : ∀ pos ∈ List.range' cursor n, t.editedAt es pos = t[pos]?.toList := by
    intro pos hpos
    rw [List.mem_range'_1] at hpos
    apply editedAt_of_untouched
    intro e he
    have := hbefore e he
    omega
  rw [List.flatMap_congr hkept, flatMap_getElem?]

/-- From the first edit on there is its replacement, and then what the others give behind its
span. -/
theorem flatMap_editedAt_of_first (hle : e.start ≤ e.stop) (hlength : e.stop ≤ t.length)
    (hbehind : ∀ e' ∈ es, e.stop ≤ e'.start) :
    (List.range' e.start (t.length + 1 - e.start)).flatMap (t.editedAt (e :: es)) =
      e.replacement ++ (List.range' e.stop (t.length + 1 - e.stop)).flatMap (t.editedAt es) := by
  have huntouched (n : Nat) (hn : e.start < n) (hn' : e.stop ≤ n) (k : Nat) :
      (List.range' n k).flatMap (t.editedAt (e :: es)) =
        (List.range' n k).flatMap (t.editedAt es) := by
    apply List.flatMap_congr
    intro pos hpos
    rw [List.mem_range'_1] at hpos
    exact editedAt_cons_of_untouched (by omega) (by omega)
  rcases Nat.lt_or_eq_of_le hle with hlt | hpoint
  · -- a span: its first offset gives the replacement and the others nothing
    have hspan : (List.range' e.start (e.stop - e.start)).flatMap (t.editedAt (e :: es)) =
        e.replacement := by
      have hfirst : e.stop - e.start = (e.stop - e.start - 1) + 1 := by omega
      rw [hfirst, List.range'_succ, List.flatMap_cons, editedAt_cons_of_replacement rfl hlt hbehind,
        List.flatMap_eq_nil_iff.mpr, List.append_nil]
      intro pos hpos
      rw [List.mem_range'_1] at hpos
      exact editedAt_cons_of_covered (by omega) (by omega) hbehind
    have hwhole : t.length + 1 - e.start = e.stop - e.start + (t.length + 1 - e.stop) := by omega
    rw [hwhole, ← List.range'_append_1, Nat.add_sub_cancel' hle, List.flatMap_append, hspan,
      huntouched e.stop hlt (Nat.le_refl _)]
  · -- an insertion: it comes first at its offset
    have hfirst : t.length + 1 - e.stop = (t.length - e.stop) + 1 := by omega
    rw [hpoint, hfirst, List.range'_succ, List.flatMap_cons, List.flatMap_cons,
      editedAt_cons_of_insertion hpoint rfl, huntouched _ (by omega) (by omega), List.append_assoc]

/-- No two edits are at work at one offset in the same way, so the order they were recorded in does
not matter. -/
theorem editedAt_perm (hperm : es.Perm es') (hcompatible : es.Pairwise Edit.Compatible)
    (pos : Nat) : t.editedAt es pos = t.editedAt es' pos := by
  have hsame : ∀ p : Edit → Bool,
      (∀ a e : Edit, p a = true → p e = true → ¬ a.Compatible e) → es.filter p = es'.filter p := by
    intro p hp
    have hlone : ∀ l : List Edit, l.Pairwise Edit.Compatible →
        (l.filter p).Pairwise (fun _ _ => False) := by
      intro l hl
      refine (hl.filter p).imp_of_mem ?_
      intro a e ha he h
      exact hp a e (List.mem_filter.mp ha).2 (List.mem_filter.mp he).2 h
    have hcompatible' : es'.Pairwise Edit.Compatible :=
      (hperm.pairwise_iff Edit.Compatible.symm).mp hcompatible
    exact (hperm.filter p).eq_of_pairwise (fun _ _ _ _ h => h.elim) (hlone es hcompatible)
      (hlone es' hcompatible')
  have hinserted := hsame (fun e => e.start = pos && e.stop = pos) (by
    intro a e ha he
    simp only [Bool.and_eq_true, decide_eq_true_eq] at ha he
    rw [Edit.compatible_iff]
    omega)
  have hreplaced := hsame (fun e => e.start = pos && pos < e.stop) (by
    intro a e ha he
    simp only [Bool.and_eq_true, decide_eq_true_eq] at ha he
    rw [Edit.compatible_iff]
    omega)
  rw [editedAt, editedAt, hinserted, hreplaced, inSpans_perm (hperm.map Edit.span)]

theorem edited_perm (hperm : es.Perm es') (hcompatible : es.Pairwise Edit.Compatible) :
    t.edited es = t.edited es' := by
  rw [edited, edited, funext (editedAt_perm hperm hcompatible)]

end Text

namespace Revision

variable {b b' : Revision}

/-! ## Applying -/

/-- Edits that follow one another are done where they stand. -/
theorem splice_eq_flatMap (hordered : ∀ e ∈ es, e.start ≤ e.stop ∧ e.stop ≤ t.length)
    (hcursor : ∀ e ∈ es, cursor ≤ e.start) (hsorted : es.Pairwise (fun a e => a.stop ≤ e.start)) :
    splice t cursor es =
      (List.range' cursor (t.length + 1 - cursor)).flatMap (t.editedAt es) := by
  -- on the edits; the cursor stands behind the last one that was done
  induction es generalizing cursor with
  | nil =>
    rw [splice, Text.flatMap_editedAt_of_before (fun e he => by cases he), Text.slice,
      List.take_of_length_le]
    rw [List.length_drop]
    omega
  | cons e es ih =>
    rcases hordered e List.mem_cons_self with ⟨hle, hlength⟩
    rcases List.pairwise_cons.mp hsorted with ⟨hbehind, hrest⟩
    have hstart : cursor ≤ e.start := hcursor e List.mem_cons_self
    have ih' := ih (fun e' he' => hordered e' (List.mem_cons_of_mem _ he')) hbehind hrest
    have hgap : cursor + (e.start - cursor) = e.start := Nat.add_sub_cancel' hstart
    have hbefore : ∀ e' ∈ e :: es, cursor + (e.start - cursor) ≤ e'.start := by
      intro e' he'
      rw [hgap]
      rcases List.mem_cons.mp he' with rfl | he'
      · exact Nat.le_refl _
      · exact Nat.le_trans hle (hbehind e' he')
    have hsplit : List.range' cursor (t.length + 1 - cursor) =
        List.range' cursor (e.start - cursor) ++ List.range' e.start (t.length + 1 - e.start) := by
      have hwhole : t.length + 1 - cursor = e.start - cursor + (t.length + 1 - e.start) := by omega
      rw [hwhole, ← List.range'_append_1, hgap]
    rw [hsplit, List.flatMap_append, Text.flatMap_editedAt_of_before hbefore, hgap,
      Text.flatMap_editedAt_of_first hle hlength hbehind, splice, ih', List.append_assoc]

/-- Edits that follow one another make a text longer by what each of them adds. -/
theorem length_splice (hordered : ∀ e ∈ es, e.start ≤ e.stop ∧ e.stop ≤ t.length)
    (hcursor : ∀ e ∈ es, cursor ≤ e.start) (hsorted : es.Pairwise (fun a e => a.stop ≤ e.start))
    (hwithin : cursor ≤ t.length) :
    ((splice t cursor es).length : Int) = t.length - cursor + (es.map Edit.growth).sum := by
  induction es generalizing cursor with
  | nil =>
    rw [splice, List.length_drop, List.map_nil, List.sum_nil]
    omega
  | cons e es ih =>
    rcases hordered e List.mem_cons_self with ⟨hle, hlength⟩
    rcases List.pairwise_cons.mp hsorted with ⟨hbehind, hrest⟩
    have hstart : cursor ≤ e.start := hcursor e List.mem_cons_self
    have ih' := ih (fun e' he' => hordered e' (List.mem_cons_of_mem _ he')) hbehind hrest hlength
    have hgap : (t.slice cursor e.start).length = e.start - cursor :=
      Text.length_slice (Nat.le_trans hle hlength)
    rw [splice, List.length_append, List.length_append, hgap, List.map_cons, List.sum_cons,
      Edit.growth]
    omega

/-! ## What every call keeps -/

/-- All edits lie in the text, and no two of them meet. -/
structure IsSound (b : Revision) : Prop where
  within : ∀ e ∈ b.edits, e.start ≤ e.stop ∧ e.stop ≤ b.text.length
  compatible : b.edits.Pairwise Edit.Compatible

theorem isSound_ofText (t : Text) : (ofText t).IsSound := by
  constructor
  · intro e he
    cases he
  · exact List.Pairwise.nil

theorem IsSound.apart (h : b.IsSound) :
    b.edits.Pairwise (fun a e => Apart a.span e.span ∧ a.span ≠ e.span) :=
  h.compatible.imp_of_mem fun {a e} ha he hae =>
    (Edit.compatible_iff_apart (h.within a ha).1 (h.within e he).1).mp hae

/-- Sorted, the edits of a sound revision follow one another. -/
theorem IsSound.sorted (h : b.IsSound) :
    (b.edits.mergeSort Edit.le).Pairwise (fun a e => a.stop ≤ e.start) := by
  have hperm : (b.edits.mergeSort Edit.le).Perm b.edits := List.mergeSort_perm _ _
  have hle : (b.edits.mergeSort Edit.le).Pairwise (fun a e => Edit.le a e = true) :=
    List.pairwise_mergeSort Edit.le_trans Edit.le_total _
  have hcompatible : (b.edits.mergeSort Edit.le).Pairwise Edit.Compatible :=
    (hperm.pairwise_iff Edit.Compatible.symm).mpr h.compatible
  refine (hle.and hcompatible).imp_of_mem ?_
  intro a e ha he hboth
  have ha' := h.within a (hperm.mem_iff.mp ha)
  have he' := h.within e (hperm.mem_iff.mp he)
  have hle' := Edit.le_iff.mp hboth.1
  have hcompatible' := Edit.compatible_iff.mp hboth.2
  omega

/-- A sound revision gives the text in which each span is replaced. -/
theorem IsSound.apply_eq (h : b.IsSound) : b.apply = b.text.edited b.edits := by
  have hperm : (b.edits.mergeSort Edit.le).Perm b.edits := List.mergeSort_perm _ _
  have hwithin : ∀ e ∈ b.edits.mergeSort Edit.le, e.start ≤ e.stop ∧ e.stop ≤ b.text.length :=
    fun e he => h.within e (hperm.mem_iff.mp he)
  rw [Text.edited_perm hperm.symm h.compatible, apply,
    splice_eq_flatMap hwithin (fun e _ => Nat.zero_le _) h.sorted, Text.edited,
    List.range_eq_range', Nat.sub_zero]

theorem IsSound.length_apply (h : b.IsSound) :
    (b.apply.length : Int) = b.text.length + (b.edits.map Edit.growth).sum := by
  have hperm : (b.edits.mergeSort Edit.le).Perm b.edits := List.mergeSort_perm _ _
  have hwithin : ∀ e ∈ b.edits.mergeSort Edit.le, e.start ≤ e.stop ∧ e.stop ≤ b.text.length :=
    fun e he => h.within e (hperm.mem_iff.mp he)
  have hsplice := length_splice hwithin (fun e _ => Nat.zero_le _) h.sorted (Nat.zero_le _)
  rw [(hperm.map Edit.growth).sum_eq] at hsplice
  rw [apply, hsplice]
  omega

/-- What can be asked of a revision. -/
inductive Call
  | replace (start stop : Int) (replacement : Text)
  | insert (offset : Int) (inserted : Text)
  | delete (start stop : Int)
  | deleteLines (start stop : Int)
deriving DecidableEq, Repr

/-- The revision that a call gives, or why it fails. -/
def call (b : Revision) : Call → Except EditError Revision
  | .replace start stop replacement => b.replace start stop replacement
  | .insert offset inserted => b.insert offset inserted
  | .delete start stop => b.delete start stop
  | .deleteLines start stop => b.deleteLines start stop

/-- The revision behind a call, whether it failed or not. -/
def afterCall (b : Revision) (c : Call) : Revision :=
  match b.call c with
  | .ok b' => b'
  | .error _ => b

/-- The revision behind a sequence of calls. -/
def afterCalls (b : Revision) (calls : List Call) : Revision :=
  calls.foldl afterCall b

/-- The span that a call is about; when whole lines are to go, those if nothing else stands on
them. -/
def Call.span (t : Text) : Call → Int × Int
  | .replace start stop _ => (start, stop)
  | .insert offset _ => (offset, offset)
  | .delete start stop => (start, stop)
  | .deleteLines start stop =>
    match t.wholeLines? (t.resolve start) (t.resolve stop) with
    | some (first, last) => (first, last)
    | none => (start, stop)

/-- What a call puts in the place of its span. -/
def Call.replacement : Call → Text
  | .replace _ _ replacement => replacement
  | .insert _ inserted => inserted
  | .delete _ _ => []
  | .deleteLines _ _ => []

/-- The edit that a call records. -/
def Call.edit (t : Text) (c : Call) : Edit :=
  ⟨(c.span t).1.toNat, (c.span t).2.toNat, c.replacement⟩

variable {c : Call} {calls : List Call}

/-- Every call replaces its span. -/
theorem call_eq_replace (b : Revision) (c : Call) :
    b.call c = b.replace (c.span b.text).1 (c.span b.text).2 c.replacement := by
  cases c with
  | replace start stop replacement => rfl
  | insert offset inserted => rfl
  | delete start stop => rfl
  | deleteLines start stop =>
    simp only [call, deleteLines, Call.span]
    cases b.text.wholeLines? (b.text.resolve start) (b.text.resolve stop) with
    | none => rfl
    | some lines => rfl

/-- Is the span of a call one of the text, apart from all recorded ones and at no recorded point? -/
structure HasRoom (b : Revision) (c : Call) : Prop where
  first : 0 ≤ (c.span b.text).1
  ordered : (c.span b.text).1 ≤ (c.span b.text).2
  last : (c.span b.text).2 ≤ b.text.length
  free : ∀ e ∈ b.edits,
    Apart e.span (c.edit b.text).span ∧ e.span ≠ (c.edit b.text).span

/-- A call on a sound revision succeeds when there is room for its span, and then records one
edit. -/
theorem IsSound.call_eq_ok_iff (h : b.IsSound) : b.call c = .ok b' ↔
    b.HasRoom c ∧ b' = { b with edits := b.edits ++ [c.edit b.text] } := by
  rw [call_eq_replace, replace_eq_ok_iff]
  constructor
  · rintro ⟨⟨hfirst, hordered, hlast⟩, hfree, rfl⟩
    refine ⟨⟨hfirst, hordered, hlast, ?_⟩, rfl⟩
    intro e he
    exact (Edit.compatible_iff_apart (h.within e he).1 (Int.toNat_le_toNat hordered)).mp
      (hfree e he)
  · rintro ⟨hroom, rfl⟩
    refine ⟨⟨hroom.first, hroom.ordered, hroom.last⟩, ?_, rfl⟩
    intro e he
    exact (Edit.compatible_iff_apart (h.within e he).1 (Int.toNat_le_toNat hroom.ordered)).mpr
      (hroom.free e he)

/-- One call keeps a revision sound. -/
theorem IsSound.afterCall (h : b.IsSound) (c : Call) : (b.afterCall c).IsSound := by
  unfold Revision.afterCall
  cases hcall : b.call c with
  | error refusal => exact h
  | ok b' =>
    rcases h.call_eq_ok_iff.mp hcall with ⟨hroom, rfl⟩
    have hordered : (c.edit b.text).start ≤ (c.edit b.text).stop :=
      Int.toNat_le_toNat hroom.ordered
    constructor
    · intro e he
      rcases List.mem_append.mp he with he | he
      · exact h.within e he
      · rcases List.mem_singleton.mp he with rfl
        refine ⟨hordered, ?_⟩
        have hlast := hroom.last
        simp only [Call.edit]
        omega
    · rw [List.pairwise_append]
      refine ⟨h.compatible, List.pairwise_singleton _ _, ?_⟩
      intro a ha e he
      rcases List.mem_singleton.mp he with rfl
      exact (Edit.compatible_iff_apart (h.within a ha).1 hordered).mpr (hroom.free a ha)

theorem IsSound.text_afterCall (h : b.IsSound) (c : Call) : (b.afterCall c).text = b.text := by
  unfold Revision.afterCall
  cases hcall : b.call c with
  | error refusal => rfl
  | ok b' =>
    rcases h.call_eq_ok_iff.mp hcall with ⟨-, rfl⟩
    rfl

/-- A sequence of calls keeps a revision sound, and its text. -/
theorem IsSound.afterCalls (h : b.IsSound) (calls : List Call) :
    (b.afterCalls calls).IsSound ∧ (b.afterCalls calls).text = b.text := by
  induction calls generalizing b with
  | nil => exact ⟨h, rfl⟩
  | cons c calls ih =>
    rcases ih (h.afterCall c) with ⟨hsound, htext⟩
    exact ⟨hsound, htext.trans (h.text_afterCall c)⟩

/-! ## The result -/

/-- The recorded edits lie in the text and do not meet, and doing them gives the text in which each
span is replaced. -/
structure IsComposed (b : Revision) : Prop where
  within : ∀ e ∈ b.edits, e.start ≤ e.stop ∧ e.stop ≤ b.text.length
  apart : b.edits.Pairwise (fun a e => Apart a.span e.span ∧ a.span ≠ e.span)
  applied : b.apply = b.text.edited b.edits
  length : (b.apply.length : Int) = b.text.length + (b.edits.map Edit.growth).sum

theorem IsSound.isComposed (h : b.IsSound) : b.IsComposed where
  within := h.within
  apart := h.apart
  applied := h.apply_eq
  length := h.length_apply

/-- How a call is answered: it fails and changes nothing, or there is room for its span and it
records the one edit. -/
def Answers (b : Revision) (c : Call) : Prop :=
  (∃ refusal, b.call c = .error refusal ∧ ¬ b.HasRoom c ∧ b.afterCall c = b) ∨
    ∃ b', b.call c = .ok b' ∧ b.HasRoom c ∧ b.afterCall c = b' ∧
      b' = { b with edits := b.edits ++ [c.edit b.text] }

theorem IsSound.answers (h : b.IsSound) (c : Call) : b.Answers c := by
  unfold Answers Revision.afterCall
  cases hcall : b.call c with
  | error refusal =>
    left
    refine ⟨refusal, rfl, ?_, rfl⟩
    intro hroom
    rw [h.call_eq_ok_iff.mpr ⟨hroom, rfl⟩] at hcall
    cases hcall
  | ok b' =>
    right
    rcases h.call_eq_ok_iff.mp hcall with ⟨hroom, hb'⟩
    exact ⟨b', rfl, hroom, rfl, hb'⟩

/-- After any calls on the revision of a text, of which some may have failed, the recorded edits
compose; and one more call either fails and changes nothing, or records its edit. -/
theorem afterCalls_composes (t : Text) (calls : List Call) (c : Call) :
    ((ofText t).afterCalls calls).text = t ∧ ((ofText t).afterCalls calls).IsComposed ∧
      ((ofText t).afterCalls calls).Answers c := by
  rcases (isSound_ofText t).afterCalls calls with ⟨hsound, htext⟩
  exact ⟨htext, hsound.isComposed, hsound.answers c⟩

-- insertions may stand at both edges of a replaced span, but not inside of it
example : ((ofText "abcdef".toList).afterCalls [.replace 2 4 "X".toList, .insert 4 ">".toList,
    .insert 3 "-".toList, .insert 2 "<".toList]).apply = "ab<X>ef".toList := by
  rw [apply_eq_splice_insertionSort]
  rfl

end Revision

end WasmPackage
