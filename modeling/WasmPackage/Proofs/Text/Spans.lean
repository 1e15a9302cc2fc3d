import WasmPackage.Proofs.Text.Composition

/-!
# What becomes of a span

When a revision is applied, a span of the text becomes what stands at its offsets.  Only the edits
that touch the span matter for that, and the whole text is what becomes of its parts.
-/

namespace WasmPackage.Text

variable {t : Text} {es pre mid post : List Edit} {a b c pos : Nat} {e : Edit}

/-- What comes to stand in the place of a span. -/
def editedSpan (t : Text) (es : List Edit) (start stop : Nat) : Text :=
  (List.range' start (stop - start)).flatMap (t.editedAt es)

theorem edited_eq_editedSpan (t : Text) (es : List Edit) :
    t.edited es = t.editedSpan es 0 (t.length + 1) := by
  rw [edited, editedSpan, List.range_eq_range', Nat.sub_zero]

theorem editedSpan_append (es : List Edit) (hab : a ≤ b) (hbc : b ≤ c) :
    t.editedSpan es a b ++ t.editedSpan es b c = t.editedSpan es a c := by
  have hsplit : List.range' a (c - a) = List.range' a (b - a) ++ List.range' b (c - b) := by
    have hlength : c - a = b - a + (c - b) := by omega
    rw [hlength, ← List.range'_append_1, Nat.add_sub_cancel' hab]
  rw [editedSpan, editedSpan, editedSpan, hsplit, List.flatMap_append]

/-- The edited text is what becomes of what is before a span, of the span, and of what is behind. -/
theorem edited_eq_append (es : List Edit) (hab : a ≤ b) (hb : b ≤ t.length) :
    t.edited es =
      t.editedSpan es 0 a ++ t.editedSpan es a b ++ t.editedSpan es b (t.length + 1) := by
  rw [edited_eq_editedSpan, editedSpan_append es (Nat.zero_le a) hab,
    editedSpan_append es (Nat.zero_le b) (Nat.le_succ_of_le hb)]

/-- The edit neither begins in the span nor covers any of it. -/
def Misses (a b : Nat) (e : Edit) : Prop :=
  (e.start < a ∧ e.stop ≤ a) ∨ b ≤ e.start

/-- Only edits that touch a span matter for what becomes of it. -/
theorem editedSpan_of_misses (hpre : ∀ e ∈ pre, Misses a b e) (hpost : ∀ e ∈ post, Misses a b e) :
    t.editedSpan (pre ++ mid ++ post) a b = t.editedSpan mid a b := by
  unfold editedSpan
  apply List.flatMap_congr
  intro pos hpos
  rw [List.mem_range'_1] at hpos
  have hstart {es : List Edit} (hes : ∀ e ∈ es, Misses a b e) (p : Edit → Bool) :
      es.filter (fun e => e.start = pos && p e) = [] := by
    rw [List.filter_eq_nil_iff]
    intro e he
    have hmisses := hes e he
    unfold Misses at hmisses
    simp only [Bool.and_eq_true, decide_eq_true_eq]
    omega
  have hcovers {es : List Edit} (hes : ∀ e ∈ es, Misses a b e) :
      inSpans (es.map Edit.span) pos = false := by
    rw [Bool.eq_false_iff, Ne, inSpans_eq_true_iff]
    rintro ⟨s, hs, hfirst, hlast⟩
    obtain ⟨e, he, rfl⟩ := List.mem_map.mp hs
    have hmisses := hes e he
    unfold Misses at hmisses
    simp only [Edit.span] at hfirst hlast
    omega
  have hspans : inSpans ((pre ++ mid ++ post).map Edit.span) pos =
      inSpans (mid.map Edit.span) pos := by
    have hpre' := hcovers hpre
    have hpost' := hcovers hpost
    unfold inSpans at hpre' hpost' ⊢
    rw [List.map_append, List.map_append, List.any_append, List.any_append, hpre', hpost',
      Bool.false_or, Bool.or_false]
  rw [editedAt, editedAt, hspans, List.filter_append, List.filter_append, List.filter_append,
    List.filter_append, hstart hpre, hstart hpost, hstart hpre, hstart hpost, List.nil_append,
    List.append_nil, List.nil_append, List.append_nil]

/-- What becomes of a span whose edits follow one another is the span with these done. -/
theorem editedSpan_eq_splice (hab : a ≤ b) (hb : b ≤ t.length)
    (hwithin : ∀ e ∈ es, a ≤ e.start ∧ e.start < b ∧ e.start ≤ e.stop ∧ e.stop ≤ b)
    (hsorted : es.Pairwise (fun e e' => e.stop ≤ e'.start)) :
    t.editedSpan es a b = Revision.splice (t.take b) a es := by
  have hlength : (t.take b).length = b := List.length_take_of_le hb
  have hsplice : Revision.splice (t.take b) a es =
      (List.range' a (b + 1 - a)).flatMap (editedAt (t.take b) es) := by
    have hcursor : ∀ e ∈ es, a ≤ e.start := fun e he => (hwithin e he).1
    have hall := Revision.splice_eq_flatMap (t := t.take b)
      (fun e he => ⟨(hwithin e he).2.2.1, by have := hwithin e he; omega⟩) hcursor hsorted
    rwa [hlength] at hall
  -- in the part of the text nothing comes to stand behind its end
  have hend : editedAt (t.take b) es b = [] := by
    rw [editedAt_of_untouched]
    · rw [List.getElem?_eq_none (Nat.le_of_eq hlength)]
      rfl
    · intro e he
      have := hwithin e he
      omega
  have hlast : b + 1 - a = b - a + 1 := by omega
  rw [hsplice, hlast, List.range'_1_concat, Nat.add_sub_cancel' hab, List.flatMap_append,
    List.flatMap_singleton, hend, List.append_nil, editedSpan]
  apply List.flatMap_congr
  intro pos hpos
  rw [List.mem_range'_1] at hpos
  rw [editedAt, editedAt, List.getElem?_take_of_lt (by omega)]

theorem drop_take_eq_slice : (t.take b).drop a = t.slice a b := by
  rw [slice, List.drop_take]

theorem slice_take (hc : c ≤ b) : slice (t.take b) a c = t.slice a c := by
  rw [slice, slice, List.drop_take, List.take_take, Nat.min_eq_left (by omega)]

theorem slice_append_slice (hab : a ≤ b) (hbc : b ≤ c) :
    t.slice a b ++ t.slice b c = t.slice a c := by
  have hlength : c - a = b - a + (c - b) := by omega
  rw [slice, slice, slice, hlength, List.take_add, List.drop_drop, Nat.add_sub_cancel' hab]

/-- What is spliced together begins with the text in front of the first edit. -/
theorem splice_eq_append (hab : a ≤ b) (hfirst : ∀ e ∈ es, b ≤ e.start) :
    Revision.splice t a es = t.slice a b ++ Revision.splice t b es := by
  cases es with
  | nil => rw [Revision.splice, Revision.splice, slice_append_drop hab]
  | cons e es =>
    rw [Revision.splice, Revision.splice, ← slice_append_slice hab (hfirst e List.mem_cons_self)]
    simp only [List.append_assoc]

theorem editedSpan_nil (hab : a ≤ b) (hb : b ≤ t.length) : t.editedSpan [] a b = t.slice a b := by
  rw [editedSpan_eq_splice hab hb (List.forall_mem_nil _) List.Pairwise.nil, Revision.splice,
    drop_take_eq_slice]

/-- What becomes of a span with one edit. -/
theorem editedSpan_singleton (hb : b ≤ t.length) (hstart : a ≤ e.start) (hlt : e.start < b)
    (hle : e.start ≤ e.stop) (hstop : e.stop ≤ b) :
    t.editedSpan [e] a b = t.slice a e.start ++ e.replacement ++ t.slice e.stop b := by
  rw [editedSpan_eq_splice (Nat.le_trans hstart (Nat.le_of_lt hlt)) hb
    (List.forall_mem_singleton.mpr ⟨hstart, hlt, hle, hstop⟩) (List.pairwise_singleton _ _),
    Revision.splice, Revision.splice, drop_take_eq_slice, slice_take (Nat.le_of_lt hlt)]

/-- What becomes of a span with two edits, one behind the other. -/
theorem editedSpan_pair {e' : Edit} (hb : b ≤ t.length) (hstart : a ≤ e.start)
    (hle : e.start ≤ e.stop) (hnext : e.stop ≤ e'.start) (hlt : e'.start < b)
    (hle' : e'.start ≤ e'.stop) (hstop : e'.stop ≤ b) :
    t.editedSpan [e, e'] a b = t.slice a e.start ++ e.replacement ++
      (t.slice e.stop e'.start ++ e'.replacement ++ t.slice e'.stop b) := by
  rw [editedSpan_eq_splice (by omega) hb ?within ?sorted, Revision.splice, Revision.splice,
    Revision.splice, drop_take_eq_slice, slice_take (by omega), slice_take (by omega)]
  case within =>
    simp only [List.mem_cons, List.not_mem_nil, or_false, forall_eq_or_imp, forall_eq]
    omega
  case sorted =>
    simpa using hnext

end WasmPackage.Text
