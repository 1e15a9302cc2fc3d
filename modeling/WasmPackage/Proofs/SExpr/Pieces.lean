import WasmPackage.Proofs.SExpr.Lexemes
import WasmPackage.Proofs.Text.Kept

/-!
# The lexemes of a text

A text that can be read falls into lexemes, each at its place.  The main statement is `Splits.kept`:
when whole lexemes are taken out and no two of those left fuse, what is left falls into the lexemes
that are left.
-/

namespace WasmPackage.SExpr

open Text

/-- Of two members of a sorted list one comes first, unless they are the same. -/
theorem eq_or_rel_of_pairwise {α : Type} {R : α → α → Prop} {l : List α} (h : l.Pairwise R)
    {a b : α} (ha : a ∈ l) (hb : b ∈ l) : a = b ∨ R a b ∨ R b a := by
  induction h with
  | nil => cases ha
  | cons hfirst hrest ih =>
    rcases List.mem_cons.mp ha with rfl | hin
    · rcases List.mem_cons.mp hb with rfl | hin
      · exact Or.inl rfl
      · exact Or.inr (Or.inl (hfirst b hin))
    · rcases List.mem_cons.mp hb with rfl | hin'
      · exact Or.inr (Or.inr (hfirst a hin))
      · exact ih hin hin'

/-- A lexeme at its place in a text. -/
structure Piece where
  kind : Lexeme
  start : Nat
  text : Text
deriving DecidableEq, Repr

namespace Piece

/-- The offset behind a piece. -/
def stop (p : Piece) : Nat :=
  p.start + p.text.length

/-- The piece at the place that it moves to when offsets are cut. -/
def moved (cut : Nat → Bool) (p : Piece) : Piece :=
  { p with start := keptBefore cut p.start }

end Piece

/-- A text whose first character stands at offset `pos` falls into these lexemes. -/
inductive Splits : Nat → Text → List Piece → Prop
  | nil {pos : Nat} : Splits pos [] []
  | cons {pos n : Nat} {c : Char} {r : Text} {kind : Lexeme} {ps : List Piece} :
    Lexes c r kind n → Splits (pos + (c :: r.take n).length) (r.drop n) ps →
      Splits pos (c :: r) (⟨kind, pos, c :: r.take n⟩ :: ps)

namespace Splits

variable {pos : Nat} {t : Text} {ps : List Piece} {p : Piece}

/-- A piece is a lexeme of the text at its place. -/
theorem exists_lexes (h : Splits pos t ps) (hp : p ∈ ps) :
    ∃ a c r n, t = a ++ c :: r ∧ p.start = pos + a.length ∧ p.text = c :: r.take n ∧
      Lexes c r p.kind n := by
  induction h with
  | nil => cases hp
  | @cons pos n c r kind ps hlexes hrest ih =>
    rcases List.mem_cons.mp hp with rfl | hp
    · exact ⟨[], c, r, n, rfl, rfl, rfl, hlexes⟩
    · rcases ih hp with ⟨a, d, s, m, hsplit, hstart, htext, hlexes'⟩
      refine ⟨c :: r.take n ++ a, d, s, m, ?_, ?_, htext, hlexes'⟩
      · rw [List.append_assoc, ← hsplit, List.cons_append, List.take_append_drop]
      · rw [hstart, List.length_append, Nat.add_assoc]

theorem text_ne_nil (h : Splits pos t ps) (hp : p ∈ ps) : p.text ≠ [] := by
  rcases h.exists_lexes hp with ⟨a, c, r, n, -, -, htext, -⟩
  simp [htext]

theorem start_lt_stop (h : Splits pos t ps) (hp : p ∈ ps) : p.start < p.stop := by
  have := List.length_pos_iff.mpr (h.text_ne_nil hp)
  simp only [Piece.stop]
  omega

theorem le_start (h : Splits pos t ps) (hp : p ∈ ps) : pos ≤ p.start := by
  rcases h.exists_lexes hp with ⟨a, c, r, n, -, hstart, -, -⟩
  omega

theorem stop_le (h : Splits pos t ps) (hp : p ∈ ps) : p.stop ≤ pos + t.length := by
  rcases h.exists_lexes hp with ⟨a, c, r, n, rfl, hstart, htext, -⟩
  have hle := List.length_take_le n r
  have hlength := List.length_take_le' n r
  simp only [Piece.stop, hstart, htext, List.length_append, List.length_cons]
  omega

/-- The pieces follow one another. -/
theorem pairwise (h : Splits pos t ps) : ps.Pairwise (fun p q => p.stop ≤ q.start) := by
  induction h with
  | nil => exact List.Pairwise.nil
  | cons hlexes hrest ih =>
    refine List.pairwise_cons.mpr ⟨?_, ih⟩
    intro q hq
    exact hrest.le_start hq

/-- Every offset of the text lies in a piece. -/
theorem exists_piece (h : Splits pos t ps) {i : Nat} (hpos : pos ≤ i) (hi : i < pos + t.length) :
    ∃ p ∈ ps, p.start ≤ i ∧ i < p.stop := by
  induction h with
  | nil =>
    simp at hi
    omega
  | @cons pos n c r kind ps hlexes hrest ih =>
    by_cases hfirst : i < pos + (c :: r.take n).length
    · exact ⟨_, List.mem_cons_self, hpos, hfirst⟩
    · have hlength : (r.take n).length + (r.drop n).length = r.length := by
        rw [← List.length_append, List.take_append_drop]
      simp only [List.length_cons] at hi hfirst ih
      rcases ih (by omega) (by omega) with ⟨p, hp, hin⟩
      exact ⟨p, List.mem_cons_of_mem _ hp, hin⟩

/-- The characters of a piece are those of the text at its place. -/
theorem getElem?_text (h : Splits 0 t ps) (hp : p ∈ ps) {i : Nat} (hi : i < p.text.length) :
    p.text[i]? = t[p.start + i]? := by
  rcases h.exists_lexes hp with ⟨a, c, r, n, rfl, hstart, htext, -⟩
  rw [htext] at hi ⊢
  have hstart' : p.start = a.length := by omega
  rw [hstart', List.getElem?_append_right (Nat.le_add_right _ _), Nat.add_sub_cancel_left]
  cases i with
  | zero => rfl
  | succ i =>
    simp only [List.length_cons, List.length_take] at hi
    simp only [List.getElem?_cons_succ, List.getElem?_take]
    rw [if_pos (by omega)]

/-- The text around a piece, which does not fuse with what stands behind it. -/
theorem exists_append (h : Splits 0 t ps) (hp : p ∈ ps) :
    ∃ a b, t = a ++ p.text ++ b ∧ a.length = p.start ∧ fuses p.text b = false := by
  rcases h.exists_lexes hp with ⟨a, c, r, n, rfl, hstart, htext, hlexes⟩
  refine ⟨a, r.drop n, ?_, by omega, ?_⟩
  · rw [htext, List.append_assoc, List.cons_append, List.take_append_drop]
  · rw [htext]
    exact hlexes.not_fuses

/-- A piece stands behind the text before it. -/
theorem take_stop (h : Splits 0 t ps) (hp : p ∈ ps) :
    t.take p.stop = t.take p.start ++ p.text := by
  rcases h.exists_append hp with ⟨a, b, rfl, hstart, -⟩
  have hstop : p.stop = (a ++ p.text).length := by rw [Piece.stop, ← hstart, List.length_append]
  rw [hstop, ← hstart, List.take_left, List.append_assoc, List.take_left]

/-- A piece does not fuse with what stands behind it. -/
theorem not_fuses (h : Splits 0 t ps) (hp : p ∈ ps) : fuses p.text (t.drop p.stop) = false := by
  rcases h.exists_append hp with ⟨a, b, rfl, hstart, hfuses⟩
  have hstop : p.stop = (a ++ p.text).length := by rw [Piece.stop, ← hstart, List.length_append]
  rwa [hstop, List.drop_left]

/-- Two pieces of a text with a common offset are the same. -/
theorem eq_of_mem_both (h : Splits pos t ps) {q : Piece} (hp : p ∈ ps) (hq : q ∈ ps) {i : Nat}
    (hpi : p.start ≤ i ∧ i < p.stop) (hqi : q.start ≤ i ∧ i < q.stop) : p = q := by
  rcases eq_or_rel_of_pairwise h.pairwise hp hq with heq | hbefore | hbehind
  · exact heq
  · omega
  · omega

/-! ## Taking pieces out -/

/-- A lexeme put in front of a text that falls into lexemes. -/
theorem cons_append {n : Nat} {c : Char} {w r : Text} {kind : Lexeme}
    (hlexes : Lexes c (w ++ r) kind n) (hn : n = w.length ∨ w.length ≤ n ∧ r = [])
    (hrest : Splits (pos + (c :: w).length) r ps) :
    Splits pos (c :: (w ++ r)) (⟨kind, pos, c :: w⟩ :: ps) := by
  have htake : (w ++ r).take n = w := by
    rcases hn with rfl | ⟨hle, rfl⟩
    · exact List.take_left
    · rw [List.append_nil, List.take_of_length_le hle]
  have hdrop : (w ++ r).drop n = r := by
    rcases hn with rfl | ⟨hle, rfl⟩
    · exact List.drop_left
    · rw [List.append_nil, List.drop_of_length_le hle]
  have hcons : Splits (pos + (c :: (w ++ r).take n).length) ((w ++ r).drop n) ps →
      Splits pos (c :: (w ++ r)) (⟨kind, pos, c :: (w ++ r).take n⟩ :: ps) := Splits.cons hlexes
  rw [htake, hdrop] at hcons
  exact hcons hrest

/-- When the lexeme at the front is cut, what is left falls into the lexemes left behind it. -/
theorem kept_of_cut {cut : Nat → Bool} {w r : Text}
    (hcut : ∀ i < w.length, cut (pos + i) = true)
    (hbehind : Splits (keptBefore cut (pos + w.length)) (keptFrom cut (pos + w.length) r) ps) :
    Splits (keptBefore cut pos) (keptFrom cut pos (w ++ r)) ps := by
  have hplace : keptBefore cut (pos + w.length) = keptBefore cut pos := keptBefore_add_of_cut hcut
  rw [hplace] at hbehind
  rw [keptFrom_append, keptFrom_of_cut hcut, List.nil_append]
  exact hbehind

/-- When the lexeme at the front is not cut and does not fuse with what is left behind it, it stays
a lexeme in front of that. -/
theorem kept_of_kept {cut : Nat → Bool} {n : Nat} {c : Char} {r : Text} {kind : Lexeme}
    (hlexes : Lexes c r kind n) (hkept : ∀ i < (c :: r.take n).length, cut (pos + i) = false)
    (hfuses : fuses (c :: r.take n)
      (keptFrom cut (pos + (c :: r.take n).length) (r.drop n)) = false)
    (hbehind : Splits (keptBefore cut (pos + (c :: r.take n).length))
      (keptFrom cut (pos + (c :: r.take n).length) (r.drop n)) ps) :
    Splits (keptBefore cut pos) (keptFrom cut pos ((c :: r.take n) ++ r.drop n))
      (⟨kind, keptBefore cut pos, c :: r.take n⟩ :: ps) := by
  have hplace : keptBefore cut (pos + (c :: r.take n).length) =
      keptBefore cut pos + (c :: r.take n).length := keptBefore_add_of_kept hkept
  have hlexes' := hlexes.stable hfuses (fun hnil => by rw [hnil, keptFrom_nil])
  -- only a comment that the text ends in can take more characters than there are
  have hn : n = (r.take n).length ∨ (r.take n).length ≤ n ∧
      keptFrom cut (pos + (c :: r.take n).length) (r.drop n) = [] := by
    by_cases hle : n ≤ r.length
    · exact Or.inl (List.length_take_of_le hle).symm
    · right
      rw [List.drop_of_length_le (by omega)]
      exact ⟨List.length_take_le _ _, rfl⟩
  rw [hplace] at hbehind
  rw [keptFrom_append, keptFrom_of_kept hkept, List.cons_append]
  exact cons_append hlexes' hn hbehind

/-- When whole lexemes are cut out and none of those left fuses with what then stands behind it,
what is left falls into the lexemes that are left. -/
theorem kept {cut : Nat → Bool} (h : Splits pos t ps)
    (haligned : ∀ p ∈ ps, ∀ i, p.start ≤ i → i < p.stop → cut i = cut p.start)
    (hfuses : ∀ p ∈ ps, cut p.start = false →
      fuses p.text (keptFrom cut p.stop (t.drop (p.stop - pos))) = false) :
    Splits (keptBefore cut pos) (keptFrom cut pos t)
      ((ps.filter (fun p => !cut p.start)).map (Piece.moved cut)) := by
  induction h with
  | nil => exact .nil
  | @cons pos n c r kind ps hlexes hrest ih =>
    have hwhole : c :: r = (c :: r.take n) ++ r.drop n := by
      rw [List.cons_append, List.take_append_drop]
    have hfirst : ∀ i < (c :: r.take n).length, cut (pos + i) = cut pos := by
      intro i hi
      exact haligned _ List.mem_cons_self (pos + i) (Nat.le_add_right _ _)
        (Nat.add_lt_add_left hi pos)
    have hbehind : Splits (keptBefore cut (pos + (c :: r.take n).length))
        (keptFrom cut (pos + (c :: r.take n).length) (r.drop n))
        ((ps.filter (fun p => !cut p.start)).map (Piece.moved cut)) := by
      apply ih
      · intro p hp
        exact haligned p (List.mem_cons_of_mem _ hp)
      · intro p hp hkept
        have hp' := hfuses p (List.mem_cons_of_mem _ hp) hkept
        have hstart := hrest.le_start hp
        have hstop := hrest.start_lt_stop hp
        -- the places of the lexemes behind are counted from the start of the text
        have hdrop : (c :: r).drop (p.stop - pos) =
            (r.drop n).drop (p.stop - (pos + (c :: r.take n).length)) := by
          rw [hwhole, List.drop_append, List.drop_of_length_le (by omega), List.nil_append]
          congr 1
          omega
        rwa [hdrop] at hp'
    cases hcut : cut pos with
    | true =>
      rw [hwhole, List.filter_cons_of_neg (by simp [hcut])]
      exact kept_of_cut (fun i hi => (hfirst i hi).trans hcut) hbehind
    | false =>
      have hfuses' := hfuses _ List.mem_cons_self hcut
      have hstop : (⟨kind, pos, c :: r.take n⟩ : Piece).stop - pos = (c :: r.take n).length := by
        simp [Piece.stop]
      have hdrop : (c :: r).drop (c :: r.take n).length = r.drop n := by
        rw [hwhole]
        exact List.drop_left
      rw [hstop, hdrop] at hfuses'
      rw [hwhole, List.filter_cons_of_pos (by simp [hcut]), List.map_cons]
      exact kept_of_kept hlexes (fun i hi => (hfirst i hi).trans hcut) hfuses' hbehind

end Splits

end WasmPackage.SExpr
