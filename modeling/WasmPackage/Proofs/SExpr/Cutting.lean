import WasmPackage.Proofs.SExpr.Pruning
import WasmPackage.Proofs.Text.Lines

/-!
# Cutting nodes out of a text

Nodes are cut out of a text with the lines that they have for themselves.  Every cut falls between
two lexemes.  Whether what is left can be read as the tree without those nodes is decided at the
cuts: the main statement is `read_uncut_iff`.
-/

namespace WasmPackage.SExpr

open Text Node

/-- The spans that are gone when nodes are cut out of a text, one for each node. -/
def cutSpans (t : Text) (nodes : List Node) : List (Nat × Nat) :=
  nodes.map (fun n => t.lineSpan n.start n.stop)

/-- Is the character at an offset gone when nodes are cut out of a text? -/
def isCut (t : Text) (nodes : List Node) : Nat → Bool :=
  inSpans (cutSpans t nodes)

/-- What is left of a text when nodes are cut out of it. -/
def uncut (t : Text) (nodes : List Node) : Text :=
  t.kept (isCut t nodes)

/-- Nodes of a text that was read, each with a span that shares no character with those of the
others. -/
structure Cuttable (t : Text) (ns nodes : List Node) : Prop where
  reads : read t = .ok ns
  below : ∀ n ∈ nodes, n ∈ walkAll ns
  grows : ∀ n ∈ nodes, GrowsTo t n.start n.stop (t.lineSpan n.start n.stop)
  apart : nodes.Pairwise
    (fun n m => Apart (t.lineSpan n.start n.stop) (t.lineSpan m.start m.stop))

/-- Do the characters on the two sides of an offset run together? -/
def fusesAt (t : Text) (pos : Nat) : Bool :=
  fuses (t.take pos) (t.drop pos)

/-- Nodes can be cut out of a text without a trace: what goes with them are only blanks between
lexemes, and where they stood no two characters run together. -/
structure CutsCleanly (t : Text) (nodes : List Node) : Prop where
  separators : ∀ n ∈ nodes, (t.slice (t.lineSpan n.start n.stop).1 n.start).all isSeparator = true ∧
    (t.slice n.stop (t.lineSpan n.start n.stop).2).all isSeparator = true
  apart : ∀ s ∈ cutSpans t nodes,
    fusesAt (uncut t nodes) (keptBefore (isCut t nodes) s.1) = false

instance (t : Text) (nodes : List Node) : Decidable (CutsCleanly t nodes) :=
  decidable_of_iff (_ ∧ _) ⟨fun h => ⟨h.1, h.2⟩, fun h => ⟨h.separators, h.apart⟩⟩

/-- What goes with a node beside it are separators. -/
theorem CutsCleanly.isSeparator_beside {t : Text} {nodes : List Node} {n : Node} {pos : Nat}
    {c : Char} (h : CutsCleanly t nodes) (hn : n ∈ nodes) (hget : t[pos]? = some c)
    (hbeside : (t.lineSpan n.start n.stop).1 ≤ pos ∧ pos < n.start ∨
      n.stop ≤ pos ∧ pos < (t.lineSpan n.start n.stop).2) : isSeparator c = true := by
  rcases h.separators n hn with ⟨hbefore, hbehind⟩
  rw [List.all_eq_true] at hbefore hbehind
  rcases hbeside with ⟨hfirst, hlast⟩ | ⟨hfirst, hlast⟩
  · exact hbefore c (mem_slice_iff.mpr ⟨pos, hfirst, hlast, hget⟩)
  · exact hbehind c (mem_slice_iff.mpr ⟨pos, hfirst, hlast, hget⟩)

/-- No lexeme stands across this place. -/
def IsBoundary (ps : List Piece) (pos : Nat) : Prop :=
  ∀ p ∈ ps, p.start < pos → p.stop ≤ pos

variable {t : Text} {ns nodes : List Node} {ps : List Piece} {n : Node} {p : Piece} {i pos : Nat}

/-! ## Cuts fall between lexemes -/

theorem isBoundary_start (h : Splits 0 t ps) (hp : p ∈ ps) : IsBoundary ps p.start := by
  intro q hq hstart
  have hspan := h.start_lt_stop hp
  by_contra hcross
  have heq := h.eq_of_mem_both hp hq (i := p.start) ⟨Nat.le_refl _, hspan⟩
    ⟨Nat.le_of_lt hstart, Nat.not_le.mp hcross⟩
  subst heq
  omega

theorem isBoundary_stop (h : Splits 0 t ps) (hp : p ∈ ps) : IsBoundary ps p.stop := by
  intro q hq hstart
  have hspan := h.start_lt_stop hp
  by_contra hcross
  have heq := h.eq_of_mem_both hp hq (i := p.stop - 1) (by omega) (by omega)
  subst heq
  omega

/-- A node of a text is not empty and lies in the text. -/
theorem place_of_mem_walkAll (h : Splits 0 t ps) (hks : ps.filterMap Piece.token? = tokensOf ns)
    (hn : n ∈ walkAll ns) : n.start < n.stop ∧ n.stop ≤ t.length := by
  have horder := h.inOrder
  rw [hks] at horder
  refine ⟨start_lt_stop (inOrder_of_mem_walkAll horder hn), ?_⟩
  rcases n.exists_token_stop with ⟨last, hlast, hstop⟩
  have hmem := (tokens_infix_of_mem_walkAll hn).subset hlast
  rw [← hks] at hmem
  rcases List.mem_filterMap.mp hmem with ⟨p, hp, hk⟩
  have hle := h.stop_le hp
  rw [← hstop, (h.place_of_token?_eq_some hp hk).2]
  omega

/-- A node begins and ends between lexemes. -/
theorem isBoundary_node (h : Splits 0 t ps) (hks : ps.filterMap Piece.token? = tokensOf ns)
    (hn : n ∈ walkAll ns) : IsBoundary ps n.start ∧ IsBoundary ps n.stop := by
  have hsub := (tokens_infix_of_mem_walkAll hn).subset
  rw [← hks] at hsub
  rcases n.exists_token_start with ⟨first, hfirst, hstart⟩
  rcases n.exists_token_stop with ⟨last, hlast, hstop⟩
  rcases List.mem_filterMap.mp (hsub hfirst) with ⟨p, hp, hpfirst⟩
  rcases List.mem_filterMap.mp (hsub hlast) with ⟨q, hq, hqlast⟩
  rw [← hstart, ← hstop, (h.place_of_token?_eq_some hp hpfirst).1,
    (h.place_of_token?_eq_some hq hqlast).2]
  exact ⟨isBoundary_start h hp, isBoundary_stop h hq⟩

/-- A line that only blanks stand on before a node begins between lexemes: a comment or string that
went on behind the newline would end in something that is no blank. -/
theorem isBoundary_first {start stop first last : Nat} (h : Splits 0 t ps)
    (hlines : WholeLines t start stop first last) (hstart : IsBoundary ps start) :
    IsBoundary ps first := by
  intro p hp hbefore
  -- otherwise the lexeme has a newline inside and ends among the blanks behind it
  by_contra hcross
  have hle := hlines.first_le
  have hends : p.stop ≤ start := hstart p hp (by omega)
  rcases h.exists_lexes hp with ⟨-, c, r, n, -, -, htext, hlexes⟩
  have hlength : p.stop = p.start + p.text.length := rfl
  have hnewline : p.text[first - 1 - p.start]? = some '\n' := by
    rw [h.getElem?_text hp (by omega)]
    rcases hlines.behind_newline with hzero | hget
    · omega
    · rwa [Nat.add_sub_cancel' (by omega)]
  rcases List.getElem?_eq_some_iff.mp hnewline with ⟨hin, hget⟩
  have hsplit : p.text = p.text.take (first - 1 - p.start) ++
      '\n' :: p.text.drop (first - 1 - p.start + 1) := by
    rw [← hget, List.getElem_cons_drop, List.take_append_drop]
  have hbehind : p.text.drop (first - 1 - p.start + 1) ≠ [] := by
    rw [Ne, List.drop_eq_nil_iff]
    omega
  rw [htext] at hsplit
  rcases hlexes.getLast?_of_newline hsplit (by rwa [htext] at hbehind) with ⟨x, hlast, hx⟩
  rw [← htext, List.getLast?_eq_getElem?, h.getElem?_text hp (by omega)] at hlast
  have hblank := hlines.before.of_getElem? (i := p.start + (p.text.length - 1))
    (by omega) (by omega) hlast
  rw [hx] at hblank
  cases hblank.1

/-- A line that only blanks stand on behind a node ends between lexemes. -/
theorem isBoundary_last {start stop first last : Nat} (h : Splits 0 t ps)
    (hlines : WholeLines t start stop first last) (hstop : IsBoundary ps stop) :
    IsBoundary ps last := by
  intro p hp hbefore
  -- otherwise the lexeme begins among the blanks and goes on behind the newline
  by_contra hcross
  have hlt := hlines.stop_lt
  have hlength : p.stop = p.start + p.text.length := rfl
  have hbegins : stop ≤ p.start := by
    by_contra hnot
    have := hstop p hp (by omega)
    omega
  rcases h.exists_lexes hp with ⟨-, c, r, n, -, -, htext, hlexes⟩
  have hpos : 0 < p.text.length := List.length_pos_iff.mpr (h.text_ne_nil hp)
  have hfirst : t[p.start]? = some c := by
    have hget := h.getElem?_text hp hpos
    rw [htext] at hget
    exact hget.symm
  have hblank : isBlank c = true := by
    by_cases hnewline : p.start = last - 1
    · rw [hnewline, hlines.newline] at hfirst
      cases hfirst
      rfl
    · exact (hlines.after.of_getElem? hbegins (by omega) hfirst).1
  rcases hlexes.of_isBlank hblank with ⟨-, rfl, -⟩ | ⟨-, hword⟩
  · rw [htext] at hlength
    simp at hlength
    omega
  · have hget : p.text[last - 1 - p.start]? = some '\n' := by
      rw [h.getElem?_text hp (by omega), Nat.add_sub_cancel' (by omega)]
      exact hlines.newline
    have hmem := List.mem_of_getElem? hget
    rw [htext] at hmem
    cases hword '\n' hmem

/-- The spans that are cut begin and end between lexemes. -/
theorem isBoundary_grown (hcut : Cuttable t ns nodes) (h : Splits 0 t ps)
    (hks : ps.filterMap Piece.token? = tokensOf ns) (hn : n ∈ nodes) :
    IsBoundary ps (t.lineSpan n.start n.stop).1 ∧ IsBoundary ps (t.lineSpan n.start n.stop).2 := by
  rcases isBoundary_node h hks (hcut.below n hn) with ⟨hstart, hstop⟩
  rcases hcut.grows n hn with heq | hlines
  · rw [heq]
    exact ⟨hstart, hstop⟩
  · exact ⟨isBoundary_first h hlines hstart, isBoundary_last h hlines hstop⟩

/-- A lexeme is cut as a whole or not at all. -/
theorem isCut_eq (hcut : Cuttable t ns nodes) (h : Splits 0 t ps)
    (hks : ps.filterMap Piece.token? = tokensOf ns) (hp : p ∈ ps) (hstart : p.start ≤ i)
    (hstop : i < p.stop) : isCut t nodes i = isCut t nodes p.start := by
  rw [Bool.eq_iff_iff, isCut, inSpans_eq_true_iff, inSpans_eq_true_iff]
  -- a span that holds a place in the lexeme holds all of it, since it ends between lexemes
  constructor
  · rintro ⟨s, hs, hfirst, hlast⟩
    rcases List.mem_map.mp hs with ⟨n, hn, rfl⟩
    rcases isBoundary_grown hcut h hks hn with ⟨hbegin, -⟩
    refine ⟨_, hs, ?_, by omega⟩
    by_contra hcross
    have := hbegin p hp (by omega)
    omega
  · rintro ⟨s, hs, hfirst, hlast⟩
    rcases List.mem_map.mp hs with ⟨n, hn, rfl⟩
    rcases isBoundary_grown hcut h hks hn with ⟨-, hend⟩
    have := hend p hp hlast
    exact ⟨_, hs, by omega, by omega⟩

/-! ## Where nothing runs together -/

/-- A lexeme that is not cut stands behind what is left of the text before it. -/
theorem take_uncut_stop (hcut : Cuttable t ns nodes) (h : Splits 0 t ps)
    (hks : ps.filterMap Piece.token? = tokensOf ns) (hp : p ∈ ps)
    (hkept : isCut t nodes p.start = false) :
    (uncut t nodes).take (keptBefore (isCut t nodes) p.stop) =
      (uncut t nodes).take (keptBefore (isCut t nodes) p.start) ++ p.text := by
  have hle := h.stop_le hp
  have hspan := h.start_lt_stop hp
  have hlength : (t.take p.start).length = p.start := List.length_take_of_le (by omega)
  have hwhole : keptFrom (isCut t nodes) p.start p.text = p.text := by
    apply keptFrom_of_kept
    intro i hi
    rw [isCut_eq hcut h hks hp (Nat.le_add_right _ _) (Nat.add_lt_add_left hi _), hkept]
  rw [uncut, take_kept (by omega), take_kept (by omega), h.take_stop hp, keptFrom_append, hlength,
    Nat.zero_add, hwhole]

/-- When nothing runs together at the cuts, nothing does so between any two lexemes. -/
theorem CutsCleanly.fusesAt_eq_false (hclean : CutsCleanly t nodes) (hcut : Cuttable t ns nodes)
    (h : Splits 0 t ps) (hks : ps.filterMap Piece.token? = tokensOf ns)
    (hpos : IsBoundary ps pos) (hle : pos ≤ t.length) :
    fusesAt (uncut t nodes) (keptBefore (isCut t nodes) pos) = false := by
  rcases Nat.eq_zero_or_pos pos with rfl | hpositive
  · simp [fusesAt, keptBefore, fuses]
  cases hbefore : isCut t nodes (pos - 1) with
  | true =>
    -- the cut in front of the place came to stand here
    rcases inSpans_eq_true_iff.mp hbefore with ⟨s, hs, hfirst, hlast⟩
    have hplace : keptBefore (isCut t nodes) pos = keptBefore (isCut t nodes) s.1 := by
      obtain ⟨k, rfl⟩ := Nat.exists_eq_add_of_le (show s.1 ≤ pos by omega)
      apply keptBefore_add_of_cut
      intro i hi
      exact inSpans_eq_true_iff.mpr ⟨s, hs, by omega, by omega⟩
    rw [hplace]
    exact hclean.apart s hs
  | false =>
    cases hbehind : isCut t nodes pos with
    | true =>
      -- a cut begins at the place
      rcases inSpans_eq_true_iff.mp hbehind with ⟨s, hs, hfirst, hlast⟩
      have hbegin : s.1 = pos := by
        by_contra hne
        have hin : isCut t nodes (pos - 1) = true :=
          inSpans_eq_true_iff.mpr ⟨s, hs, by omega, by omega⟩
        rw [hbefore] at hin
        cases hin
      rw [← hbegin]
      exact hclean.apart s hs
    | false =>
      -- no cut ends or begins at the place, so both characters stood side by side before
      rcases h.exists_piece (Nat.zero_le (pos - 1)) (by omega) with ⟨p, hp, hfirst, hlast⟩
      have hstop : p.stop = pos := by
        have := hpos p hp (by omega)
        omega
      subst hstop
      have hkept : isCut t nodes p.start = false := by
        rw [← isCut_eq hcut h hks hp hfirst hlast, hbefore]
      have hhead : (t.drop p.stop).head? =
          (keptFrom (isCut t nodes) p.stop (t.drop p.stop)).head? := by
        cases t.drop p.stop with
        | nil => rfl
        | cons c r => simp [keptFrom, hbehind]
      rw [fusesAt, take_uncut_stop hcut h hks hp hkept, uncut, drop_kept hle]
      apply fuses_append_left (h.text_ne_nil hp)
      rw [← fuses_congr hhead]
      exact h.not_fuses hp

/-- What is left after clean cuts falls into the lexemes that are left. -/
theorem CutsCleanly.splits (hclean : CutsCleanly t nodes) (hcut : Cuttable t ns nodes)
    (h : Splits 0 t ps) (hks : ps.filterMap Piece.token? = tokensOf ns) :
    Splits 0 (uncut t nodes)
      ((ps.filter (fun p => !isCut t nodes p.start)).map (Piece.moved (isCut t nodes))) := by
  apply h.kept
  · intro p hp i hstart hstop
    exact isCut_eq hcut h hks hp hstart hstop
  · intro p hp hkept
    have hle := h.stop_le hp
    have hspan := h.start_lt_stop hp
    have hat := hclean.fusesAt_eq_false hcut h hks (isBoundary_start h hp) (by omega)
    have hbehind := hclean.fusesAt_eq_false hcut h hks (isBoundary_stop h hp) (by omega)
    rw [fusesAt, take_uncut_stop hcut h hks hp hkept] at hbehind
    have hsplit : (uncut t nodes).drop (keptBefore (isCut t nodes) p.start) =
        p.text ++ (uncut t nodes).drop (keptBefore (isCut t nodes) p.stop) := by
      have hwhole := List.take_append_drop (keptBefore (isCut t nodes) p.stop) (uncut t nodes)
      rw [take_uncut_stop hcut h hks hp hkept, List.append_assoc] at hwhole
      exact List.append_cancel_left ((List.take_append_drop _ _).trans hwhole.symm)
    rw [fusesAt, hsplit] at hat
    have hfuses := not_fuses_of_append (h.text_ne_nil hp) hat hbehind
    rw [uncut, drop_kept (by omega)] at hfuses
    exact hfuses

/-! ## What is left is read as the tree that is left -/

/-- A piece that moves takes its token along. -/
theorem Piece.token?_moved {cut : Nat → Bool} (hkept : cut p.start = false) :
    (p.moved cut).token? = p.token?.map (Token.relocate (keptBefore cut)) := by
  rcases p with ⟨kind, start, text⟩
  cases kind with
  | gap => rfl
  | openParen => rfl
  | closeParen =>
    have hstop : keptBefore cut (start + 1) = keptBefore cut start + 1 :=
      keptBefore_succ_of_kept hkept
    simp [Piece.moved, Piece.token?, Token.relocate, hstop]
  | atom => rfl

theorem Piece.start_of_token?_eq_some {k : Token} (h : p.token? = some k) : k.start = p.start := by
  rcases p with ⟨kind, start, text⟩
  cases kind <;> cases h <;> rfl

/-- The tokens of the pieces that are left are the tokens that are not cut, at their new places. -/
theorem filterMap_token?_moved (cut : Nat → Bool) (ps : List Piece) :
    ((ps.filter (fun p => !cut p.start)).map (Piece.moved cut)).filterMap Piece.token? =
      ((ps.filterMap Piece.token?).filter (fun k => !cut k.start)).map
        (Token.relocate (keptBefore cut)) := by
  induction ps with
  | nil => rfl
  | cons p ps ih =>
    cases hcut : cut p.start with
    | true =>
      rw [List.filter_cons_of_neg (by simp [hcut]), ih]
      cases hk : p.token? with
      | none => rw [List.filterMap_cons_none hk]
      | some k =>
        have hgone : cut k.start = true := by rw [Piece.start_of_token?_eq_some hk, hcut]
        rw [List.filterMap_cons_some hk, List.filter_cons_of_neg (by simp [hgone])]
    | false =>
      have hmoved := Piece.token?_moved hcut
      rw [List.filter_cons_of_pos (by simp [hcut]), List.map_cons]
      cases hk : p.token? with
      | none =>
        rw [hk] at hmoved
        rw [List.filterMap_cons_none hk, List.filterMap_cons_none hmoved, ih]
      | some k =>
        have hstays : cut k.start = false := by rw [Piece.start_of_token?_eq_some hk, hcut]
        rw [hk] at hmoved
        rw [List.filterMap_cons_some hk, List.filterMap_cons_some hmoved, ih,
          List.filter_cons_of_pos (by simp [hstays]), List.map_cons]

/-- A place in a node that is cut is cut. -/
theorem isCut_of_inSpans (hcut : Cuttable t ns nodes)
    (hin : inSpans (nodes.map span) pos = true) : isCut t nodes pos = true := by
  rcases inSpans_eq_true_iff.mp hin with ⟨s, hs, hfirst, hlast⟩
  rcases List.mem_map.mp hs with ⟨n, hn, rfl⟩
  have hle := (hcut.grows n hn).first_le
  have hle' := (hcut.grows n hn).le_last
  simp only [span] at hfirst hlast
  exact inSpans_eq_true_iff.mpr ⟨_, List.mem_map_of_mem hn, by omega, by omega⟩

/-- After clean cuts the tokens that are left are those outside the nodes that were cut. -/
theorem CutsCleanly.filter_tokens (hclean : CutsCleanly t nodes) (hcut : Cuttable t ns nodes)
    (h : Splits 0 t ps) (hks : ps.filterMap Piece.token? = tokensOf ns) :
    (tokensOf ns).filter (fun k => !isCut t nodes k.start) =
      tokensOutside nodes (tokensOf ns) := by
  apply List.filter_congr
  intro k hk
  congr 1
  rw [Bool.eq_iff_iff]
  constructor
  · intro hgone
    by_contra hout
    rcases inSpans_eq_true_iff.mp hgone with ⟨s, hs, hfirst, hlast⟩
    rcases List.mem_map.mp hs with ⟨n, hn, rfl⟩
    -- a token beside the node would have gone with it, but only separators do
    have hbeside : ¬ (n.start ≤ k.start ∧ k.start < n.stop) := by
      rintro ⟨hstart, hstop⟩
      exact hout (inSpans_eq_true_iff.mpr ⟨n.span, List.mem_map_of_mem hn, hstart, hstop⟩)
    rw [← hks] at hk
    rcases h.getElem?_token hk with ⟨c, hget, hc⟩
    have hseparator := hclean.isSeparator_beside hn hget (by omega)
    rw [hc] at hseparator
    cases hseparator
  · intro hin
    exact isCut_of_inSpans hcut hin

/-- What is left after clean cuts reads as the tree that is left. -/
theorem CutsCleanly.read_uncut (hclean : CutsCleanly t nodes) (hcut : Cuttable t ns nodes)
    {left : List Node} (hleft : tokensOf left = tokensOutside nodes (tokensOf ns)) :
    read (uncut t nodes) = .ok (relocateAll (keptBefore (isCut t nodes)) left) := by
  rcases read_eq_ok_iff.mp hcut.reads with ⟨ps, h, hks⟩
  rw [read_eq_ok_iff]
  refine ⟨_, hclean.splits hcut h hks, ?_⟩
  rw [filterMap_token?_moved, hks, hclean.filter_tokens hcut h hks, ← hleft,
    tokensOf_relocateAll]

/-! ## What can be read as the tree that is left was cut cleanly -/

/-- An offset behind one that is cut but in its lexeme's place is cut as well. -/
theorem exists_piece_at (hcut : Cuttable t ns nodes) (h : Splits 0 t ps)
    (hks : ps.filterMap Piece.token? = tokensOf ns) (hgone : isCut t nodes pos = true)
    (hplace : keptBefore (isCut t nodes) pos < keptBefore (isCut t nodes) t.length) :
    ∃ p ∈ ps, isCut t nodes p.start = false ∧
      keptBefore (isCut t nodes) p.start = keptBefore (isCut t nodes) pos := by
  rcases exists_kept_of_lt hplace with ⟨i, hi, hkept, hsame⟩
  rcases h.exists_piece (Nat.zero_le i) (by omega) with ⟨p, hp, hfirst, hlast⟩
  have hstays : isCut t nodes p.start = false := by
    rw [← isCut_eq hcut h hks hp hfirst hlast, hkept]
  refine ⟨p, hp, hstays, ?_⟩
  by_contra hne
  -- otherwise the cut offset would lie between two characters of one lexeme
  have hmono : keptBefore (isCut t nodes) p.start ≤ keptBefore (isCut t nodes) i :=
    keptBefore_mono hfirst
  have hbehind : keptBefore (isCut t nodes) p.start < keptBefore (isCut t nodes) pos := by omega
  have hafter : p.start < pos := lt_of_keptBefore_lt hbehind
  have hbefore : pos ≤ i := by
    by_contra hnot
    have := keptBefore_lt hkept (Nat.not_le.mp hnot)
    omega
  have hin := isCut_eq hcut h hks hp (Nat.le_of_lt hafter) (by omega)
  rw [hgone, hstays] at hin
  cases hin

/-- A token that is not cut takes the place that its lexeme moves to. -/
theorem place_relocate (hcut : Cuttable t ns nodes) (h : Splits 0 t ps)
    (hks : ps.filterMap Piece.token? = tokensOf ns) (hp : p ∈ ps) {k : Token}
    (hk : p.token? = some k) (hkept : isCut t nodes p.start = false) :
    (k.relocate (keptBefore (isCut t nodes))).stop = keptBefore (isCut t nodes) p.stop := by
  have hlength : keptBefore (isCut t nodes) p.stop =
      keptBefore (isCut t nodes) p.start + p.text.length := by
    apply keptBefore_add_of_kept
    intro i hi
    rw [isCut_eq hcut h hks hp (Nat.le_add_right _ _) (Nat.add_lt_add_left hi _), hkept]
  rcases h.place_of_token?_eq_some hp hk with ⟨hstart, hstop⟩
  cases k with
  | opening start =>
    simp only [Token.start, Token.stop] at hstart hstop
    simp only [Token.relocate, Token.stop]
    rw [hlength, hstart]
    simp only [Piece.stop] at hstop
    omega
  | closing stop =>
    simp only [Token.stop] at hstop
    simp only [Token.relocate, Token.stop, hstop]
  | atom a =>
    simp only [Token.start, Token.stop, Atom.stop, Piece.stop] at hstart hstop
    simp only [Token.relocate, Token.stop, Atom.stop]
    rw [hlength, hstart]
    omega

/-- No token that is kept lies in a node that is cut. -/
theorem mem_tokensOutside_of_kept (hcut : Cuttable t ns nodes) {k : Token} (hk : k ∈ tokensOf ns)
    (hkept : isCut t nodes k.start = false) : k ∈ tokensOutside nodes (tokensOf ns) := by
  refine List.mem_filter.mpr ⟨hk, ?_⟩
  cases hin : inSpans (nodes.map span) k.start with
  | true =>
    rw [isCut_of_inSpans hcut hin] at hkept
    cases hkept
  | false => rfl

/-- Between two lexemes of a text nothing runs together. -/
theorem Splits.fusesAt_stop (h : Splits 0 t ps) (hp : p ∈ ps) : fusesAt t p.stop = false := by
  rw [fusesAt, h.take_stop hp]
  exact fuses_append_left (h.text_ne_nil hp) (h.not_fuses hp)

/-- The lexeme that stands in front of a cut in what is left. -/
theorem exists_piece_before (hcut : Cuttable t ns nodes) (h : Splits 0 t ps)
    (hks : ps.filterMap Piece.token? = tokensOf ns) (hpos : IsBoundary ps pos)
    (hle : pos ≤ t.length) (hsome : 0 < keptBefore (isCut t nodes) pos) :
    ∃ p ∈ ps, isCut t nodes p.start = false ∧ p.stop ≤ pos ∧
      keptBefore (isCut t nodes) p.stop = keptBefore (isCut t nodes) pos := by
  obtain ⟨i, hi, hkept, hplace⟩ := exists_kept_of_lt
    (show keptBefore (isCut t nodes) pos - 1 < keptBefore (isCut t nodes) pos by omega)
  rcases h.exists_piece (Nat.zero_le i) (by omega) with ⟨p, hp, hfirst, hlast⟩
  have hends : p.stop ≤ pos := hpos p hp (by omega)
  have hin := fun {j} => isCut_eq (i := j) hcut h hks hp
  have hstays : isCut t nodes p.start = false := by rw [← hin hfirst hlast, hkept]
  have hsucc := keptBefore_succ_of_kept hkept
  have hstop : p.stop = i + 1 := by
    by_contra hne
    have hnext : isCut t nodes (i + 1) = false := by rw [hin (by omega) (by omega), hstays]
    have := keptBefore_lt hnext (show i + 1 < pos by omega)
    omega
  refine ⟨p, hp, hstays, hends, ?_⟩
  rw [hstop, hsucc]
  omega

/-- Where what is left reads as the tree that is left, no two characters run together at a cut:
the lexeme in front of it has kept its end. -/
theorem apart_of_read (hcut : Cuttable t ns nodes) {left : List Node}
    (hleft : tokensOf left = tokensOutside nodes (tokensOf ns))
    (hread : read (uncut t nodes) = .ok (relocateAll (keptBefore (isCut t nodes)) left))
    (hn : n ∈ nodes) :
    fusesAt (uncut t nodes)
      (keptBefore (isCut t nodes) (t.lineSpan n.start n.stop).1) = false := by
  rcases read_eq_ok_iff.mp hcut.reads with ⟨ps, h, hks⟩
  rcases read_eq_ok_iff.mp hread with ⟨ps', h', hks'⟩
  rw [tokensOf_relocateAll, hleft] at hks'
  have hle := (hcut.grows n hn).first_le
  have hnode := place_of_mem_walkAll h hks (hcut.below n hn)
  rcases Nat.eq_zero_or_pos (keptBefore (isCut t nodes) (t.lineSpan n.start n.stop).1) with
    hzero | hpos
  · simp [fusesAt, hzero, fuses]
  obtain ⟨p, hp, hkept, hbefore, hplace⟩ :=
    exists_piece_before hcut h hks (isBoundary_grown hcut h hks hn).1 (by omega) hpos
  -- what was not cut in front of the place ends in a lexeme of the text
  rw [← hplace]
  cases hk : p.token? with
  | none =>
    -- a gap in front of the cut ends in a character that never runs into another one
    rcases h.exists_lexes hp with ⟨a, c, r, m, hsplit, hstart, htext, hlexes⟩
    have hgap : p.kind = .gap := by
      cases hkind : p.kind <;> simp [Piece.token?, hkind] at hk
      rfl
    rw [hgap] at hlexes
    have hbehind : r.drop m ≠ [] := by
      intro hnil
      rw [List.drop_eq_nil_iff] at hnil
      have hlength := congrArg List.length hsplit
      simp only [Piece.stop, htext, List.take_of_length_le hnil, List.length_cons,
        List.length_append] at hbefore hlength
      omega
    rcases getLast?_of_gap hlexes hbehind with ⟨x, hlast, hx, hparen⟩
    rw [fusesAt, take_uncut_stop hcut h hks hp hkept]
    refine not_fuses_of_delimiter (x := x) ?_ hx hparen
    rw [htext, List.getLast?_append, hlast]
    rfl
  | some k =>
    -- a token in front of the cut is a token of what is left, and ends where it did
    have hmem : k ∈ tokensOf ns := by
      rw [← hks]
      exact List.mem_filterMap.mpr ⟨p, hp, hk⟩
    have hkept' : isCut t nodes k.start = false := by
      rw [Piece.start_of_token?_eq_some hk, hkept]
    have hmoved : k.relocate (keptBefore (isCut t nodes)) ∈ ps'.filterMap Piece.token? := by
      rw [hks']
      exact List.mem_map_of_mem (mem_tokensOutside_of_kept hcut hmem hkept')
    rcases List.mem_filterMap.mp hmoved with ⟨q, hq, hqk⟩
    rw [← place_relocate hcut h hks hp hk hkept, (h'.place_of_token?_eq_some hq hqk).2]
    exact h'.fusesAt_stop hq

/-- What goes with a node beside it are blanks and newlines. -/
theorem isBlank_beside {c : Char} (hcut : Cuttable t ns nodes) (hn : n ∈ nodes)
    (hget : t[pos]? = some c)
    (hbeside : (t.lineSpan n.start n.stop).1 ≤ pos ∧ pos < n.start ∨
      n.stop ≤ pos ∧ pos < (t.lineSpan n.start n.stop).2) : isBlank c = true := by
  rcases hcut.grows n hn with heq | hlines
  · rw [heq] at hbeside
    simp only at hbeside
    omega
  · rcases hbeside with ⟨hfirst, hlast⟩ | ⟨hfirst, hlast⟩
    · exact (hlines.before.of_getElem? hfirst hlast hget).1
    · by_cases hnewline : pos = (t.lineSpan n.start n.stop).2 - 1
      · rw [hnewline, hlines.newline] at hget
        cases hget
        rfl
      · exact (hlines.after.of_getElem? hfirst (by omega) hget).1

/-- A place beside a node that goes with it lies in no node that is cut. -/
theorem not_inSpans_beside (hcut : Cuttable t ns nodes) (hn : n ∈ nodes) (hnode : n.start < n.stop)
    (hbeside : (t.lineSpan n.start n.stop).1 ≤ pos ∧ pos < n.start ∨
      n.stop ≤ pos ∧ pos < (t.lineSpan n.start n.stop).2) :
    inSpans (nodes.map span) pos = false := by
  apply inSpans_eq_false
  intro m hm
  have hle := (hcut.grows m hm).first_le
  have hle' := (hcut.grows m hm).le_last
  have hnle := (hcut.grows n hn).first_le
  have hnle' := (hcut.grows n hn).le_last
  -- what grows from one node does not reach into another
  have hapart : n = m ∨ Apart (t.lineSpan n.start n.stop) (t.lineSpan m.start m.stop) := by
    rcases eq_or_rel_of_pairwise hcut.apart hn hm with heq | hnm | hmn
    · exact Or.inl heq
    · exact Or.inr hnm
    · exact Or.inr hmn.symm
  rcases hapart with rfl | hbefore | hbehind <;> omega

/-- A lexeme that begins with a blank is a separator or a word of blanks. -/
theorem kind_of_isBlank {c : Char} (h : Splits 0 t ps) (hp : p ∈ ps) (hget : t[p.start]? = some c)
    (hblank : isBlank c = true) :
    isSeparator c = true ∧ p.stop = p.start + 1 ∨ isSeparator c = false ∧ p.kind = .atom := by
  rcases h.exists_lexes hp with ⟨-, d, r, m, -, -, htext, hlexes⟩
  have hfirst := h.getElem?_text hp (List.length_pos_iff.mpr (h.text_ne_nil hp))
  rw [Nat.add_zero, hget, htext, List.getElem?_cons_zero, Option.some.injEq] at hfirst
  subst hfirst
  rcases hlexes.of_isBlank hblank with ⟨-, rfl, hseparator⟩ | ⟨hkind, hword⟩
  · exact Or.inl ⟨hseparator, by simp [Piece.stop, htext]⟩
  · exact Or.inr ⟨hlexes.isSeparator_eq_false (by simp [hkind]), hkind⟩

/-- A word is the token of its lexeme. -/
theorem Piece.token?_eq_some_atom_iff {a : Atom} :
    p.token? = some (.atom a) ↔
      p.kind = .atom ∧ a.text = String.ofList p.text ∧ a.start = p.start := by
  rcases p with ⟨kind, start, text⟩
  rcases a with ⟨word, pos⟩
  cases kind with
  | atom =>
    simp only [Piece.token?, Option.some.injEq, Token.atom.injEq, Atom.mk.injEq, true_and]
    constructor <;> rintro ⟨rfl, rfl⟩ <;> exact ⟨rfl, rfl⟩
  | gap => simp [Piece.token?]
  | openParen => simp [Piece.token?]
  | closeParen => simp [Piece.token?]

/-- Tokens that stay in order when they move do not come to stand at one place. -/
theorem eq_of_start_relocate_eq {place : Nat → Nat} {ks : List Token} {k l : Token}
    (h : InOrder (ks.map (Token.relocate place))) (hk : k ∈ ks) (hl : l ∈ ks)
    (hstart : (k.relocate place).start = (l.relocate place).start) : k = l := by
  have hkspan := h.nonempty _ (List.mem_map_of_mem hk)
  have hlspan := h.nonempty _ (List.mem_map_of_mem hl)
  rcases eq_or_rel_of_pairwise (List.pairwise_map.mp h.follows) hk hl with heq | hbefore | hbehind
  · exact heq
  · omega
  · omega

/-- Where what is left reads as the tree that is left, no word of blanks stands beside a node that
is cut: it is read in what is left, but its characters are gone. -/
theorem isSeparator_of_word_beside (hcut : Cuttable t ns nodes) {left : List Node}
    (hleft : tokensOf left = tokensOutside nodes (tokensOf ns))
    (hread : read (uncut t nodes) = .ok (relocateAll (keptBefore (isCut t nodes)) left))
    (h : Splits 0 t ps) (hks : ps.filterMap Piece.token? = tokensOf ns) (hp : p ∈ ps)
    (hword : p.kind = .atom) (hpcut : isCut t nodes p.start = true)
    (houtside : inSpans (nodes.map span) p.start = false) {d : Char} (hd : t[p.start]? = some d)
    (hblank : isBlank d = true) : isSeparator d = true := by
  rcases read_eq_ok_iff.mp hread with ⟨ps', h', hks'⟩
  rw [tokensOf_relocateAll, hleft] at hks'
  have hpmem : Token.atom ⟨String.ofList p.text, p.start⟩ ∈ tokensOutside nodes (tokensOf ns) := by
    refine List.mem_filter.mpr ⟨?_, ?_⟩
    · rw [← hks]
      exact List.mem_filterMap.mpr ⟨p, hp, Piece.token?_eq_some_atom_iff.mpr ⟨hword, rfl, rfl⟩⟩
    · simp [Token.start, houtside]
  obtain ⟨p', hp', hpk'⟩ : ∃ p' ∈ ps', p'.token? =
      some (.atom ⟨String.ofList p.text, keptBefore (isCut t nodes) p.start⟩) := by
    rw [← List.mem_filterMap, hks']
    exact List.mem_map_of_mem hpmem
  rcases Piece.token?_eq_some_atom_iff.mp hpk' with ⟨-, htext, hplace⟩
  have hfirst : (uncut t nodes)[keptBefore (isCut t nodes) p.start]? = some d := by
    have hget' := h'.getElem?_text hp' (List.length_pos_iff.mpr (h'.text_ne_nil hp'))
    have hget := h.getElem?_text hp (List.length_pos_iff.mpr (h.text_ne_nil hp))
    rw [Nat.add_zero, ← hplace, ← String.ofList_injective htext, hget, Nat.add_zero, hd] at hget'
    exact hget'.symm
  -- the character at that place is the first of another lexeme, which has stayed
  have hless : keptBefore (isCut t nodes) p.start < keptBefore (isCut t nodes) t.length := by
    rw [← length_kept]
    exact (List.getElem?_eq_some_iff.mp hfirst).1
  rcases exists_piece_at hcut h hks hpcut hless with ⟨q, hq, hkept, hsame⟩
  have hqd : t[q.start]? = some d := by
    have hspan := h.start_lt_stop hq
    have hle := h.stop_le hq
    rw [← getElem?_kept hkept (by omega), hsame]
    exact hfirst
  rcases kind_of_isBlank h hq hqd hblank with ⟨hseparator, -⟩ | ⟨-, hqkind⟩
  · exact hseparator
  exfalso
  -- so both are words, and two words that are left do not come to stand at one place
  have hqmem : Token.atom ⟨String.ofList q.text, q.start⟩ ∈ tokensOutside nodes (tokensOf ns) := by
    refine mem_tokensOutside_of_kept hcut ?_ hkept
    rw [← hks]
    exact List.mem_filterMap.mpr ⟨q, hq, Piece.token?_eq_some_atom_iff.mpr ⟨hqkind, rfl, rfl⟩⟩
  have horder := h'.inOrder
  rw [hks'] at horder
  have heq := eq_of_start_relocate_eq horder hpmem hqmem hsame.symm
  have hstarts : p.start = q.start := congrArg Token.start heq
  rw [hstarts, hkept] at hpcut
  cases hpcut

/-- Where what is left reads as the tree that is left, only separators went with the nodes. -/
theorem separators_of_read (hcut : Cuttable t ns nodes) {left : List Node}
    (hleft : tokensOf left = tokensOutside nodes (tokensOf ns))
    (hread : read (uncut t nodes) = .ok (relocateAll (keptBefore (isCut t nodes)) left))
    (hn : n ∈ nodes) {c : Char} (hget : t[i]? = some c)
    (hbeside : (t.lineSpan n.start n.stop).1 ≤ i ∧ i < n.start ∨
      n.stop ≤ i ∧ i < (t.lineSpan n.start n.stop).2) : isSeparator c = true := by
  rcases read_eq_ok_iff.mp hcut.reads with ⟨ps, h, hks⟩
  have hnode := place_of_mem_walkAll h hks (hcut.below n hn)
  have hgone : isCut t nodes i = true := by
    have hle := (hcut.grows n hn).first_le
    have hle' := (hcut.grows n hn).le_last
    exact inSpans_eq_true_iff.mpr ⟨_, List.mem_map_of_mem hn, by omega, by omega⟩
  have hlength : i < t.length := (List.getElem?_eq_some_iff.mp hget).1
  rcases h.exists_piece (Nat.zero_le i) (by omega) with ⟨p, hp, hfirst, hlast⟩
  -- the lexeme at this place begins beside the node as well, so it begins with a blank
  have hstart : (t.lineSpan n.start n.stop).1 ≤ p.start ∧ p.start < n.start ∨
      n.stop ≤ p.start ∧ p.start < (t.lineSpan n.start n.stop).2 := by
    have hgrown := (isBoundary_grown hcut h hks hn).1 p hp
    have hstop := (isBoundary_node h hks (hcut.below n hn)).2 p hp
    omega
  have hd := List.getElem?_eq_getElem (show p.start < t.length by omega)
  have hblank := isBlank_beside hcut hn hd hstart
  rcases kind_of_isBlank h hp hd hblank with ⟨hseparator, hone⟩ | ⟨hword, hkind⟩
  · have heq : i = p.start := by omega
    rw [heq, hd] at hget
    cases hget
    exact hseparator
  · have hpcut : isCut t nodes p.start = true := by
      rw [← isCut_eq hcut h hks hp hfirst hlast, hgone]
    have hout := not_inSpans_beside hcut hn hnode.1 hstart
    rw [isSeparator_of_word_beside hcut hleft hread h hks hp hkind hpcut hout hd hblank] at hword
    cases hword

/-- What is left of a text when nodes are cut out reads as the tree that is left, every token at
the place that its characters moved to, exactly when the nodes are cut out cleanly. -/
theorem read_uncut_iff (hcut : Cuttable t ns nodes) {left : List Node}
    (hleft : tokensOf left = tokensOutside nodes (tokensOf ns)) :
    read (uncut t nodes) = .ok (relocateAll (keptBefore (isCut t nodes)) left) ↔
      CutsCleanly t nodes := by
  constructor
  · intro hread
    refine ⟨?_, ?_⟩
    · intro n hn
      rw [List.all_eq_true, List.all_eq_true]
      constructor
      · intro c hc
        rcases mem_slice_iff.mp hc with ⟨i, hfirst, hlast, hget⟩
        exact separators_of_read hcut hleft hread hn hget (Or.inl ⟨hfirst, hlast⟩)
      · intro c hc
        rcases mem_slice_iff.mp hc with ⟨i, hfirst, hlast, hget⟩
        exact separators_of_read hcut hleft hread hn hget (Or.inr ⟨hfirst, hlast⟩)
    · intro s hs
      rcases List.mem_map.mp hs with ⟨n, hn, rfl⟩
      exact apart_of_read hcut hleft hread hn
  · intro hclean
    exact hclean.read_uncut hcut hleft

end WasmPackage.SExpr
