import Mathlib.Logic.Relation
import WasmPackage.Proofs.SExpr.Gaps
import WasmPackage.Proofs.SExpr.Trees
import WasmPackage.Proofs.Text.Lines

/-!
# Spans of what was read

The nodes of a forest that was read lie in the text as they are nested, and every offset that none
of them takes up lies in a gap.  The main statement is `read_hasExactSpans`.
-/

namespace WasmPackage.SExpr

open Text

namespace Node

/-- Is the first node an item of the second one, or of an item of it, and so on? -/
def IsBelow (m n : Node) : Prop :=
  Relation.TransGen (fun a b : Node => a ∈ b.items) m n

/-- Does the node itself take up an offset?  An atom takes up all of its span, a list the places of
its two parentheses. -/
def Owns : Node → Nat → Prop
  | atom a, i => a.start ≤ i ∧ i < a.stop
  | list _ start stop, i => i = start ∨ i + 1 = stop

/-- The tokens of a node that are not those of its items. -/
def ownTokens : Node → List Token
  | atom a => [.atom a]
  | list _ start stop => [.opening start, .closing stop]

variable {n m : Node} {ns : List Node} {i : Nat} {k : Token}

/-! ## Nodes and what is below them -/

mutual

theorem isBelow_of_mem_walk {n m : Node} (h : m ∈ walk n) : m = n ∨ m.IsBelow n := by
  cases n with
  | atom a => exact Or.inl (List.mem_singleton.mp h)
  | list items start stop =>
    rcases List.mem_cons.mp h with rfl | h
    · exact Or.inl rfl
    · right
      rcases exists_of_mem_walkAll h with ⟨k, hk, hbelow⟩
      have hitem : k ∈ (list items start stop).items := hk
      rcases hbelow with rfl | hbelow
      · exact .single hitem
      · exact .tail hbelow hitem

theorem exists_of_mem_walkAll {ns : List Node} {m : Node} (h : m ∈ walkAll ns) :
    ∃ n ∈ ns, m = n ∨ m.IsBelow n := by
  cases ns with
  | nil => cases h
  | cons n ns =>
    rcases List.mem_append.mp h with h | h
    · exact ⟨n, List.mem_cons_self, isBelow_of_mem_walk h⟩
    · rcases exists_of_mem_walkAll h with ⟨k, hk, hbelow⟩
      exact ⟨k, List.mem_cons_of_mem _ hk, hbelow⟩

end

theorem IsBelow.mem_walkAll_items (h : m.IsBelow n) : m ∈ walkAll n.items := by
  induction h with
  | single hitem => exact mem_walkAll_of_mem hitem
  | @tail b c _ hitem ih =>
    have hwalk : m ∈ walk b := by
      rw [walk_eq_cons]
      exact List.mem_cons_of_mem _ ih
    exact mem_walkAll_trans (mem_walkAll_of_mem hitem) hwalk

/-- A walk meets a node and the nodes below it. -/
theorem mem_walk_iff : m ∈ walk n ↔ m = n ∨ m.IsBelow n := by
  constructor
  · exact isBelow_of_mem_walk
  · rintro (rfl | hbelow)
    · exact m.self_mem_walk
    · rw [walk_eq_cons]
      exact List.mem_cons_of_mem _ hbelow.mem_walkAll_items

/-- A node below another one begins behind it. -/
theorem IsBelow.start_lt (h : m.IsBelow n) (horder : InOrder n.tokens) : n.start < m.start := by
  have hmem := h.mem_walkAll_items
  cases n with
  | atom a => cases hmem
  | list items start stop => exact (bounds_of_mem_walkAll_items horder hmem).1

/-! ## Nodes and their tokens -/

mutual

theorem mem_tokens_iff_exists (n : Node) :
    k ∈ n.tokens ↔ ∃ m ∈ walk n, k ∈ m.ownTokens := by
  cases n with
  | atom a => simp [tokens, walk, ownTokens]
  | list items start stop =>
    have hitems := mem_tokensOf_iff_exists items
    have hown : (list items start stop).ownTokens = [.opening start, .closing stop] := rfl
    simp only [tokens, walk, List.mem_cons, List.mem_append, hitems, List.not_mem_nil, or_false,
      exists_eq_or_imp, hown]
    rw [or_assoc, or_comm (b := k = Token.closing stop)]

/-- The tokens of a forest are those of its nodes. -/
theorem mem_tokensOf_iff_exists (ns : List Node) :
    k ∈ tokensOf ns ↔ ∃ m ∈ walkAll ns, k ∈ m.ownTokens := by
  cases ns with
  | nil => simp [tokensOf, walkAll]
  | cons n ns =>
    have hn := mem_tokens_iff_exists n
    have hns := mem_tokensOf_iff_exists ns
    simp only [tokensOf, walkAll, List.mem_append, hn, hns, or_and_right, exists_or]

end

/-- A node takes up the places of its own tokens. -/
theorem owns_iff : n.Owns i ↔ ∃ k ∈ n.ownTokens, k.start ≤ i ∧ i < k.stop := by
  cases n with
  | atom a => simp [Owns, ownTokens, Token.start, Token.stop]
  | list items start stop =>
    simp only [Owns, ownTokens, List.mem_cons, List.not_mem_nil, or_false, exists_eq_or_imp,
      exists_eq_left, Token.start, Token.stop]
    omega

/-! ## Nodes in the order of the text -/

/-- Neighbours stand one behind the other. -/
theorem pairwise_of_inOrder (h : InOrder (tokensOf ns)) :
    ns.Pairwise (fun m m' => m.stop ≤ m'.start) := by
  induction ns with
  | nil => exact List.Pairwise.nil
  | cons n ns ih =>
    rw [List.pairwise_cons]
    constructor
    · intro m hm
      exact stop_le_start_of_mem_walk h n.self_mem_walk (mem_walkAll_of_mem hm)
    · exact ih (inOrder_append.mp h).2.1

/-- What a walk is to visit: a node and all below it, each once, from left to right, and none before
a node that it is below. -/
structure IsWalk (n : Node) (visited : List Node) : Prop where
  members : ∀ m, m ∈ visited ↔ m = n ∨ m.IsBelow n
  once : visited.Nodup
  parentsFirst : visited.Pairwise (fun a b => ¬ a.IsBelow b)
  ascending : visited.Pairwise (fun a b => a.start < b.start)

theorem isWalk_walk (h : InOrder n.tokens) : IsWalk n n.walk := by
  have horder : ∀ m ∈ walk n, InOrder m.tokens :=
    fun m hm => h.sublist (tokens_infix_of_mem_walk hm).sublist
  have hascending : (walk n).Pairwise (fun a b => a.start < b.start) := by
    refine (pairwise_walk h).imp_of_mem ?_
    rintro a b ha hb (hbefore | ⟨-, hlt, -⟩)
    · exact Nat.lt_of_lt_of_le (start_lt_stop (horder a ha)) hbefore
    · exact hlt
  refine ⟨fun m => mem_walk_iff, ?_, ?_, hascending⟩
  · refine hascending.imp ?_
    rintro a b hlt rfl
    exact Nat.lt_irrefl _ hlt
  · refine hascending.imp_of_mem ?_
    intro a b ha hb hlt hbelow
    exact Nat.lt_asymm hlt (hbelow.start_lt (horder b hb))

end Node

open Node

variable {t : Text} {ps : List Piece} {p : Piece} {ns : List Node}

/-- The nodes of a forest lie in a text as they are nested, and what none of them takes up are
gaps. -/
structure HasExactSpans (t : Text) (ns : List Node) : Prop where
  atoms : ∀ a, .atom a ∈ walkAll ns →
    a.start < a.stop ∧ a.stop ≤ t.length ∧ a.text.toList = t.slice a.start a.stop
  lists : ∀ items start stop, .list items start stop ∈ walkAll ns →
    start + 1 < stop ∧ t[start]? = some '(' ∧ t[stop - 1]? = some ')'
  items : ∀ items start stop, .list items start stop ∈ walkAll ns →
    (∀ m ∈ items, start < m.start ∧ m.stop < stop) ∧
      items.Pairwise (fun m m' => m.stop ≤ m'.start)
  forms : ns.Pairwise (fun m m' => m.stop ≤ m'.start)
  rest : ∀ i < t.length, (∀ m ∈ walkAll ns, ¬ m.Owns i) →
    ∃ start stop, start ≤ i ∧ i < stop ∧ stop ≤ t.length ∧
      IsGap (t.slice start stop) (t.drop stop) ∧
        ∀ j, start ≤ j → j < stop → ∀ m ∈ walkAll ns, ¬ m.Owns j
  walks : ∀ n ∈ walkAll ns, IsWalk n n.walk

/-! ## Pieces and tokens -/

/-- A piece is the slice of the text at its place. -/
theorem Splits.slice_eq (h : Splits 0 t ps) (hp : p ∈ ps) : t.slice p.start p.stop = p.text := by
  rcases h.exists_append hp with ⟨a, b, rfl, hstart, -⟩
  rw [Piece.stop, slice, ← hstart, List.append_assoc, List.drop_left, Nat.add_sub_cancel_left,
    List.take_left]

/-- A token is the one of some piece, which has its place. -/
theorem Splits.exists_piece_of_token {k : Token} (h : Splits 0 t ps)
    (hk : k ∈ ps.filterMap Piece.token?) :
    ∃ p ∈ ps, p.token? = some k ∧ k.start = p.start ∧ k.stop = p.stop := by
  rcases List.mem_filterMap.mp hk with ⟨p, hp, hpk⟩
  exact ⟨p, hp, hpk, h.place_of_token?_eq_some hp hpk⟩

/-- An atom is the slice of the text at its place. -/
theorem Splits.slice_of_atom {a : Atom} (h : Splits 0 t ps)
    (ha : .atom a ∈ ps.filterMap Piece.token?) :
    a.start < a.stop ∧ a.stop ≤ t.length ∧ a.text.toList = t.slice a.start a.stop := by
  rcases h.exists_piece_of_token ha with ⟨p, hp, htoken, hstart, hstop⟩
  simp only [Token.start, Token.stop] at hstart hstop
  have hlt := h.start_lt_stop hp
  have hle := h.stop_le hp
  have htext : a.text.toList = p.text := by
    rcases p with ⟨kind, start, text⟩
    cases kind <;> cases htoken
    exact String.toList_ofList
  rw [hstart, hstop, htext, h.slice_eq hp]
  exact ⟨hlt, by omega, rfl⟩

/-- A parenthesis is the character at its place. -/
theorem Splits.getElem?_parenthesis (h : Splits 0 t ps) (hp : p ∈ ps) :
    (p.kind = .openParen → t[p.start]? = some '(') ∧
      (p.kind = .closeParen → t[p.start]? = some ')') := by
  have hfirst := h.getElem?_text hp (List.length_pos_iff.mpr (h.text_ne_nil hp))
  rcases h.exists_lexes hp with ⟨a, c, r, n, -, -, htext, hlexes⟩
  rw [Nat.add_zero, htext] at hfirst
  rw [← hfirst]
  constructor
  · intro hkind
    rw [hkind] at hlexes
    cases hlexes
    rfl
  · intro hkind
    rw [hkind] at hlexes
    cases hlexes
    rfl

theorem Splits.getElem?_opening {start : Nat} (h : Splits 0 t ps)
    (hk : .opening start ∈ ps.filterMap Piece.token?) : t[start]? = some '(' := by
  rcases h.exists_piece_of_token hk with ⟨p, hp, htoken, hstart, -⟩
  rw [show start = p.start from hstart]
  apply (h.getElem?_parenthesis hp).1
  rcases p with ⟨kind, start, text⟩
  cases kind <;> cases htoken
  rfl

theorem Splits.getElem?_closing {stop : Nat} (h : Splits 0 t ps)
    (hk : .closing stop ∈ ps.filterMap Piece.token?) : t[stop - 1]? = some ')' := by
  rcases h.exists_piece_of_token hk with ⟨p, hp, htoken, hstart, -⟩
  rw [show stop - 1 = p.start from hstart]
  apply (h.getElem?_parenthesis hp).2
  rcases p with ⟨kind, start, text⟩
  cases kind <;> cases htoken
  rfl

/-- A piece without a token is a gap. -/
theorem Splits.isGap (h : Splits 0 t ps) (hp : p ∈ ps) (hnone : p.token? = none) :
    IsGap (t.slice p.start p.stop) (t.drop p.stop) := by
  rcases h.exists_lexes hp with ⟨a, c, r, n, hsplit, hstart, htext, hlexes⟩
  have hkind : p.kind = .gap := by
    rcases p with ⟨kind, start, text⟩
    cases kind <;> cases hnone
    rfl
  have hdrop : t.drop p.stop = r.drop n := by
    have hwhole : t = (a ++ (c :: r.take n)) ++ r.drop n := by
      rw [hsplit, List.append_assoc, List.cons_append, List.take_append_drop]
    have hstop : p.stop = (a ++ (c :: r.take n)).length := by
      rw [Piece.stop, htext, hstart, List.length_append, Nat.zero_add]
    rw [hstop, hwhole, List.drop_left]
  rw [h.slice_eq hp, hdrop, htext]
  rw [hkind] at hlexes
  exact isGap_of_lexes hlexes

/-- An offset that no node takes up lies in a gap, no offset of which any node takes up. -/
theorem Splits.exists_gap (h : Splits 0 t ps) (hks : ps.filterMap Piece.token? = tokensOf ns)
    {i : Nat} (hi : i < t.length) (hfree : ∀ m ∈ walkAll ns, ¬ m.Owns i) :
    ∃ start stop, start ≤ i ∧ i < stop ∧ stop ≤ t.length ∧
      IsGap (t.slice start stop) (t.drop stop) ∧
        ∀ j, start ≤ j → j < stop → ∀ m ∈ walkAll ns, ¬ m.Owns j := by
  rcases h.exists_piece (Nat.zero_le i) (by omega) with ⟨p, hp, hstart, hstop⟩
  have hnone : p.token? = none := by
    -- a token would belong to a node, which would take up the offset
    rcases hcase : p.token? with _ | k
    · rfl
    · have hk : k ∈ tokensOf ns := by
        rw [← hks]
        exact List.mem_filterMap.mpr ⟨p, hp, hcase⟩
      rcases (mem_tokensOf_iff_exists ns).mp hk with ⟨m, hm, hown⟩
      rcases h.place_of_token?_eq_some hp hcase with ⟨hkstart, hkstop⟩
      exact (hfree m hm (owns_iff.mpr ⟨k, hown, by omega, by omega⟩)).elim
  have hle := h.stop_le hp
  refine ⟨p.start, p.stop, hstart, hstop, by omega, h.isGap hp hnone, ?_⟩
  intro j hfirst hlast m hm howns
  rcases owns_iff.mp howns with ⟨k, hown, hkstart, hkstop⟩
  have hk : k ∈ ps.filterMap Piece.token? := by
    rw [hks]
    exact (mem_tokensOf_iff_exists ns).mpr ⟨m, hm, hown⟩
  rcases h.exists_piece_of_token hk with ⟨q, hq, htoken, hqstart, hqstop⟩
  rw [hqstart] at hkstart
  rw [hqstop] at hkstop
  have hsame : p = q := h.eq_of_mem_both hp hq ⟨hfirst, hlast⟩ ⟨hkstart, hkstop⟩
  rw [hsame, htoken] at hnone
  cases hnone

/-! ## What was read -/

/-- The nodes of a text that was read lie in it as they are nested, and the rest of it are gaps. -/
theorem read_hasExactSpans (h : read t = .ok ns) : HasExactSpans t ns := by
  rcases read_eq_ok_iff.mp h with ⟨ps, hsplits, hks⟩
  have horder : InOrder (tokensOf ns) := hks ▸ hsplits.inOrder
  have htoken : ∀ {m k}, m ∈ walkAll ns → k ∈ m.ownTokens → k ∈ ps.filterMap Piece.token? := by
    intro m k hm hk
    rw [hks]
    exact (mem_tokensOf_iff_exists ns).mpr ⟨m, hm, hk⟩
  constructor
  case atoms =>
    intro a ha
    exact hsplits.slice_of_atom (htoken ha (List.mem_singleton_self _))
  case lists =>
    intro items start stop hlist
    have hinner := inOrder_list.mp (inOrder_of_mem_walkAll horder hlist)
    exact ⟨hinner.2.1, hsplits.getElem?_opening (htoken hlist (by simp [ownTokens])),
      hsplits.getElem?_closing (htoken hlist (by simp [ownTokens]))⟩
  case items =>
    intro items start stop hlist
    have hlistOrder := inOrder_of_mem_walkAll horder hlist
    constructor
    · intro m hm
      exact bounds_of_mem_walkAll_items hlistOrder (mem_walkAll_of_mem hm)
    · exact pairwise_of_inOrder (inOrder_list.mp hlistOrder).1
  case forms => exact pairwise_of_inOrder horder
  case rest =>
    intro i hi hfree
    exact hsplits.exists_gap hks hi hfree
  case walks =>
    intro n hn
    exact isWalk_walk (inOrder_of_mem_walkAll horder hn)

/-- A text with a line comment, a string and a block comment in a block comment. -/
theorem read_hasExactSpans_comments :
    read "(a ;; (\n \"(;\")(;(;;);)b".toList =
        .ok [.list [.atom ⟨"a", 1⟩, .atom ⟨"\"(;\"", 9⟩] 0 14, .atom ⟨"b", 22⟩] ∧
      HasExactSpans "(a ;; (\n \"(;\")(;(;;);)b".toList
        [.list [.atom ⟨"a", 1⟩, .atom ⟨"\"(;\"", 9⟩] 0 14, .atom ⟨"b", 22⟩] := by
  have hread : read "(a ;; (\n \"(;\")(;(;;);)b".toList =
      .ok [.list [.atom ⟨"a", 1⟩, .atom ⟨"\"(;\"", 9⟩] 0 14, .atom ⟨"b", 22⟩] := by cbv
  exact ⟨hread, read_hasExactSpans hread⟩

end WasmPackage.SExpr
