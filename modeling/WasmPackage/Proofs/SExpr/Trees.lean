import WasmPackage.Proofs.SExpr.Tokens

/-!
# Places of nodes

A forest that was read has its tokens in the order of the text.  So every node covers the places of
its own tokens and of no others, and of two nodes one stands before the other or lies in it.
-/

namespace WasmPackage.SExpr

open Text

/-- Tokens of a text from left to right. -/
structure InOrder (ks : List Token) : Prop where
  nonempty : ∀ k ∈ ks, k.start < k.stop
  follows : ks.Pairwise (fun a b => a.stop ≤ b.start)

theorem inOrder_append {ks ls : List Token} :
    InOrder (ks ++ ls) ↔ InOrder ks ∧ InOrder ls ∧ ∀ k ∈ ks, ∀ l ∈ ls, k.stop ≤ l.start := by
  constructor
  · rintro ⟨hnonempty, hfollows⟩
    rcases List.pairwise_append.mp hfollows with ⟨hks, hls, hacross⟩
    exact ⟨⟨fun k hk => hnonempty k (List.mem_append_left _ hk), hks⟩,
      ⟨fun l hl => hnonempty l (List.mem_append_right _ hl), hls⟩, hacross⟩
  · rintro ⟨hks, hls, hacross⟩
    refine ⟨?_, List.pairwise_append.mpr ⟨hks.follows, hls.follows, hacross⟩⟩
    intro k hk
    rcases List.mem_append.mp hk with hk | hk
    · exact hks.nonempty k hk
    · exact hls.nonempty k hk

theorem InOrder.sublist {ks ls : List Token} (h : InOrder ls) (hsub : ks.Sublist ls) :
    InOrder ks :=
  ⟨fun k hk => h.nonempty k (hsub.subset hk), h.follows.sublist hsub⟩

/-! ## Pieces and their tokens -/

/-- A token takes the place of its piece. -/
theorem Splits.place_of_token?_eq_some {pos : Nat} {t : Text} {ps : List Piece} {p : Piece}
    {k : Token} (h : Splits pos t ps) (hp : p ∈ ps) (hk : p.token? = some k) :
    k.start = p.start ∧ k.stop = p.stop := by
  rcases p with ⟨kind, start, text⟩
  rcases h.exists_lexes hp with ⟨a, c, r, n, -, -, htext, hlexes⟩
  dsimp only at htext hlexes
  subst htext
  cases kind with
  | gap => cases hk
  | openParen =>
    cases hk
    cases hlexes
    exact ⟨rfl, rfl⟩
  | closeParen =>
    cases hk
    cases hlexes
    exact ⟨rfl, rfl⟩
  | atom =>
    cases hk
    refine ⟨rfl, ?_⟩
    simp only [Token.stop, Atom.stop, Piece.stop, String.length_ofList]

/-- A token begins with a character that is no separator. -/
theorem Splits.getElem?_token {t : Text} {ps : List Piece} {k : Token} (h : Splits 0 t ps)
    (hk : k ∈ ps.filterMap Piece.token?) :
    ∃ c, t[k.start]? = some c ∧ isSeparator c = false := by
  rcases List.mem_filterMap.mp hk with ⟨p, hp, hpk⟩
  rcases h.exists_lexes hp with ⟨-, c, r, n, -, -, htext, hlexes⟩
  refine ⟨c, ?_, hlexes.isSeparator_eq_false ?_⟩
  · have hfirst := h.getElem?_text hp (List.length_pos_iff.mpr (h.text_ne_nil hp))
    rw [(h.place_of_token?_eq_some hp hpk).1, ← Nat.add_zero p.start, ← hfirst, htext]
    rfl
  · intro hgap
    rw [Piece.token?, hgap] at hpk
    cases hpk

/-- The tokens of a text stand in its order. -/
theorem Splits.inOrder {pos : Nat} {t : Text} {ps : List Piece} (h : Splits pos t ps) :
    InOrder (ps.filterMap Piece.token?) := by
  constructor
  · intro k hk
    rcases List.mem_filterMap.mp hk with ⟨p, hp, hpk⟩
    rcases h.place_of_token?_eq_some hp hpk with ⟨hstart, hstop⟩
    rw [hstart, hstop]
    exact h.start_lt_stop hp
  · rw [List.pairwise_filterMap]
    refine h.pairwise.imp_of_mem ?_
    intro p q hp hq hbefore k hk l hl
    rw [(h.place_of_token?_eq_some hp hk).2, (h.place_of_token?_eq_some hq hl).1]
    exact hbefore

/-! ## Nodes and their places -/

namespace Node

@[simp] theorem start_atom (a : Atom) : (atom a).start = a.start := rfl

@[simp] theorem stop_atom (a : Atom) : (atom a).stop = a.stop := rfl

@[simp] theorem start_list (items : List Node) (start stop : Nat) :
    (list items start stop).start = start := rfl

@[simp] theorem stop_list (items : List Node) (start stop : Nat) :
    (list items start stop).stop = stop := rfl

@[simp] theorem items_atom (a : Atom) : (atom a).items = [] := rfl

@[simp] theorem items_list (items : List Node) (start stop : Nat) :
    (list items start stop).items = items := rfl

theorem walk_eq_cons (n : Node) : walk n = n :: walkAll n.items := by
  cases n with
  | atom a => rfl
  | list items start stop => rfl

theorem self_mem_walk (n : Node) : n ∈ walk n := by
  rw [walk_eq_cons]
  exact List.mem_cons_self

theorem mem_walkAll_iff {ns : List Node} {m : Node} : m ∈ walkAll ns ↔ ∃ n ∈ ns, m ∈ walk n := by
  induction ns with
  | nil => simp [walkAll]
  | cons n ns ih => simp [walkAll, ih]

theorem mem_walkAll_of_mem {ns : List Node} {m : Node} (h : m ∈ ns) : m ∈ walkAll ns :=
  mem_walkAll_iff.mpr ⟨m, h, m.self_mem_walk⟩

mutual

/-- What is below a node below another is below the other. -/
theorem mem_walk_trans {n m l : Node} (hm : m ∈ walk n) (hl : l ∈ walk m) : l ∈ walk n := by
  cases n with
  | atom a =>
    rcases List.mem_singleton.mp hm with rfl
    exact hl
  | list items start stop =>
    rcases List.mem_cons.mp hm with rfl | hm
    · exact hl
    · exact List.mem_cons_of_mem _ (mem_walkAll_trans hm hl)

theorem mem_walkAll_trans {ns : List Node} {m l : Node} (hm : m ∈ walkAll ns)
    (hl : l ∈ walk m) : l ∈ walkAll ns := by
  cases ns with
  | nil => cases hm
  | cons n ns =>
    rcases List.mem_append.mp hm with hm | hm
    · exact List.mem_append_left _ (mem_walk_trans hm hl)
    · exact List.mem_append_right _ (mem_walkAll_trans hm hl)

end

theorem tokens_ne_nil (n : Node) : n.tokens ≠ [] := by
  cases n <;> simp [tokens]

/-- A node begins where its first token does. -/
theorem exists_token_start (n : Node) : ∃ k ∈ n.tokens, k.start = n.start := by
  cases n with
  | atom a => exact ⟨.atom a, List.mem_cons_self, rfl⟩
  | list items start stop => exact ⟨.opening start, List.mem_cons_self, rfl⟩

/-- A node ends where its last token does. -/
theorem exists_token_stop (n : Node) : ∃ k ∈ n.tokens, k.stop = n.stop := by
  cases n with
  | atom a => exact ⟨.atom a, List.mem_cons_self, rfl⟩
  | list items start stop => exact ⟨.closing stop, by simp [tokens], rfl⟩

/-- Only a forest has these tokens. -/
theorem tokensOf_injective {ns ms : List Node} (h : tokensOf ns = tokensOf ms) : ns = ms := by
  have hns := build_eq_some_iff.mpr (rfl : tokensOf ns = tokensOf ns)
  have hms := build_eq_some_iff.mpr (rfl : tokensOf ms = tokensOf ms)
  -- the same tokens build the same forest
  rw [h, hms] at hns
  exact (Option.some.inj hns).symm

theorem tokens_injective {n m : Node} (h : n.tokens = m.tokens) : n = m := by
  have hsingle : tokensOf [n] = tokensOf [m] := by simp [tokensOf, h]
  simpa using tokensOf_injective hsingle

instance : DecidableEq Node := fun n m =>
  decidable_of_iff (n.tokens = m.tokens) ⟨tokens_injective, congrArg tokens⟩

/-- The items of a list stand between its parentheses. -/
theorem inOrder_list {items : List Node} {start stop : Nat} :
    InOrder (tokens (.list items start stop)) ↔
      InOrder (tokensOf items) ∧ start + 1 < stop ∧
        ∀ k ∈ tokensOf items, start + 1 ≤ k.start ∧ k.stop + 1 ≤ stop := by
  have hopening : InOrder [.opening start] := ⟨by simp [Token.start, Token.stop], by simp⟩
  have hclosing : InOrder [.closing stop] ↔ 0 < stop := by
    constructor
    · intro h
      have := h.nonempty (.closing stop) List.mem_cons_self
      simp only [Token.start, Token.stop] at this
      omega
    · intro h
      refine ⟨?_, by simp⟩
      intro k hk
      rcases List.mem_singleton.mp hk with rfl
      exact Nat.sub_lt h Nat.one_pos
  -- the list is its opening parenthesis, its items and its closing one, in order
  rw [tokens, ← List.singleton_append, inOrder_append, inOrder_append, hclosing]
  simp only [hopening, true_and, List.mem_singleton, forall_eq, List.mem_append, or_imp,
    forall_and, Token.start, Token.stop]
  constructor
  · rintro ⟨⟨hitems, hpos, hbefore⟩, hbehind, hstop⟩
    refine ⟨hitems, by omega, hbehind, ?_⟩
    intro k hk
    have := hbefore k hk
    omega
  · rintro ⟨hitems, hstop, hbehind, hbefore⟩
    refine ⟨⟨hitems, by omega, ?_⟩, hbehind, by omega⟩
    intro k hk
    have := hbefore k hk
    omega

/-- A node covers its own tokens. -/
theorem bounds_of_mem_tokens {n : Node} (h : InOrder n.tokens) {k : Token} (hk : k ∈ n.tokens) :
    n.start ≤ k.start ∧ k.stop ≤ n.stop := by
  cases n with
  | atom a =>
    rcases List.mem_singleton.mp hk with rfl
    exact ⟨Nat.le_refl _, Nat.le_refl _⟩
  | list items start stop =>
    rcases inOrder_list.mp h with ⟨hitems, hstop, hinside⟩
    simp only [tokens, List.mem_cons, List.mem_append, List.not_mem_nil, or_false] at hk
    simp only [start_list, stop_list]
    rcases hk with rfl | hk | rfl
    · simp only [Token.start, Token.stop]
      omega
    · have := hinside k hk
      omega
    · simp only [Token.start, Token.stop]
      omega

theorem start_lt_stop {n : Node} (h : InOrder n.tokens) : n.start < n.stop := by
  rcases List.exists_mem_of_ne_nil _ n.tokens_ne_nil with ⟨k, hk⟩
  have hbounds := bounds_of_mem_tokens h hk
  have hspan := h.nonempty k hk
  omega

mutual

/-- The tokens of a node below another stand among those of the other. -/
theorem tokens_infix_of_mem_walk {n m : Node} (h : m ∈ walk n) : m.tokens <:+: n.tokens := by
  cases n with
  | atom a =>
    rcases List.mem_singleton.mp h with rfl
    exact List.infix_refl _
  | list items start stop =>
    rcases List.mem_cons.mp h with rfl | h
    · exact List.infix_refl _
    · rcases tokens_infix_of_mem_walkAll h with ⟨a, b, hsplit⟩
      exact ⟨.opening start :: a, b ++ [.closing stop], by simp [tokens, ← hsplit]⟩

theorem tokens_infix_of_mem_walkAll {ns : List Node} {m : Node} (h : m ∈ walkAll ns) :
    m.tokens <:+: tokensOf ns := by
  cases ns with
  | nil => cases h
  | cons n ns =>
    rw [walkAll] at h
    rcases List.mem_append.mp h with h | h
    · rcases tokens_infix_of_mem_walk h with ⟨a, b, hsplit⟩
      exact ⟨a, b ++ tokensOf ns, by simp [tokensOf, ← hsplit]⟩
    · rcases tokens_infix_of_mem_walkAll h with ⟨a, b, hsplit⟩
      exact ⟨n.tokens ++ a, b, by simp [tokensOf, ← hsplit]⟩

end

/-- A node of a forest lies where the forest's tokens do. -/
theorem inOrder_of_mem_walkAll {ns : List Node} (h : InOrder (tokensOf ns)) {m : Node}
    (hm : m ∈ walkAll ns) : InOrder m.tokens :=
  h.sublist (tokens_infix_of_mem_walkAll hm).sublist

/-- The items of a list lie inside it, parentheses apart. -/
theorem bounds_of_mem_walkAll_items {items : List Node} {start stop : Nat} {m : Node}
    (h : InOrder (tokens (.list items start stop))) (hm : m ∈ walkAll items) :
    start < m.start ∧ m.stop < stop := by
  rcases inOrder_list.mp h with ⟨-, -, hinside⟩
  have hsub := (tokens_infix_of_mem_walkAll hm).subset
  rcases m.exists_token_start with ⟨first, hfirst, hstart⟩
  rcases m.exists_token_stop with ⟨last, hlast, hstop⟩
  have hfirst' := hinside first (hsub hfirst)
  have hlast' := hinside last (hsub hlast)
  omega

/-- A node of a walk lies inside the walk's root. -/
theorem bounds_of_mem_walk {n m : Node} (h : InOrder n.tokens) (hm : m ∈ walk n) :
    n.start ≤ m.start ∧ m.stop ≤ n.stop := by
  cases n with
  | atom a =>
    rcases List.mem_singleton.mp hm with rfl
    exact ⟨Nat.le_refl _, Nat.le_refl _⟩
  | list items start stop =>
    rcases List.mem_cons.mp hm with rfl | hm
    · exact ⟨Nat.le_refl _, Nat.le_refl _⟩
    · have := bounds_of_mem_walkAll_items h hm
      simp only [start_list, stop_list]
      omega

/-- Of two nodes the first one stands before the second, or the second lies in the first. -/
def BeforeOrAround (n m : Node) : Prop :=
  n.stop ≤ m.start ∨ (m ∈ walkAll n.items ∧ n.start < m.start ∧ m.stop < n.stop)

/-- Nodes of neighbours stand in the order of the neighbours. -/
theorem stop_le_start_of_mem_walk {n m m' : Node} {ns : List Node}
    (h : InOrder (tokensOf (n :: ns))) (hm : m ∈ walk n) (hm' : m' ∈ walkAll ns) :
    m.stop ≤ m'.start := by
  rcases inOrder_append.mp h with ⟨-, -, hacross⟩
  rcases m.exists_token_stop with ⟨last, hlast, hstop⟩
  rcases m'.exists_token_start with ⟨first, hfirst, hstart⟩
  rw [← hstop, ← hstart]
  exact hacross last ((tokens_infix_of_mem_walk hm).subset hlast) first
    ((tokens_infix_of_mem_walkAll hm').subset hfirst)

mutual

/-- A walk goes from left to right, and a node comes before those in it. -/
theorem pairwise_walk {n : Node} (h : InOrder n.tokens) : (walk n).Pairwise BeforeOrAround := by
  cases n with
  | atom a => exact List.pairwise_singleton _ _
  | list items start stop =>
    refine List.pairwise_cons.mpr ⟨?_, pairwise_walkAll (inOrder_list.mp h).1⟩
    intro m hm
    exact Or.inr ⟨hm, bounds_of_mem_walkAll_items h hm⟩

theorem pairwise_walkAll {ns : List Node} (h : InOrder (tokensOf ns)) :
    (walkAll ns).Pairwise BeforeOrAround := by
  cases ns with
  | nil => exact List.Pairwise.nil
  | cons n ns =>
    rcases inOrder_append.mp h with ⟨hfirst, hrest, -⟩
    refine List.pairwise_append.mpr ⟨pairwise_walk hfirst, pairwise_walkAll hrest, ?_⟩
    intro m hm m' hm'
    exact Or.inl (stop_le_start_of_mem_walk h hm hm')

end

end Node

end WasmPackage.SExpr
