import WasmPackage.Proofs.SExpr.Trees
import WasmPackage.Proofs.Text.Revision

/-!
# Trees with nodes dropped

A tree without some of its nodes, and a tree with its offsets changed.  The tokens of what is left
are the tokens outside the nodes that were dropped.
-/

namespace WasmPackage.SExpr

/-- The token with its offset changed. -/
def Token.relocate (place : Nat → Nat) : Token → Token
  | .opening start => .opening (place start)
  | .closing stop => .closing (place stop)
  | .atom a => .atom { a with start := place a.start }

namespace Node

/-- Where a node begins and ends. -/
def span (n : Node) : Nat × Nat :=
  (n.start, n.stop)

mutual

/-- The node without those below it that are to be dropped. -/
def prune (drop : Node → Bool) : Node → Node
  | atom a => atom a
  | list items start stop => list (pruneAll drop items) start stop

/-- The nodes that are not to be dropped, pruned. -/
def pruneAll (drop : Node → Bool) : List Node → List Node
  | [] => []
  | n :: ns => if drop n then pruneAll drop ns else prune drop n :: pruneAll drop ns

end

mutual

/-- The node with every offset changed. -/
def relocate (place : Nat → Nat) : Node → Node
  | atom a => atom { a with start := place a.start }
  | list items start stop => list (relocateAll place items) (place start) (place stop)

/-- The nodes with every offset changed. -/
def relocateAll (place : Nat → Nat) : List Node → List Node
  | [] => []
  | n :: ns => relocate place n :: relocateAll place ns

end

/-- The node without its offsets: what is left are the words and how they are nested. -/
def shape (n : Node) : Node :=
  relocate (fun _ => 0) n

variable {drop : Node → Bool} {place : Nat → Nat} {n : Node} {ns : List Node} {k : Token}

/-! ## Offsets changed -/

mutual

theorem tokens_relocate (n : Node) :
    (relocate place n).tokens = n.tokens.map (Token.relocate place) := by
  cases n with
  | atom a => rfl
  | list items start stop =>
    have hitems := tokensOf_relocateAll items
    simp [relocate, tokens, Token.relocate, hitems]

theorem tokensOf_relocateAll (ns : List Node) :
    tokensOf (relocateAll place ns) = (tokensOf ns).map (Token.relocate place) := by
  cases ns with
  | nil => rfl
  | cons n ns => simp [relocateAll, tokensOf, tokens_relocate n, tokensOf_relocateAll ns]

end

mutual

theorem relocate_relocate (place' : Nat → Nat) (n : Node) :
    relocate place' (relocate place n) = relocate (fun pos => place' (place pos)) n := by
  cases n with
  | atom a => rfl
  | list items start stop => simp [relocate, relocateAll_relocateAll place' items]

theorem relocateAll_relocateAll (place' : Nat → Nat) (ns : List Node) :
    relocateAll place' (relocateAll place ns) =
      relocateAll (fun pos => place' (place pos)) ns := by
  cases ns with
  | nil => rfl
  | cons n ns =>
    simp [relocateAll, relocate_relocate place' n, relocateAll_relocateAll place' ns]

end

/-- Where a node stands does not show in its shape. -/
@[simp] theorem shape_relocate (n : Node) : (relocate place n).shape = n.shape :=
  relocate_relocate _ n

theorem relocateAll_eq_map (ns : List Node) : relocateAll place ns = ns.map (relocate place) := by
  induction ns with
  | nil => rfl
  | cons n ns ih => rw [relocateAll, ih, List.map_cons]

/-! ## Nodes dropped -/

theorem pruneAll_eq_map (ns : List Node) :
    pruneAll drop ns = (ns.filter (fun n => !drop n)).map (prune drop) := by
  induction ns with
  | nil => rfl
  | cons n ns ih => cases h : drop n <;> simp [pruneAll, h, ih]

mutual

/-- Below a pruned node stand nodes that were not to be dropped, pruned. -/
theorem mem_walk_prune {n m : Node} (hm : m ∈ walk (prune drop n)) :
    m = prune drop n ∨ ∃ l ∈ walkAll n.items, drop l = false ∧ m = prune drop l := by
  cases n with
  | atom a => exact Or.inl (List.mem_singleton.mp hm)
  | list items start stop =>
    rcases List.mem_cons.mp hm with rfl | hm
    · exact Or.inl rfl
    · exact Or.inr (mem_walkAll_pruneAll hm)

theorem mem_walkAll_pruneAll {ns : List Node} {m : Node} (hm : m ∈ walkAll (pruneAll drop ns)) :
    ∃ l ∈ walkAll ns, drop l = false ∧ m = prune drop l := by
  cases ns with
  | nil => cases hm
  | cons n ns =>
    -- what is dropped at the front is gone with all below it
    rw [pruneAll] at hm
    split at hm
    case isTrue =>
      rcases mem_walkAll_pruneAll hm with ⟨l, hl, hkept, heq⟩
      exact ⟨l, List.mem_append_right _ hl, hkept, heq⟩
    case isFalse hdrop =>
      rcases List.mem_append.mp hm with hm | hm
      · rcases mem_walk_prune hm with rfl | ⟨l, hl, hkept, heq⟩
        · exact ⟨n, List.mem_append_left _ n.self_mem_walk, by simpa using hdrop, rfl⟩
        · refine ⟨l, List.mem_append_left _ ?_, hkept, heq⟩
          rw [walk_eq_cons]
          exact List.mem_cons_of_mem _ hl
      · rcases mem_walkAll_pruneAll hm with ⟨l, hl, hkept, heq⟩
        exact ⟨l, List.mem_append_right _ hl, hkept, heq⟩

end

/-- A place in front of every node of a list lies in none of them. -/
theorem inSpans_eq_false {ms : List Node} {pos : Nat}
    (h : ∀ m ∈ ms, pos < m.start ∨ m.stop ≤ pos) : inSpans (ms.map span) pos = false := by
  rw [Bool.eq_false_iff, Ne, inSpans_eq_true_iff]
  rintro ⟨s, hs, hfirst, hlast⟩
  rcases List.mem_map.mp hs with ⟨m, hm, rfl⟩
  simp only [span] at hfirst hlast
  have := h m hm
  omega

/-- The tokens of a node stand before those that are below its neighbours to the right. -/
theorem start_lt_of_mem_walkAll (h : InOrder (tokensOf (n :: ns))) (hk : k ∈ n.tokens) {m : Node}
    (hm : m ∈ walkAll ns) : k.start < m.start := by
  rcases inOrder_append.mp h with ⟨hfirst, -, hacross⟩
  rcases m.exists_token_start with ⟨l, hl, hstart⟩
  have hbefore := hacross k hk l ((tokens_infix_of_mem_walkAll hm).subset hl)
  have hspan := hfirst.nonempty k hk
  omega

/-- The tokens of a node's neighbours to the right stand behind all that is below the node. -/
theorem stop_le_of_mem_walk (h : InOrder (tokensOf (n :: ns))) (hk : k ∈ tokensOf ns) {m : Node}
    (hm : m ∈ walk n) : m.stop ≤ k.start := by
  rcases inOrder_append.mp h with ⟨-, -, hacross⟩
  rcases m.exists_token_stop with ⟨l, hl, hstop⟩
  have hbefore := hacross l ((tokens_infix_of_mem_walk hm).subset hl) k hk
  omega

theorem inSpans_append (ms ms' : List Node) (pos : Nat) :
    inSpans ((ms ++ ms').map span) pos =
      (inSpans (ms.map span) pos || inSpans (ms'.map span) pos) := by
  simp [inSpans]

/-- The tokens outside some nodes. -/
def tokensOutside (ms : List Node) (ks : List Token) : List Token :=
  ks.filter (fun k => !inSpans (ms.map span) k.start)

/-- Only which nodes are meant matters, not their order. -/
theorem tokensOutside_congr {ms ms' : List Node} (h : ∀ m, m ∈ ms ↔ m ∈ ms') (ks : List Token) :
    tokensOutside ms ks = tokensOutside ms' ks := by
  apply List.filter_congr
  intro k _
  congr 1
  rw [Bool.eq_iff_iff, inSpans_eq_true_iff, inSpans_eq_true_iff]
  simp only [List.mem_map, h]

/-- Tokens outside some nodes and outside some others. -/
theorem tokensOutside_tokensOutside (ms ms' : List Node) (ks : List Token) :
    tokensOutside ms' (tokensOutside ms ks) = tokensOutside (ms ++ ms') ks := by
  rw [tokensOutside, tokensOutside, List.filter_filter]
  apply List.filter_congr
  intro k _
  rw [inSpans_append, Bool.not_or, Bool.and_comm]

/-- No token of a node is outside it. -/
theorem tokensOutside_cons_self (h : InOrder n.tokens) (ms : List Node) :
    tokensOutside (n :: ms) n.tokens = [] := by
  rw [tokensOutside, List.filter_eq_nil_iff]
  intro k hk
  have hbounds := bounds_of_mem_tokens h hk
  have hspan := h.nonempty k hk
  have hin : inSpans ((n :: ms).map span) k.start = true := by
    rw [inSpans_eq_true_iff]
    refine ⟨n.span, List.mem_cons_self, hbounds.1, ?_⟩
    simp only [span]
    omega
  rw [hin]
  decide

/-- Nodes below one of two neighbours hold no tokens of the other. -/
theorem tokensOutside_append (h : InOrder (tokensOf (n :: ns))) {ms ms' : List Node}
    (hms : ∀ m ∈ ms, m ∈ walk n) (hms' : ∀ m ∈ ms', m ∈ walkAll ns) :
    tokensOutside (ms ++ ms') (tokensOf (n :: ns)) =
      tokensOutside ms n.tokens ++ tokensOutside ms' (tokensOf ns) := by
  rw [tokensOf, tokensOutside, List.filter_append]
  congr 1
  · -- no span of the right part holds a token of the left one
    apply List.filter_congr
    intro k hk
    have hright : inSpans (ms'.map span) k.start = false :=
      inSpans_eq_false (fun m hm => Or.inl (start_lt_of_mem_walkAll h hk (hms' m hm)))
    rw [inSpans_append, hright, Bool.or_false]
  · apply List.filter_congr
    intro k hk
    have hleft : inSpans (ms.map span) k.start = false :=
      inSpans_eq_false (fun m hm => Or.inr (stop_le_of_mem_walk h hk (hms m hm)))
    rw [inSpans_append, hleft, Bool.false_or]

/-- Nodes between the parentheses of a list hold neither of them. -/
theorem tokensOutside_list {items : List Node} {start stop : Nat}
    (h : InOrder (tokens (list items start stop))) {ms : List Node}
    (hms : ∀ m ∈ ms, m ∈ walkAll items) :
    tokensOutside ms (tokens (list items start stop)) =
      .opening start :: (tokensOutside ms (tokensOf items) ++ [.closing stop]) := by
  have hinside : ∀ m ∈ ms, start < m.start ∧ m.stop < stop :=
    fun m hm => bounds_of_mem_walkAll_items h (hms m hm)
  have hopening : inSpans (ms.map span) start = false :=
    inSpans_eq_false (fun m hm => Or.inl (hinside m hm).1)
  have hclosing : inSpans (ms.map span) (stop - 1) = false := by
    apply inSpans_eq_false
    intro m hm
    have := (hinside m hm).2
    omega
  simp [tokensOutside, tokens, Token.start, hopening, hclosing]

mutual

/-- What is left of a node are the tokens outside the nodes that are dropped. -/
theorem tokens_prune (n : Node) (h : InOrder n.tokens) :
    (prune drop n).tokens = tokensOutside ((walkAll n.items).filter drop) n.tokens := by
  cases n with
  | atom a => rfl
  | list items start stop =>
    have hitems := tokensOf_pruneAll items (inOrder_list.mp h).1
    rw [prune, tokens, hitems, items_list,
      tokensOutside_list h (fun m hm => List.mem_of_mem_filter hm)]

/-- What is left of a forest are the tokens outside the nodes that are dropped. -/
theorem tokensOf_pruneAll (ns : List Node) (h : InOrder (tokensOf ns)) :
    tokensOf (pruneAll drop ns) = tokensOutside ((walkAll ns).filter drop) (tokensOf ns) := by
  cases ns with
  | nil => rfl
  | cons n ns =>
    rcases inOrder_append.mp h with ⟨hfirst, hrest, -⟩
    have hn := tokens_prune n hfirst
    have hns := tokensOf_pruneAll ns hrest
    rw [walkAll, List.filter_append, tokensOutside_append h
      (fun m hm => List.mem_of_mem_filter hm) (fun m hm => List.mem_of_mem_filter hm), ← hns,
      walk_eq_cons]
    -- a node that is dropped takes its tokens with it; any other is pruned by itself
    by_cases hdrop : drop n
    · rw [List.filter_cons_of_pos hdrop, tokensOutside_cons_self hfirst, pruneAll, if_pos hdrop]
      rfl
    · rw [List.filter_cons_of_neg hdrop, ← hn, pruneAll, if_neg hdrop, tokensOf]

end

/-- What is left of a forest when whole trees are dropped are the tokens outside those. -/
theorem tokensOf_filter (ns : List Node) (h : InOrder (tokensOf ns)) :
    tokensOf (ns.filter (fun n => !drop n)) = tokensOutside (ns.filter drop) (tokensOf ns) := by
  induction ns with
  | nil => rfl
  | cons n ns ih =>
    rcases inOrder_append.mp h with ⟨hfirst, hrest, -⟩
    have hroots : ∀ m ∈ ns.filter drop, m ∈ walkAll ns :=
      fun m hm => mem_walkAll_of_mem (List.mem_of_mem_filter hm)
    by_cases hdrop : drop n
    · rw [List.filter_cons_of_neg (by simp [hdrop]), List.filter_cons_of_pos hdrop, ih hrest]
      have hroot : ∀ m ∈ [n], m ∈ walk n := by simpa using n.self_mem_walk
      have hboth := tokensOutside_append h hroot hroots
      rw [← List.singleton_append, hboth, tokensOutside_cons_self hfirst, List.nil_append]
    · rw [List.filter_cons_of_pos (by simp [hdrop]), List.filter_cons_of_neg hdrop, tokensOf,
        ih hrest]
      have hnone : ∀ m ∈ ([] : List Node), m ∈ walk n := by simp
      have hboth := tokensOutside_append h hnone hroots
      rw [List.nil_append] at hboth
      rw [hboth]
      simp [tokensOutside, inSpans]

end Node

end WasmPackage.SExpr
