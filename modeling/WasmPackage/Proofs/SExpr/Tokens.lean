import WasmPackage.Proofs.SExpr.Pieces

/-!
# Tokens and trees

A text's lexemes without its gaps are its tokens, and a forest written out is tokens as well.  The
main statement is `read_eq_ok_iff`: a text reads as a forest exactly when its tokens are those of
the forest.
-/

namespace WasmPackage.SExpr

open Text

/-- A parenthesis or an atom.  A closing parenthesis is named by the offset behind it. -/
inductive Token
  | opening (start : Nat)
  | closing (stop : Nat)
  | atom (a : Atom)
deriving DecidableEq, Repr

namespace Token

/-- Where a token begins. -/
def start : Token → Nat
  | opening start => start
  | closing stop => stop - 1
  | atom a => a.start

/-- The offset behind a token. -/
def stop : Token → Nat
  | opening start => start + 1
  | closing stop => stop
  | atom a => a.stop

end Token

/-- The token that a piece is, unless it is a gap. -/
def Piece.token? (p : Piece) : Option Token :=
  match p.kind with
  | .gap => none
  | .openParen => some (.opening p.start)
  | .closeParen => some (.closing (p.start + 1))
  | .atom => some (.atom ⟨String.ofList p.text, p.start⟩)

namespace Node

mutual

/-- The tokens of a node, in order. -/
def tokens : Node → List Token
  | atom a => [.atom a]
  | list items start stop => .opening start :: (tokensOf items ++ [.closing stop])

/-- The tokens of a sequence of nodes, in order. -/
def tokensOf : List Node → List Token
  | [] => []
  | n :: ns => tokens n ++ tokensOf ns

end

theorem tokensOf_append (ns ms : List Node) : tokensOf (ns ++ ms) = tokensOf ns ++ tokensOf ms := by
  induction ns with
  | nil => rfl
  | cons n ns ih => simp [tokensOf, ih]

end Node

/-! ## From tokens to trees -/

/-- The forest that tokens build on top of lists that are still open and of what is read. -/
def build (stack : List OpenList) (top : List Node) : List Token → Option (List Node)
  | [] => if stack.isEmpty then some top.reverse else none
  | .opening start :: ks => build (⟨start, []⟩ :: stack) top ks
  | .closing stop :: ks =>
    match stack with
    | [] => none
    | o :: os =>
      let opened := attach (.list o.items.reverse o.start stop) os top
      build opened.1 opened.2 ks
  | .atom a :: ks =>
    let opened := attach (.atom a) stack top
    build opened.1 opened.2 ks

/-- The tokens of what is read, and of the lists that are still open. -/
def pending : List OpenList → List Node → List Token
  | [], top => Node.tokensOf top.reverse
  | o :: os, top => pending os top ++ .opening o.start :: Node.tokensOf o.items.reverse

theorem pending_attach (n : Node) (stack : List OpenList) (top : List Node) :
    pending (attach n stack top).1 (attach n stack top).2 = pending stack top ++ n.tokens := by
  cases stack with
  | nil => simp [attach, pending, Node.tokensOf_append, Node.tokensOf]
  | cons o os => simp [attach, pending, Node.tokensOf_append, Node.tokensOf]

/-- A forest that tokens build is written with those tokens. -/
theorem tokensOf_of_build {stack : List OpenList} {top ns : List Node} {ks : List Token}
    (h : build stack top ks = some ns) : Node.tokensOf ns = pending stack top ++ ks := by
  induction ks generalizing stack top with
  | nil =>
    cases stack with
    | nil =>
      cases h
      simp [pending]
    | cons o os => cases h
  | cons k ks ih =>
    cases k with
    | opening start =>
      rw [ih h]
      simp [pending, Node.tokensOf]
    | closing stop =>
      cases stack with
      | nil => cases h
      | cons o os =>
        rw [ih h, pending_attach]
        simp [pending, Node.tokens]
    | atom a =>
      rw [ih h, pending_attach]
      simp [Node.tokens]

/-- Attaches finished nodes one after the other. -/
def attachAll (ns : List Node) (state : List OpenList × List Node) : List OpenList × List Node :=
  ns.foldl (fun s n => attach n s.1 s.2) state

theorem attachAll_open (ns : List Node) (o : OpenList) (os : List OpenList) (top : List Node) :
    attachAll ns (o :: os, top) = ({ o with items := ns.reverse ++ o.items } :: os, top) := by
  induction ns generalizing o with
  | nil => rfl
  | cons n ns ih =>
    have hstep := ih { o with items := n :: o.items }
    simpa [attachAll, attach] using hstep

theorem attachAll_nil (ns top : List Node) : attachAll ns ([], top) = ([], ns.reverse ++ top) := by
  induction ns generalizing top with
  | nil => rfl
  | cons n ns ih =>
    have hstep := ih (n :: top)
    simpa [attachAll, attach] using hstep

mutual

/-- The tokens of a node build it. -/
theorem build_tokens (n : Node) (stack : List OpenList) (top : List Node) (ks : List Token) :
    build stack top (n.tokens ++ ks) = build (attach n stack top).1 (attach n stack top).2 ks := by
  cases n with
  | atom a => rfl
  | list items start stop =>
    have hitems := build_tokensOf items (⟨start, []⟩ :: stack) top (.closing stop :: ks)
    rw [attachAll_open] at hitems
    simpa [Node.tokens, build] using hitems

/-- The tokens of a sequence of nodes build them all. -/
theorem build_tokensOf (ns : List Node) (stack : List OpenList) (top : List Node)
    (ks : List Token) :
    build stack top (Node.tokensOf ns ++ ks) =
      build (attachAll ns (stack, top)).1 (attachAll ns (stack, top)).2 ks := by
  cases ns with
  | nil => rfl
  | cons n ns =>
    have hfirst := build_tokens n stack top (Node.tokensOf ns ++ ks)
    have hrest := build_tokensOf ns (attach n stack top).1 (attach n stack top).2 ks
    rw [Node.tokensOf, List.append_assoc, hfirst, hrest]
    rfl

end

/-- Tokens build a forest exactly when they are the forest's. -/
theorem build_eq_some_iff {ks : List Token} {ns : List Node} :
    build [] [] ks = some ns ↔ ks = Node.tokensOf ns := by
  constructor
  · intro h
    simpa [pending, Node.tokensOf] using (tokensOf_of_build h).symm
  · rintro rfl
    have hbuild := build_tokensOf ns [] [] []
    rw [List.append_nil, attachAll_nil] at hbuild
    simpa [build] using hbuild

/-! ## Reading -/

/-- The place does not matter at the end of a text. -/
theorem readFrom_nil (pos pos' : Nat) (stack : List OpenList) (top : List Node) :
    readFrom pos stack top [] = readFrom pos' stack top [] := by
  cases stack with
  | nil => simp [readFrom]
  | cons o os => simp [readFrom]

/-- Reading goes on behind the lexeme. -/
theorem readFrom_drop {n pos : Nat} {c : Char} {r : Text} (stack : List OpenList)
    (top : List Node) :
    readFrom (pos + 1 + n) stack top (r.drop n) =
      readFrom (pos + (c :: r.take n).length) stack top (r.drop n) := by
  by_cases h : n ≤ r.length
  · have hpos : pos + (c :: r.take n).length = pos + 1 + n := by
      rw [List.length_cons, List.length_take_of_le h]
      omega
    rw [hpos]
  · rw [List.drop_of_length_le (by omega)]
    exact readFrom_nil _ _ _ _

/-- What holds for the pieces of a text holds for its first lexeme and the pieces behind it. -/
theorem exists_splits_cons_iff {pos n : Nat} {c : Char} {r : Text} {kind : Lexeme}
    (hlexes : Lexes c r kind n) (P : List Piece → Prop) :
    (∃ ps, Splits pos (c :: r) ps ∧ P ps) ↔
      ∃ ps, Splits (pos + (c :: r.take n).length) (r.drop n) ps ∧
        P (⟨kind, pos, c :: r.take n⟩ :: ps) := by
  constructor
  · rintro ⟨_, hsplits, hP⟩
    cases hsplits with
    | cons hlexes' hrest =>
    have hsame := (lexeme_of_lexes hlexes).symm.trans (lexeme_of_lexes hlexes')
    cases hsame
    exact ⟨_, hrest, hP⟩
  · rintro ⟨ps, hrest, hP⟩
    exact ⟨_, .cons hlexes hrest, hP⟩

/-- A text can be read when it falls into lexemes whose tokens build a forest. -/
theorem readFrom_eq_ok_iff {pos : Nat} {stack : List OpenList} {top ns : List Node} {t : Text} :
    readFrom pos stack top t = .ok ns ↔
      ∃ ps, Splits pos t ps ∧ build stack top (ps.filterMap Piece.token?) = some ns := by
  -- on the length of the text: reading goes on behind the first lexeme
  induction hlength : t.length using Nat.strong_induction_on generalizing t pos stack top with
  | h length ih =>
  cases t with
  | nil =>
    have hsplits : ∀ ps, Splits pos [] ps ↔ ps = [] := by
      intro ps
      constructor
      · rintro ⟨⟩
        rfl
      · rintro rfl
        exact .nil
    cases stack with
    | nil => simp [readFrom, hsplits, build]
    | cons o os => simp [readFrom, hsplits, build]
  | cons c r =>
    rw [readFrom]
    cases hlexeme : lexeme c r with
    | error fault =>
      simp only [reduceCtorEq, false_iff, not_exists, not_and]
      rintro ps (_ | ⟨hlexes, -⟩)
      rw [lexeme_of_lexes hlexes] at hlexeme
      cases hlexeme
    | ok found =>
      rcases found with ⟨kind, n⟩
      have hlexes : Lexes c r kind n := lexeme_eq_ok_iff.mp hlexeme
      have hshorter : (r.drop n).length < length := by
        simp only [List.length_drop, List.length_cons] at hlength ⊢
        omega
      have hrest : ∀ stack top,
          readFrom (pos + (c :: r.take n).length) stack top (r.drop n) = .ok ns ↔
            ∃ ps, Splits (pos + (c :: r.take n).length) (r.drop n) ps ∧
              build stack top (ps.filterMap Piece.token?) = some ns :=
        fun stack top => ih _ hshorter rfl
      rw [exists_splits_cons_iff hlexes
        (fun ps => build stack top (ps.filterMap Piece.token?) = some ns)]
      -- the reader and the builder do the same with each kind of lexeme
      cases kind with
      | gap =>
        simp only [readFrom_drop (c := c), hrest]
        rfl
      | openParen =>
        simp only [readFrom_drop (c := c), hrest]
        rfl
      | closeParen =>
        cases stack with
        | nil => simp [Piece.token?, build]
        | cons o os =>
          simp only [readFrom_drop (c := c), hrest]
          rfl
      | atom =>
        simp only [readFrom_drop (c := c), hrest]
        rfl

/-- A text reads as a forest exactly when its tokens are those of the forest. -/
theorem read_eq_ok_iff {t : Text} {ns : List Node} :
    read t = .ok ns ↔
      ∃ ps, Splits 0 t ps ∧ ps.filterMap Piece.token? = Node.tokensOf ns := by
  have hread : read t = .ok ns ↔ readFrom 0 [] [] t = .ok ns := by
    unfold read
    cases readFrom 0 [] [] t with
    | error fault => simp [Except.mapError]
    | ok ms => simp [Except.mapError]
  simp only [hread, readFrom_eq_ok_iff, build_eq_some_iff]

end WasmPackage.SExpr
