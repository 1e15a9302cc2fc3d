import WasmPackage.Proofs.SExpr.Pruning
import WasmPackage.Proofs.SExpr.Spans

/-!
# Reading what was printed

A forest is printed as its tokens with gaps between them.  Whatever the gaps are, a printing reads
as the forest again, up to offsets: that is `read_of_isPrinting`.  The gap in front of a token
belongs to it, and what a gap has to keep apart are the tokens on its two sides.
-/

namespace WasmPackage.SExpr

/-! ## Printings -/

/-- The body of a quoted string: each quotation mark and each backslash stands behind a
backslash. -/
inductive IsBody : Text → Prop
  | nil : IsBody []
  | plain {c : Char} {v : Text} : c ≠ '"' → c ≠ '\\' → IsBody v → IsBody (c :: v)
  | escaped {c : Char} {v : Text} : IsBody v → IsBody ('\\' :: c :: v)

/-- What an atom may be: a word, a string, or a quoted name. -/
inductive IsAtomText : Text → Prop
  | word {w : Text} : w ≠ [] → (∀ c ∈ w, isDelimiter c = false) → IsAtomText w
  | string {u : Text} : IsBody u → IsAtomText ('"' :: (u ++ ['"']))
  | quotedName {u : Text} : IsBody u → IsAtomText ('$' :: '"' :: (u ++ ['"']))

/-- Any number of gaps one behind the other, when `after` stands behind them. -/
inductive IsGaps : Text → Text → Prop
  | nil {after : Text} : IsGaps [] after
  | cons {u v after : Text} : IsGap u (v ++ after) → IsGaps v after → IsGaps (u ++ v) after

namespace Token

/-- The characters of a token. -/
def text : Token → Text
  | opening _ => ['(']
  | closing _ => [')']
  | atom a => a.text.toList

/-- Is the token an atom? -/
def isAtom : Token → Bool
  | atom _ => true
  | _ => false

/-- Is the token an opening parenthesis? -/
def isOpening : Token → Bool
  | opening _ => true
  | _ => false

end Token

/-- Do these gaps keep the tokens before and behind them apart?  Two atoms need a gap, and a line
comment right behind an opening parenthesis would begin a block comment. -/
structure KeepsApart (before : Option Token) (w : Text) (behind : Option Token) : Prop where
  atoms : before.any Token.isAtom → behind.any Token.isAtom → w ≠ []
  opening : before.any Token.isOpening → w.head? ≠ some ';'

/-- A text is a printing of tokens, in which `before` stands in front of it. -/
inductive IsPrinting : Option Token → List Token → Text → Prop
  | last {before : Option Token} {w : Text} :
    IsGaps w [] → KeepsApart before w none → IsPrinting before [] w
  | token {before : Option Token} {k : Token} {ks : List Token} {w r : Text} :
    IsGaps w (k.text ++ r) → KeepsApart before w (some k) → IsPrinting (some k) ks r →
      IsPrinting before (k :: ks) (w ++ (k.text ++ r))

variable {pos : Nat} {place : Nat → Nat} {t w r after : Text} {ks : List Token}
  {before : Option Token} {k : Token} {ns ms : List Node}

/-! ## What stands at the front -/

/-- A gap begins with a separator, a semicolon or an opening parenthesis. -/
theorem head?_of_isGap (h : IsGap w after) :
    ∃ x, w.head? = some x ∧ isDelimiter x = true ∧ x ≠ '"' := by
  cases h with
  | @blank c _ hblank =>
    refine ⟨c, rfl, by simp [isDelimiter, hblank], ?_⟩
    rintro rfl
    cases hblank
  | lineComment => exact ⟨';', rfl, rfl, by decide⟩
  | lastComment => exact ⟨';', rfl, rfl, by decide⟩
  | blockComment => exact ⟨'(', rfl, rfl, by decide⟩

theorem head?_of_isGaps (h : IsGaps w after) (hw : w ≠ []) :
    ∃ x, w.head? = some x ∧ isDelimiter x = true ∧ x ≠ '"' := by
  cases h with
  | nil => exact (hw rfl).elim
  | cons hgap _ =>
    rcases head?_of_isGap hgap with ⟨x, hhead, hx⟩
    exact ⟨x, by simp [List.head?_append, hhead], hx⟩

/-- An atom does not begin with a semicolon. -/
theorem head?_of_isAtomText (h : IsAtomText w) : ∃ x, w.head? = some x ∧ x ≠ ';' := by
  cases h with
  | word hne hw =>
    rcases List.exists_cons_of_ne_nil hne with ⟨x, v, rfl⟩
    refine ⟨x, rfl, ?_⟩
    rintro rfl
    cases hw ';' List.mem_cons_self
  | string => exact ⟨'"', rfl, by decide⟩
  | quotedName => exact ⟨'$', rfl, by decide⟩

/-- Behind an atom stands a delimiter that does not begin a string, or nothing. -/
theorem head?_behind_atom {a : Atom} (h : IsPrinting (some (.atom a)) ks t) {x : Char}
    (hx : t.head? = some x) : isDelimiter x = true ∧ x ≠ '"' := by
  have hgaps : ∀ w after, IsGaps w after → w ≠ [] → (w ++ after).head? = some x →
      isDelimiter x = true ∧ x ≠ '"' := by
    intro w after hw hne hhead
    rcases head?_of_isGaps hw hne with ⟨y, hy, hdelimiter⟩
    rw [List.head?_append, hy] at hhead
    cases hhead
    exact hdelimiter
  cases h with
  | last hw hapart =>
    apply hgaps t [] hw
    · rintro rfl
      cases hx
    · rwa [List.append_nil]
  | @token _ k ks w r hw hapart hrest =>
    by_cases hne : w = []
    · subst hne
      cases k with
      | opening start =>
        cases hx
        exact ⟨rfl, by decide⟩
      | closing stop =>
        cases hx
        exact ⟨rfl, by decide⟩
      | atom b => exact (hapart.atoms rfl rfl rfl).elim
    · exact hgaps w _ hw hne hx

/-- No semicolon stands right behind an opening parenthesis. -/
theorem head?_behind_opening {start : Nat} (h : IsPrinting (some (.opening start)) ks t)
    (hatoms : ∀ a, .atom a ∈ ks → IsAtomText a.text.toList) : t.head? ≠ some ';' := by
  cases h with
  | last hw hapart => exact hapart.opening rfl
  | @token _ k ks w r hw hapart hrest =>
    cases w with
    | cons y v => exact hapart.opening rfl
    | nil =>
      cases k with
      | opening start => simp [Token.text]
      | closing stop => simp [Token.text]
      | atom a =>
        rcases head?_of_isAtomText (hatoms a List.mem_cons_self) with ⟨x, hhead, hx⟩
        simpa [Token.text, List.head?_append, hhead] using hx

/-! ## Printings fall into lexemes -/

/-- A string ends where its body does. -/
theorem stringLength?_of_isBody {u : Text} (h : IsBody u) (r : Text) :
    stringLength? (u ++ '"' :: r) = some (u.length + 1) := by
  induction h with
  | nil => simp [stringLength?]
  | @plain c v hquote hbackslash _ ih =>
    rw [List.cons_append, stringLength?, ih]
    · rfl
    · rintro d s rfl
      exact (hbackslash rfl).elim
    · rintro rfl
      exact (hbackslash rfl).elim
    · exact hquote
  | @escaped c v _ ih =>
    rw [List.cons_append, List.cons_append, stringLength?, ih]
    rfl

/-- An atom is a lexeme in front of a delimiter that does not begin a string. -/
theorem lexes_of_isAtomText (h : IsAtomText w)
    (hr : ∀ x, r.head? = some x → isDelimiter x = true ∧ x ≠ '"') :
    ∃ c v, w = c :: v ∧ Lexes c (v ++ r) .atom v.length := by
  cases h with
  | word hne hw =>
    rcases List.exists_cons_of_ne_nil hne with ⟨c, v, rfl⟩
    refine ⟨c, v, rfl, ?_⟩
    have hrun : (v ++ r).takeWhile (fun d => !isDelimiter d) = v := by
      rw [List.takeWhile_append_of_pos]
      · cases r with
        | nil => simp
        | cons x s => simp [(hr x rfl).1]
      · intro d hd
        simp [hw d (List.mem_cons_of_mem _ hd)]
    have hword := Lexes.word (c := c) (r := v ++ r) (hw c List.mem_cons_self) ?_
    · rwa [hrun] at hword
    · -- the quotation mark is neither in the word nor behind it
      rintro - hhead
      cases v with
      | nil => exact (hr '"' hhead).2 rfl
      | cons d v =>
        cases hhead
        cases hw '"' (by simp)
  | @string u hu =>
    refine ⟨'"', u ++ ['"'], rfl, ?_⟩
    have hstring := Lexes.string (stringLength?_of_isBody hu r)
    simpa using hstring
  | @quotedName u hu =>
    refine ⟨'$', '"' :: (u ++ ['"']), rfl, ?_⟩
    have hname := Lexes.quotedName (stringLength?_of_isBody hu r)
    simpa using hname

/-- Gaps in front of a text that falls into lexemes add no token to it. -/
theorem exists_splits_of_isGaps {ps : List Piece} (h : IsGaps w after) (pos : Nat)
    (hafter : Splits (pos + w.length) after ps) :
    ∃ qs, Splits pos (w ++ after) qs ∧ qs.filterMap Piece.token? = ps.filterMap Piece.token? := by
  induction h generalizing pos with
  | nil => exact ⟨ps, hafter, rfl⟩
  | @cons u v after hgap _ ih =>
    rcases lexes_of_isGap hgap with ⟨c, x, n, rfl, hlexes, hn⟩
    rw [List.length_append, ← Nat.add_assoc] at hafter
    rcases ih (pos + (c :: x).length) hafter with ⟨qs, hqs, htokens⟩
    refine ⟨⟨.gap, pos, c :: x⟩ :: qs, ?_, ?_⟩
    · rw [List.append_assoc, List.cons_append]
      exact Splits.cons_append hlexes hn hqs
    · rw [← htokens]
      rfl

/-- A token in front of a text is a lexeme there, if it does not run into it. -/
theorem exists_piece_of_token (hatom : ∀ a, k = .atom a → IsAtomText a.text.toList)
    (hopening : k.isOpening → r.head? ≠ some ';')
    (hbehind : k.isAtom → ∀ x, r.head? = some x → isDelimiter x = true ∧ x ≠ '"') (pos : Nat) :
    ∃ kind c v, k.text = c :: v ∧ Lexes c (v ++ r) kind v.length ∧
      ∃ l, Piece.token? ⟨kind, pos, c :: v⟩ = some l ∧
        l.relocate (fun _ => 0) = k.relocate (fun _ => 0) := by
  cases k with
  | opening start =>
    exact ⟨.openParen, '(', [], rfl, .opening (hopening rfl), _, rfl, rfl⟩
  | closing stop =>
    exact ⟨.closeParen, ')', [], rfl, .closing, _, rfl, rfl⟩
  | atom a =>
    rcases lexes_of_isAtomText (hatom a rfl) (hbehind rfl) with ⟨c, v, htext, hlexes⟩
    refine ⟨.atom, c, v, htext, hlexes, _, rfl, ?_⟩
    have hsame : String.ofList (c :: v) = a.text := by rw [← htext, String.ofList_toList]
    simp [Token.relocate, hsame]

/-- A printing falls into lexemes, whose tokens are those that were printed, at other offsets. -/
theorem exists_splits_of_isPrinting (h : IsPrinting before ks t)
    (hatoms : ∀ a, .atom a ∈ ks → IsAtomText a.text.toList) (pos : Nat) :
    ∃ ps, Splits pos t ps ∧ (ps.filterMap Piece.token?).map (Token.relocate fun _ => 0) =
      ks.map (Token.relocate fun _ => 0) := by
  induction h generalizing pos with
  | last hw _ =>
    rcases exists_splits_of_isGaps hw pos .nil with ⟨qs, hqs, htokens⟩
    rw [List.append_nil] at hqs
    exact ⟨qs, hqs, by rw [htokens]; rfl⟩
  | @token before k ks w r hw _ hrest ih =>
    have hatoms' : ∀ a, .atom a ∈ ks → IsAtomText a.text.toList :=
      fun a ha => hatoms a (List.mem_cons_of_mem _ ha)
    have hopening : k.isOpening → r.head? ≠ some ';' := by
      intro hk
      cases k with
      | opening start => exact head?_behind_opening hrest hatoms'
      | closing stop => cases hk
      | atom a => cases hk
    have hbehind : k.isAtom → ∀ x, r.head? = some x → isDelimiter x = true ∧ x ≠ '"' := by
      intro hk x hx
      cases k with
      | opening start => cases hk
      | closing stop => cases hk
      | atom a => exact head?_behind_atom hrest hx
    rcases exists_piece_of_token (fun a ha => hatoms a (ha ▸ List.mem_cons_self)) hopening hbehind
      (pos + w.length) with ⟨kind, c, v, htext, hlexes, l, hl, hface⟩
    rcases ih hatoms' (pos + w.length + (c :: v).length) with ⟨ps, hps, htokens⟩
    have hsplits := Splits.cons_append hlexes (Or.inl rfl) hps
    rw [htext] at hw ⊢
    rcases exists_splits_of_isGaps hw _ hsplits with ⟨qs, hqs, htokens'⟩
    refine ⟨qs, hqs, ?_⟩
    rw [htokens', List.filterMap_cons_some hl, List.map_cons, List.map_cons, hface, htokens]

/-! ## Building with offsets changed -/

/-- An open list with every offset changed. -/
def OpenList.relocate (place : Nat → Nat) (o : OpenList) : OpenList :=
  ⟨place o.start, o.items.map (Node.relocate place)⟩

theorem attach_relocate (place : Nat → Nat) (n : Node) (stack : List OpenList) (top : List Node) :
    attach (n.relocate place) (stack.map (OpenList.relocate place))
        (top.map (Node.relocate place)) =
      ((attach n stack top).1.map (OpenList.relocate place),
        (attach n stack top).2.map (Node.relocate place)) := by
  cases stack with
  | nil => rfl
  | cons o os => rfl

/-- Which forest tokens build does not depend on their offsets. -/
theorem build_relocate (place : Nat → Nat) (stack : List OpenList) (top : List Node)
    (ks : List Token) :
    build (stack.map (OpenList.relocate place)) (top.map (Node.relocate place))
        (ks.map (Token.relocate place)) =
      (build stack top ks).map (List.map (Node.relocate place)) := by
  induction ks generalizing stack top with
  | nil =>
    cases stack with
    | nil => simp [build]
    | cons o os => simp [build]
  | cons k ks ih =>
    cases k with
    | opening start => exact ih (⟨start, []⟩ :: stack) top
    | closing stop =>
      cases stack with
      | nil => rfl
      | cons o os =>
        have hlist : Node.relocate place (.list o.items.reverse o.start stop) =
            .list (o.items.map (Node.relocate place)).reverse (place o.start) (place stop) := by
          rw [Node.relocate, Node.relocateAll_eq_map, List.map_reverse]
        have hattach := attach_relocate place (.list o.items.reverse o.start stop) os top
        rw [hlist] at hattach
        have hstep := ih (attach (.list o.items.reverse o.start stop) os top).1
          (attach (.list o.items.reverse o.start stop) os top).2
        simp only [List.map_cons, Token.relocate, build, OpenList.relocate, hattach]
        exact hstep
    | atom a =>
      have hattach := attach_relocate place (.atom a) stack top
      have hstep := ih (attach (.atom a) stack top).1 (attach (.atom a) stack top).2
      simp only [List.map_cons, Token.relocate, build]
      rw [Node.relocate] at hattach
      rw [hattach]
      exact hstep

/-- Tokens that differ from those of a forest by their offsets are those of a forest that differs
from it by its offsets. -/
theorem exists_tokensOf_of_relocate (h : ks.map (Token.relocate place) =
    (Node.tokensOf ns).map (Token.relocate place)) :
    ∃ ms, ks = Node.tokensOf ms ∧ ms.map (Node.relocate place) = ns.map (Node.relocate place) := by
  have hks := build_relocate place [] [] ks
  have hns := build_relocate place [] [] (Node.tokensOf ns)
  rw [h, hns, build_eq_some_iff.mpr rfl] at hks
  rcases Option.map_eq_some_iff.mp hks.symm with ⟨ms, hms, hsame⟩
  exact ⟨ms, build_eq_some_iff.mp hms, hsame⟩

/-! ## Reading -/

theorem mem_walkAll_of_mem_tokensOf {a : Atom} (h : .atom a ∈ Node.tokensOf ns) :
    .atom a ∈ Node.walkAll ns := by
  rcases (Node.mem_tokensOf_iff_exists ns).mp h with ⟨m, hm, hown⟩
  cases m with
  | atom b =>
    rcases List.mem_singleton.mp hown with ⟨rfl⟩
    exact hm
  | list items start stop => simp [Node.ownTokens] at hown

/-- Every printing of a forest reads as the forest, up to offsets. -/
theorem read_of_isPrinting (hatoms : ∀ a, .atom a ∈ Node.walkAll ns → IsAtomText a.text.toList)
    (h : IsPrinting none (Node.tokensOf ns) t) :
    ∃ ms, read t = .ok ms ∧ ms.map Node.shape = ns.map Node.shape := by
  rcases exists_splits_of_isPrinting h (fun a ha => hatoms a (mem_walkAll_of_mem_tokensOf ha)) 0
    with ⟨ps, hsplits, hfaces⟩
  rcases exists_tokensOf_of_relocate hfaces with ⟨ms, hms, hshape⟩
  exact ⟨ms, read_eq_ok_iff.mpr ⟨ps, hsplits, hms⟩, hshape⟩

/-- A list of a word, a string with an escape, and a list. -/
def nestedForest : List Node :=
  [.list [.atom ⟨"a", 0⟩, .atom ⟨"\"(;\\\"\n)\"", 0⟩, .list [.atom ⟨"b", 0⟩] 0 0] 0 0]

/-- A printing of it, with a block comment in a block comment right behind the word, and a line
comment behind the string. -/
def commentedText : Text :=
  "(a(;(;c;);)\"(;\\\"\n)\" ;;c\n(b))".toList

theorem isAtomText_nestedForest :
    ∀ a, .atom a ∈ Node.walkAll nestedForest → IsAtomText a.text.toList := by
  intro a ha
  simp only [nestedForest, Node.walkAll, Node.walk, List.cons_append, List.nil_append,
    List.append_nil, List.mem_cons, reduceCtorEq, Node.atom.injEq, List.not_mem_nil, or_false,
    false_or] at ha
  rcases ha with rfl | rfl | rfl
  · exact .word (by decide) (List.forall_mem_singleton.mpr rfl)
  · exact .string (u := "(;\\\"\n)".toList)
      (.plain (by decide) (by decide) (.plain (by decide) (by decide)
        (.escaped (.plain (by decide) (by decide) (.plain (by decide) (by decide) .nil)))))
  · exact .word (by decide) (List.forall_mem_singleton.mpr rfl)

theorem isPrinting_commentedText : IsPrinting none (Node.tokensOf nestedForest) commentedText := by
  have hnothing : ∀ {before behind}, before.any Token.isAtom = false →
      before.any Token.isOpening = false → KeepsApart before [] behind := by
    intro before behind hatom hopening
    exact ⟨fun h => by simp [hatom] at h, fun h => by simp [hopening] at h⟩
  have hblock : IsGap "(;(;c;);)".toList "\"(;\\\"\n)\" ;;c\n(b))".toList :=
    .blockComment (u := "(;c;);)".toList)
      (.comment (u := "c;)".toList) (.char (by decide) (by decide) .ending) .ending)
  have hline : IsGap ";;c\n".toList "(b))".toList := .lineComment (u := ['c']) (by decide)
  -- from the last token to the first one
  have hend : IsPrinting (some (.closing 0)) [] "".toList := .last .nil (hnothing rfl rfl)
  have hlast : IsPrinting (some (.closing 0)) [.closing 0] ")".toList :=
    .token (w := []) .nil (hnothing rfl rfl) hend
  have hinner : IsPrinting (some (.opening 0)) [.atom ⟨"b", 0⟩, .closing 0, .closing 0]
      "b))".toList :=
    .token (w := []) .nil ⟨by decide, by decide⟩
      (.token (w := []) .nil ⟨by decide, by decide⟩ hlast)
  have hlist : IsPrinting (some (.atom ⟨"\"(;\\\"\n)\"", 0⟩))
      [.opening 0, .atom ⟨"b", 0⟩, .closing 0, .closing 0] " ;;c\n(b))".toList :=
    .token (w := " ;;c\n".toList) (.cons (u := [' ']) (.blank rfl) (.cons hline .nil))
      ⟨by decide, by decide⟩ hinner
  have hstring : IsPrinting (some (.atom ⟨"a", 0⟩)) [.atom ⟨"\"(;\\\"\n)\"", 0⟩, .opening 0,
      .atom ⟨"b", 0⟩, .closing 0, .closing 0] "(;(;c;);)\"(;\\\"\n)\" ;;c\n(b))".toList :=
    .token (w := "(;(;c;);)".toList) (.cons hblock .nil) ⟨by decide, by decide⟩ hlist
  exact .token (w := []) .nil (hnothing rfl rfl)
    (.token (w := []) .nil ⟨by decide, by decide⟩ hstring)

theorem read_commentedText : (∀ a, .atom a ∈ Node.walkAll nestedForest →
      IsAtomText a.text.toList) ∧
    IsPrinting none (Node.tokensOf nestedForest) commentedText ∧
      ∃ ms, read commentedText = .ok ms ∧ ms.map Node.shape = nestedForest.map Node.shape :=
  ⟨isAtomText_nestedForest, isPrinting_commentedText,
    read_of_isPrinting isAtomText_nestedForest isPrinting_commentedText⟩

end WasmPackage.SExpr
