import WasmPackage.Proofs.Script.Lexemes

/-!
# The layout of scripts

The tokens of a script do not depend on the blanks between them.  Each token is one by itself, and
stays one where blanks stand behind it; so any layout of the tokens of a script has the same tokens.
-/

namespace WasmPackage.Script

variable {flag : Bool} {pos : Nat} {previous previous' : Option Token} {t t' : Token} {c : Char}
  {gap r v : Text} {tokens : List Token}

namespace Token

/-- What a token is, wherever it stands. -/
def face (t : Token) : TokenKind × String :=
  (t.kind, t.text)

/-- Does the token end where its line ends? -/
def isLineComment (t : Token) : Bool :=
  t.kind = .comment && Text.startsWith t.text.toList ['/', '/']

end Token

@[simp] theorem face_tokenAt {kind : TokenKind} {n : Nat} :
    (tokenAt pos c r kind n).face = (kind, String.ofList (c :: r.take n)) := rfl

/-! ## Layouts -/

/-- The tokens stand in the text, each with a gap of blanks behind it.  Only the last gap may be
empty, and the one behind a line comment begins with a newline. -/
inductive Spaced : List Token → Text → Prop
  | nil : Spaced [] []
  | cons {t : Token} {tokens : List Token} {gap rest : Text} :
    (∀ c ∈ gap, isBlank c = true) → (tokens ≠ [] → gap ≠ []) →
      (t.isLineComment = true → gap.head?.all (· = '\n') = true) → Spaced tokens rest →
      Spaced (t :: tokens) (t.text.toList ++ gap ++ rest)

/-- The text consists of the tokens in their order, and of blanks before, between and behind
them. -/
def IsLayout (tokens : List Token) (text : Text) : Prop :=
  ∃ gap rest, (∀ c ∈ gap, isBlank c = true) ∧ Spaced tokens rest ∧ text = gap ++ rest

/-! ## Legible tokens -/

/-- May a regular expression stand behind a token, if it may stand before it or not?  A comment
makes no difference. -/
def regexBehind (flag : Bool) (t : Token) : Bool :=
  if t.kind = .comment then flag else regexMayFollow (some t)

/-- The token is one by itself, in a place where a regular expression may stand or not. -/
def IsLexeme [Limits] (flag : Bool) (t : Token) : Prop :=
  ∃ c r, t.text.toList = c :: r ∧ isBlank c = false ∧ Lexes flag c r t.kind r.length

/-- Each of the tokens is one by itself, in its place behind the others. -/
def Legible [Limits] (flag : Bool) : List Token → Prop
  | [] => True
  | t :: tokens => IsLexeme flag t ∧ Legible (regexBehind flag t) tokens

theorem regexMayFollow_eq_of_face (h : t'.face = t.face) :
    regexMayFollow (some t') = regexMayFollow (some t) := by
  rcases Prod.mk.inj h with ⟨hkind, htext⟩
  simp [regexMayFollow, hkind, htext]

/-- Only the faces of the tokens matter to whether a regular expression may stand behind them. -/
theorem regexMayFollow_codeBehind (h : t'.face = t.face) :
    regexMayFollow (codeBehind previous t') = regexBehind (regexMayFollow previous) t := by
  have hkind : t'.kind = t.kind := congrArg Prod.fst h
  rw [codeBehind, regexBehind, hkind]
  split
  · rfl
  · exact regexMayFollow_eq_of_face h

/-- The token at the front of a text is one by itself. -/
theorem Lexes.isLexeme [Limits] {kind : TokenKind} {n : Nat} (h : Lexes flag c r kind n)
    (hblank : isBlank c = false) : IsLexeme flag ⟨kind, String.ofList (c :: r.take n), pos⟩ := by
  have hlength : (r.take n).length = n := List.length_take_of_le h.length_le
  refine ⟨c, r.take n, String.toList_ofList, hblank, ?_⟩
  rw [hlength, ← List.append_nil (r.take n)]
  exact h.stable runsOn_nil

/-- The tokens of a text are legible. -/
theorem legible_of_tokensFrom [Limits] (h : tokensFrom pos previous r = .ok tokens) :
    Legible (regexMayFollow previous) tokens := by
  rw [tokensFrom_eq_ok_iff] at h
  induction h with
  | nil => trivial
  | blank _ _ ih => exact ih
  | @token pos n previous c r kind rest hblank hlexes _ ih =>
    rw [regexMayFollow_codeBehind rfl] at ih
    exact ⟨hlexes.isLexeme hblank, ih⟩

/-- Each legible token is one by itself somewhere. -/
theorem Legible.isLexeme [Limits] (h : Legible flag tokens) (ht : t ∈ tokens) :
    ∃ flag', IsLexeme flag' t := by
  induction tokens generalizing flag with
  | nil => cases ht
  | cons first rest ih =>
    rcases List.mem_cons.mp ht with rfl | ht
    · exact ⟨flag, h.1⟩
    · exact ih h.2 ht

/-- An identifier begins with a character that may start one. -/
theorem IsLexeme.startsIdentifier [Limits] (h : IsLexeme flag t) (hkind : t.kind = .identifier) :
    t.text.toList.head?.any startsIdentifier = true := by
  rcases h with ⟨c, r, htext, -, hlexes⟩
  rw [hkind] at hlexes
  generalize hn : r.length = n at hlexes
  cases hlexes with
  | identifier hname => simp [htext, hname]

/-- Only a mark begins with a bracket. -/
theorem IsLexeme.head?_ne [Limits] (h : IsLexeme flag t) (hkind : t.kind ≠ .punctuation) :
    t.text.toList.head? ≠ some '[' := by
  rcases h with ⟨c, r, htext, -, hlexes⟩
  rw [htext, List.head?_cons, ne_eq, Option.some.injEq]
  rintro rfl
  generalize hn : r.length = n at hlexes
  generalize hk : t.kind = kind at hlexes hkind
  cases hlexes with
  | string hquote => simp at hquote
  | identifier hname => cases hname
  | number _ hnumber => cases hnumber
  | mark => exact hkind rfl

/-! ## Reading a layout -/

theorem tokensFrom_append_of_isBlank [Limits] (hgap : ∀ c ∈ gap, isBlank c = true) :
    tokensFrom pos previous (gap ++ r) = tokensFrom (pos + gap.length) previous r := by
  induction gap generalizing pos with
  | nil => rfl
  | cons c gap ih =>
    rcases List.forall_mem_cons.mp hgap with ⟨hc, hrest⟩
    rw [List.cons_append, tokensFrom_cons, if_pos hc, ih hrest, List.length_cons]
    congr 1
    omega

/-- A token is read in front of any text that it does not run on into. -/
theorem tokensFrom_append_of_isLexeme [Limits] (h : IsLexeme (regexMayFollow previous) t)
    (hruns : runsOn t.kind t.text.toList v = false) :
    tokensFrom pos previous (t.text.toList ++ v) =
      (tokensFrom (pos + t.text.length) (codeBehind previous { t with start := pos }) v).map
        ({ t with start := pos } :: ·) := by
  rcases t with ⟨kind, text, start⟩
  rcases h with ⟨c, r, htext, hblank, hlexes⟩
  simp only at htext hlexes hruns ⊢
  have hback : String.ofList (c :: r) = text := by
    rw [← htext, String.ofList_toList]
  have hlength : text.length = 1 + r.length := by
    rw [← String.length_toList, htext, List.length_cons, Nat.add_comm]
  have hstable : Lexes (regexMayFollow previous) c (r.take r.length ++ v) kind r.length :=
    hlexes.stable (by rwa [List.take_length, ← htext])
  rw [List.take_length] at hstable
  rw [htext, List.cons_append, tokensFrom_cons]
  simp only [hblank, Bool.false_eq_true, if_false, lexeme_of_lexes hstable, List.take_left,
    List.drop_left, hback, hlength, Nat.add_assoc, codeBehind]

/-- A token does not run on into blanks, or the newline that ends it. -/
theorem runsOn_of_isBlank (hgap : ∀ c ∈ gap, isBlank c = true) (hnext : gap = [] → v = [])
    (hline : t.isLineComment = true → gap.head?.all (· = '\n') = true) :
    runsOn t.kind t.text.toList (gap ++ v) = false := by
  rcases t with ⟨kind, text, start⟩
  cases gap with
  | nil =>
    rw [hnext rfl]
    exact runsOn_nil
  | cons c gap =>
    have hblank := (List.forall_mem_cons.mp hgap).1
    have hname := continuesIdentifier_of_isBlank hblank
    have hdigit : isDigit c = false := by
      by_contra hdigit
      rw [Bool.not_eq_false] at hdigit
      rw [continuesIdentifier_of_isDigit hdigit] at hname
      cases hname
    have hmark : '.' ≠ c ∧ '/' ≠ c ∧ '*' ≠ c ∧ '>' ≠ c := by
      refine ⟨?_, ?_, ?_, ?_⟩ <;> rintro rfl <;> cases hblank
    cases kind with
    | number => simp [runsOn, hname, hmark.1.symm]
    | comment => simpa [runsOn, Token.isLineComment] using hline
    | punctuation => simp [runsOn, Text.startsWith, List.isPrefixOf, hdigit, hmark]
    | _ => simp [runsOn, hname]

/-- Legible tokens are read from any layout of them. -/
theorem tokensFrom_spaced [Limits] (h : Legible (regexMayFollow previous) tokens)
    (hspaced : Spaced tokens r) :
    ∃ tokens', tokensFrom pos previous r = .ok tokens' ∧
      tokens'.map Token.face = tokens.map Token.face := by
  induction hspaced generalizing pos previous with
  | nil => exact ⟨[], tokensFrom_nil _ _, rfl⟩
  | @cons t tokens gap rest hgap hnext hline hrest ih =>
    have hbehind : gap = [] → rest = [] := by
      intro hnone
      have hlast : tokens = [] := by
        by_contra hmore
        exact hnext hmore hnone
      subst hlast
      cases hrest
      rfl
    rw [List.append_assoc, tokensFrom_append_of_isLexeme h.1 (runsOn_of_isBlank hgap hbehind hline),
      tokensFrom_append_of_isBlank hgap]
    have hflag : regexMayFollow (codeBehind previous { t with start := pos }) =
        regexBehind (regexMayFollow previous) t := regexMayFollow_codeBehind rfl
    rcases ih (hflag ▸ h.2) with ⟨tokens', hread, hsame⟩
    exact ⟨{ t with start := pos } :: tokens', by rw [hread]; rfl, by simp [hsame, Token.face]⟩

/-- Any layout of the tokens of a script has these tokens. -/
theorem tokenize_isLayout [Limits] {s s' : Text} (h : tokenize s = .ok tokens)
    (hlayout : IsLayout tokens s') :
    ∃ tokens', tokenize s' = .ok tokens' ∧ tokens'.map Token.face = tokens.map Token.face := by
  rcases hlayout with ⟨gap, rest, hgap, hspaced, rfl⟩
  have htokens := tokensFrom_of_tokenize h
  rcases tokensFrom_spaced (legible_of_tokensFrom htokens) hspaced with ⟨tokens', hread, hsame⟩
  refine ⟨tokens', ?_, hsame⟩
  rw [tokenize, tokensFrom_append_of_isBlank hgap, hread]
  rfl

end WasmPackage.Script
