import WasmPackage.Proofs.Script.Layout

/-!
# Reading composed texts

A text that is put together from words, pieces of punctuation and comments has the tokens of its
parts, wherever it stands.  No part may run on into the next one: a word ends in front of what is no
character of a name, and a piece of punctuation ends with a bracket, a separator or a blank.
-/

namespace WasmPackage.Script

/-- What a token is, wherever it stands: its kind and its text. -/
abbrev Face := TokenKind × String

variable {t u : Text} {faces : List Face} {w : String} {pos pos' : Nat}
  {previous previous' : Option Token} {tokens : List Token} {c : Char} {r : Text} {kind : TokenKind}
  {n : Nat} {flag flag' : Bool}

/-- Wherever the text stands, it is read as tokens with these faces. -/
def ReadsAs [Limits] (t : Text) (faces : List Face) : Prop :=
  ∀ pos previous, ∃ tokens, tokensFrom pos previous t = .ok tokens ∧ tokens.map Token.face = faces

theorem ReadsAs.nil [Limits] : ReadsAs [] [] :=
  fun _ _ => ⟨[], tokensFrom_nil _ _, rfl⟩

theorem ReadsAs.blanks [Limits] {gap : Text} (hgap : ∀ c ∈ gap, isBlank c = true)
    (ht : ReadsAs t faces) :
    ReadsAs (gap ++ t) faces := by
  intro pos previous
  rw [tokensFrom_append_of_isBlank hgap]
  exact ht _ _

/-- A token that is read with and without regular expressions goes before a text that it does not
run on into. -/
theorem ReadsAs.token [Limits] (hlexeme : ∀ flag, IsLexeme flag ⟨kind, w, 0⟩)
    (hruns : runsOn kind w.toList t = false) (ht : ReadsAs t faces) :
    ReadsAs (w.toList ++ t) ((kind, w) :: faces) := by
  intro pos previous
  rcases ht (pos + w.length) (codeBehind previous ⟨kind, w, pos⟩) with ⟨tokens, hread, rfl⟩
  refine ⟨⟨kind, w, pos⟩ :: tokens, ?_, rfl⟩
  rw [tokensFrom_append_of_isLexeme (hlexeme _) hruns, hread]
  rfl

/-! ## Words -/

/-- Is this text one word of a script, an identifier? -/
def isWord (w : String) : Bool :=
  match w.toList with
  | [] => false
  | c :: r => startsIdentifier c && r.all continuesIdentifier

/-- The characters of a word are characters of a name. -/
theorem continuesIdentifier_of_isWord (hw : isWord w = true) :
    ∀ c ∈ w.toList, continuesIdentifier c = true := by
  unfold isWord at hw
  split at hw
  · cases hw
  · next c r hlist =>
    rw [Bool.and_eq_true, List.all_eq_true] at hw
    rw [hlist, List.forall_mem_cons]
    exact ⟨continuesIdentifier_of_startsIdentifier hw.1, hw.2⟩

theorem isLexeme_of_isWord [Limits] (hw : isWord w = true) (flag : Bool) :
    IsLexeme flag ⟨.identifier, w, 0⟩ := by
  have hchars := continuesIdentifier_of_isWord hw
  unfold isWord at hw
  split at hw
  · cases hw
  · next c r hlist =>
    rw [Bool.and_eq_true, List.all_eq_true] at hw
    rw [hlist, List.forall_mem_cons] at hchars
    refine ⟨c, r, hlist, ?_, ?_⟩
    · by_contra hblank
      have := continuesIdentifier_of_isBlank (by simpa using hblank)
      rw [hchars.1] at this
      cases this
    · have hrun : r.takeWhile continuesIdentifier = r := List.takeWhile_eq_self_iff.mpr hchars.2
      have hlexes : Lexes flag c r .identifier _ := .identifier hw.1
      rwa [hrun] at hlexes

theorem ReadsAs.word [Limits] (hw : isWord w = true)
    (hnext : t.head?.any continuesIdentifier = false)
    (ht : ReadsAs t faces) : ReadsAs (w.toList ++ t) ((.identifier, w) :: faces) :=
  ht.token (isLexeme_of_isWord hw) hnext

/-! ## Punctuation -/

/-- The characters behind which nothing is part of the token that they end. -/
def isTokenEnd (c : Char) : Bool :=
  isBlank c || ['(', ')', '[', ']', '\x7b', '\x7d', ':', ';', ','].contains c

/-- Is this a word, or punctuation other than the slash? -/
def Token.isPlain (x : Token) : Bool :=
  x.kind = .identifier || (x.kind = .punctuation && x.text ≠ "/")

/-- A text of plain tokens with these faces that ends with a bracket, a separator or a blank.  No
plain token is nested, so that it does to read the text where nothing may be nested. -/
def isChunk (u : Text) (faces : List Face) : Bool :=
  (@tokensFrom ⟨0, 0, 0, 0, 0⟩ 0 none u).toOption.any
      (fun tokens => tokens.all Token.isPlain && tokens.map Token.face = faces) &&
    u.getLast?.all isTokenEnd

/-- No character of a name ends a token. -/
theorem continuesIdentifier_of_isTokenEnd (h : isTokenEnd c = true) :
    continuesIdentifier c = false := by
  rw [isTokenEnd, Bool.or_eq_true] at h
  rcases h with hblank | hmark
  · exact continuesIdentifier_of_isBlank hblank
  · simp only [List.contains_eq_mem, List.mem_cons, List.not_mem_nil, or_false,
      decide_eq_true_eq] at hmark
    rcases hmark with rfl | rfl | rfl | rfl | rfl | rfl | rfl | rfl | rfl <;> decide

/-- Plain tokens of a text that ends a token do not run on into what stands behind the text. -/
theorem runsOn_drop_append [Limits] {s : Text} (hlexes : Lexes flag c r kind n)
    (hkind : kind = .identifier ∨ kind = .punctuation)
    (hend : (c :: r).getLast?.all isTokenEnd = true) :
    runsOn kind (c :: r.take n) (r.drop n ++ s) = false := by
  have hruns := hlexes.not_runsOn
  have hlast {d : Char} {v : Text} (h : c :: r = v ++ [d]) : isTokenEnd d = true := by
    rw [h] at hend
    simpa using hend
  cases hlexes with
  | @identifier _ _ hname =>
    cases hdrop : r.drop (r.takeWhile continuesIdentifier).length with
    | cons d v => simpa [runsOn, hdrop] using hruns
    | nil =>
      -- the whole text is one word, which ends nothing
      rw [drop_takeWhile, List.dropWhile_eq_nil_iff] at hdrop
      rcases List.eq_nil_or_concat (c :: r) with hempty | ⟨v, d, hsplit⟩
      · cases hempty
      · rw [List.concat_eq_append] at hsplit
        have hd : continuesIdentifier d = true := by
          have hmem : d ∈ c :: r := by simp [hsplit]
          rcases List.mem_cons.mp hmem with rfl | hmem
          · exact continuesIdentifier_of_startsIdentifier hname
          · exact hdrop d hmem
        rw [continuesIdentifier_of_isTokenEnd (hlast hsplit)] at hd
        cases hd
  | spread => simp [runsOn]
  | arrow => simp [runsOn]
  | mark =>
    have hnot (d : Char) (hd : isTokenEnd d = false) (v : Text) : c :: r ≠ v ++ [d] := by
      intro h
      rw [hlast h] at hd
      cases hd
    have hslash := hnot '/' (by decide)
    have hpoint := hnot '.' (by decide)
    have hequals := hnot '=' (by decide)
    rcases r with _ | ⟨d, _ | ⟨e, v⟩⟩
    · have hc := And.intro (hslash []) (And.intro (hpoint []) (hequals []))
      simp only [List.nil_append, ne_eq, List.cons.injEq, and_true] at hc
      simp [runsOn, hc]
    · have hd := hpoint [c]
      simp only [List.cons_append, List.nil_append, ne_eq, List.cons.injEq, and_true,
        true_and] at hd
      simpa [runsOn, Text.startsWith, List.isPrefixOf, Ne.symm hd] using hruns
    · simpa [runsOn, Text.startsWith, List.isPrefixOf] using hruns
  | _ => simp at hkind

/-- Neither regular expressions nor limits matter for plain tokens. -/
theorem Lexes.of_isPlain {limits : Limits} [Limits] (flag' : Bool)
    (h : @Lexes limits flag c r kind n)
    (hplain : Token.isPlain ⟨kind, String.ofList (c :: r.take n), pos⟩ = true) :
    (kind = .identifier ∨ kind = .punctuation) ∧ Lexes flag' c r kind n := by
  cases h with
  | identifier hname => exact ⟨.inl rfl, .identifier hname⟩
  | spread => exact ⟨.inr rfl, .spread⟩
  | arrow => exact ⟨.inr rfl, .arrow⟩
  | mark hmark hruns =>
    refine ⟨.inr rfl, .mark hmark hruns ?_⟩
    rintro rfl
    cases hplain
  | _ => cases hplain

theorem tokensFrom_append_chunk {limits : Limits} [Limits]
    (hu : @tokensFrom limits pos previous u = .ok tokens)
    (hplain : ∀ x ∈ tokens, x.isPlain = true) (hend : u.getLast?.all isTokenEnd = true)
    (ht : ReadsAs t faces) (pos' : Nat) (previous' : Option Token) :
    ∃ tokens', tokensFrom pos' previous' (u ++ t) = .ok tokens' ∧
      tokens'.map Token.face = tokens.map Token.face ++ faces := by
  rw [@tokensFrom_eq_ok_iff _ _ _ _ limits] at hu
  induction hu generalizing pos' previous' with
  | nil => simpa using ht pos' previous'
  | @blank pos previous c r rest hblank _ ih =>
    rw [List.cons_append, tokensFrom_cons, if_pos hblank]
    refine ih hplain ?_ _ _
    cases r with
    | nil => rfl
    | cons d v => simpa using hend
  | @token pos n previous c r kind rest hblank hlexes _ ih =>
    rcases List.forall_mem_cons.mp hplain with ⟨hfirst, hplain⟩
    rcases hlexes.of_isPlain (regexMayFollow previous') hfirst with ⟨hkind, hlexes'⟩
    have hstable := hlexes'.stable (runsOn_drop_append (s := t) hlexes' hkind hend)
    rw [← List.append_assoc, List.take_append_drop] at hstable
    have htake : (r ++ t).take n = r.take n := List.take_append_of_le_length hlexes'.length_le
    have hdrop : (r ++ t).drop n = r.drop n ++ t := List.drop_append_of_le_length hlexes'.length_le
    have hend' : (r.drop n).getLast?.all isTokenEnd = true := by
      rw [List.getLast?_drop]
      split
      · rfl
      · cases r with
        | nil => rfl
        | cons d v => simpa using hend
    rcases ih hplain hend' (pos' + 1 + n) (codeBehind previous' (tokenAt pos' c r kind n)) with
      ⟨tokens', hread, hfaces⟩
    refine ⟨tokenAt pos' c r kind n :: tokens', ?_, by simp [hfaces]⟩
    have hsame : tokenAt pos' c (r ++ t) kind n = tokenAt pos' c r kind n := by
      rw [tokenAt, tokenAt, htake]
    rw [tokensFrom_eq_ok_iff, ← hdrop, ← hsame] at hread
    rw [← hsame]
    exact tokensFrom_of_splitsInto (.token hblank hstable hread)

/-- A chunk goes before any text. -/
theorem ReadsAs.chunk [Limits] {faces' : List Face} (hu : isChunk u faces' = true)
    (ht : ReadsAs t faces) :
    ReadsAs (u ++ t) (faces' ++ faces) := by
  intro pos previous
  rw [isChunk, Bool.and_eq_true] at hu
  rcases hu with ⟨hread, hend⟩
  cases htokens : @tokensFrom ⟨0, 0, 0, 0, 0⟩ 0 none u with
  | error e =>
    rw [htokens] at hread
    cases hread
  | ok tokens =>
    rw [htokens] at hread
    simp only [Except.toOption, Option.any_some, Bool.and_eq_true, List.all_eq_true,
      decide_eq_true_eq] at hread
    rw [← hread.2]
    exact tokensFrom_append_chunk htokens hread.1 hend ht pos previous

/-! ## Comments -/

theorem blockCommentLength?_append {v : Text} (hv : '/' ∉ v) :
    blockCommentLength? (v ++ ['*', '/']) = some (v.length + 2) := by
  induction v with
  | nil => rfl
  | cons c v ih =>
    rw [List.mem_cons, not_or] at hv
    rw [List.cons_append, blockCommentLength?, ih hv.2]
    · rfl
    · rintro s rfl hs
      cases v with
      | nil => cases hs
      | cons d v =>
        cases hs
        simp at hv

/-- A block comment without a slash inside goes before any text. -/
theorem ReadsAs.comment [Limits] {v : Text} (hv : '/' ∉ v)
    (hw : w.toList = '/' :: '*' :: (v ++ ['*', '/']))
    (ht : ReadsAs t faces) : ReadsAs (w.toList ++ t) ((.comment, w) :: faces) := by
  refine ht.token (fun flag => ⟨'/', _, hw, by decide, ?_⟩) ?_
  · have hlexes : Lexes flag '/' ('*' :: (v ++ ['*', '/'])) .comment _ :=
      .blockComment (blockCommentLength?_append hv)
    simpa using hlexes
  · rw [hw]
    rfl

/-! ## Texts that are read by themselves -/

/-- Only whether a regular expression may stand in front of a text matters for its tokens. -/
theorem tokensFrom_congr [Limits] (pos' : Nat) (h : tokensFrom pos previous t = .ok tokens)
    (hflag : regexMayFollow previous' = regexMayFollow previous) :
    ∃ tokens', tokensFrom pos' previous' t = .ok tokens' ∧
      tokens'.map Token.face = tokens.map Token.face := by
  rw [tokensFrom_eq_ok_iff] at h
  induction h generalizing pos' previous' with
  | nil => exact ⟨[], tokensFrom_nil _ _, rfl⟩
  | blank hblank _ ih =>
    rw [tokensFrom_cons, if_pos hblank]
    exact ih _ hflag
  | @token pos n previous c r kind rest hblank hlexes _ ih =>
    rw [← hflag] at hlexes
    have hbehind : regexMayFollow (codeBehind previous' (tokenAt pos' c r kind n)) =
        regexMayFollow (codeBehind previous (tokenAt pos c r kind n)) := by
      rw [regexMayFollow_codeBehind rfl, regexMayFollow_codeBehind rfl, hflag]
      rfl
    rcases ih (pos' + 1 + n) hbehind with ⟨tokens', hread, hfaces⟩
    rw [tokensFrom_eq_ok_iff] at hread
    exact ⟨_, tokensFrom_of_splitsInto (.token hblank hlexes hread), by simp [hfaces]⟩

/-- A text whose code begins with a word has its tokens wherever it stands. -/
theorem readsAs_of_tokensFrom [Limits] (h : tokensFrom pos previous t = .ok tokens)
    (hfirst :
      (tokens.filter (fun x => x.kind ≠ .comment)).head?.all (·.kind = .identifier) = true) :
    ReadsAs t (tokens.map Token.face) := by
  intro pos' previous'
  rw [tokensFrom_eq_ok_iff] at h
  induction h generalizing pos' with
  | nil => exact ⟨[], tokensFrom_nil _ _, rfl⟩
  | blank hblank _ ih =>
    rw [tokensFrom_cons, if_pos hblank]
    exact ih hfirst _
  | @token pos n previous c r kind rest hblank hlexes hrest ih =>
    by_cases hcomment : kind = .comment
    · subst hcomment
      rcases ih (by simpa using hfirst) (pos' + 1 + n) with ⟨tokens', hread, hfaces⟩
      rw [tokensFrom_eq_ok_iff] at hread
      exact ⟨_, tokensFrom_of_splitsInto (.token hblank hlexes.of_comment hread), by simp [hfaces]⟩
    · have hcode : (tokenAt pos c r kind n :: rest).filter (fun x => x.kind ≠ .comment) =
          tokenAt pos c r kind n :: rest.filter (fun x => x.kind ≠ .comment) :=
        List.filter_cons_of_pos (decide_eq_true hcomment)
      rw [hcode, List.head?_cons, Option.all_some, decide_eq_true_iff] at hfirst
      obtain rfl : kind = .identifier := hfirst
      have hlexes' : Lexes (regexMayFollow previous') c r .identifier n := by
        cases hlexes with
        | identifier hname => exact .identifier hname
      -- behind a name it does not matter what stands in front of it
      have hflag : regexMayFollow (codeBehind previous' (tokenAt pos' c r .identifier n)) =
          regexMayFollow (codeBehind previous (tokenAt pos c r .identifier n)) :=
        regexMayFollow_eq_of_face rfl
      rcases tokensFrom_congr (pos' + 1 + n) (tokensFrom_of_splitsInto hrest) hflag with
        ⟨tokens', hread, hfaces⟩
      rw [tokensFrom_eq_ok_iff] at hread
      exact ⟨_, tokensFrom_of_splitsInto (.token hblank hlexes' hread), by simp [hfaces]⟩

end WasmPackage.Script
