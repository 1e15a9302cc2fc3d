import WasmPackage.Proofs.Script.Literals
import WasmPackage.Proofs.Text.Classes
import WasmPackage.Script.Lexer

/-!
# Lexemes of scripts

The rules for the token at the front of a script, one for each kind of token, and what may stand
behind one: a token stays the same when other text comes behind it, unless it runs on into that.
-/

namespace WasmPackage.Script

variable {previous : Option Token} {regexes : Bool} {c : Char} {r r' : Text} {kind : TokenKind}
  {n : Nat}

theorem continuesIdentifier_of_isDigit (h : isDigit c = true) : continuesIdentifier c = true := by
  simp [continuesIdentifier, isLetterOrNumeral_of_isDigit h]

theorem continuesIdentifier_of_isBlank (h : isBlank c = true) : continuesIdentifier c = false := by
  have hunderscore : c ≠ '_' := by
    rintro rfl
    cases h
  have hdollar : c ≠ '$' := by
    rintro rfl
    cases h
  simp [continuesIdentifier, isLetterOrNumeral_of_isBlank h, hunderscore, hdollar]

theorem continuesIdentifier_of_startsIdentifier (h : startsIdentifier c = true) :
    continuesIdentifier c = true := by
  have hletter : isLetter c = true → isLetterOrNumeral c = true := by
    intro hc
    by_cases hascii : c.toNat < 128
    · rw [isLetter, if_pos hascii] at hc
      simp [isLetterOrNumeral, hascii, Char.isAlphanum, hc]
    · simp [isLetterOrNumeral, hascii, hc]
  simp only [startsIdentifier, continuesIdentifier, Bool.or_eq_true] at h ⊢
  exact h.imp_left (Or.imp_left hletter)

/-- Does a token of this kind with the characters `w` run on into the text behind it?  Names,
numbers and regular expressions go on with the characters of a name, a line comment with all but a
newline, and some marks are parts of longer ones. -/
def runsOn (kind : TokenKind) (w after : Text) : Bool :=
  match kind with
  | .identifier | .regex => after.head?.any continuesIdentifier
  | .number => after.head?.any (fun d => continuesIdentifier d || d = '.')
  | .comment => w.startsWith ['/', '/'] && after.head?.any (· ≠ '\n')
  | .punctuation =>
    (w = ['/'] && (after.startsWith ['/'] || after.startsWith ['*'])) ||
      (w = ['.'] && (after.head?.any isDigit || after.startsWith ['.', '.'])) ||
      (w = ['='] && after.startsWith ['>'])
  | .string | .template => false

/-- At the end of the text nothing runs on. -/
theorem runsOn_nil {w : Text} : runsOn kind w [] = false := by
  cases kind <;> simp [runsOn, Text.startsWith]

/-- Is this a character that is a token by itself, if no longer one begins with it? -/
def isMark (c : Char) : Bool :=
  c ≠ '\'' && c ≠ '"' && c ≠ templateMark && !startsIdentifier c && !isDigit c

/-- The token at the front of `c :: r` is of this kind and takes `n` characters of `r` along, where
regular expressions may stand there or not. -/
inductive Lexes [Limits] (regexes : Bool) : Char → Text → TokenKind → Nat → Prop
  | lineComment {r : Text} :
    Lexes regexes '/' ('/' :: r) .comment (('/' :: r).takeWhile (· ≠ '\n')).length
  | blockComment {r : Text} {n : Nat} :
    blockCommentLength? r = some n → Lexes regexes '/' ('*' :: r) .comment (n + 1)
  | string {c : Char} {r : Text} {n : Nat} :
    c = '\'' ∨ c = '"' → stringLength? c r = some n → Lexes regexes c r .string n
  | template {r : Text} {stop : Nat} :
    closingOffset deepest 1 [.template 0] r = .ok stop →
      Lexes regexes templateMark r .template (stop - 1)
  | identifier {c : Char} {r : Text} :
    startsIdentifier c = true →
      Lexes regexes c r .identifier (r.takeWhile continuesIdentifier).length
  | number {c : Char} {r : Text} :
    startsIdentifier c = false → (isDigit c || (c = '.' && r.head?.any isDigit)) = true →
      Lexes regexes c r .number (r.takeWhile (fun d => continuesIdentifier d || d = '.')).length
  | regex {r : Text} {n : Nat} :
    runsOn .punctuation ['/'] r = false → regexes = true →
      regexLength? false r = some n → Lexes regexes '/' r .regex n
  | spread {r : Text} : Lexes regexes '.' ('.' :: '.' :: r) .punctuation 2
  | arrow {r : Text} : Lexes regexes '=' ('>' :: r) .punctuation 1
  | mark {c : Char} {r : Text} :
    isMark c = true → runsOn .punctuation [c] r = false →
      (c = '/' → regexes = false) → Lexes regexes c r .punctuation 0

/-- What begins at the front of `c :: r`, where regular expressions may stand there or not, has no
end or goes too deep, and the fault tells of it. -/
inductive Fails [Limits] (regexes : Bool) : Char → Text → Malformed × Nat → Prop
  | blockComment {r : Text} :
    blockCommentLength? r = none → Fails regexes '/' ('*' :: r) (.openComment, 0)
  | string {c : Char} {r : Text} :
    c = '\'' ∨ c = '"' → stringLength? c r = none → Fails regexes c r (.openString, 0)
  | template {r : Text} {e : Malformed × Nat} :
    closingOffset deepest 1 [.template 0] r = .error e → Fails regexes templateMark r e
  | regex {r : Text} :
    runsOn .punctuation ['/'] r = false → regexes = true → regexLength? false r = none →
      Fails regexes '/' r (.openRegex, 0)

theorem startsWith_cons_iff {r w : Text} {d : Char} :
    r.startsWith (d :: w) = true ↔ ∃ s : Text, r = d :: s ∧ s.startsWith w = true := by
  cases r with
  | nil => simp [Text.startsWith]
  | cons e s =>
    simp only [Text.startsWith, List.isPrefixOf, Bool.and_eq_true, beq_iff_eq, List.cons.injEq]
    constructor
    · rintro ⟨rfl, h⟩
      exact ⟨s, ⟨rfl, rfl⟩, h⟩
    · rintro ⟨_, ⟨rfl, rfl⟩, h⟩
      exact ⟨rfl, h⟩

/-- A literal has a length and is taken whole, or has no end. -/
theorem literal_cases (kind : TokenKind) (extra : Nat) (cause : Malformed)
    (length? : Option Nat) :
    (∃ n, length? = some n ∧ literal kind extra cause length? = .ok (kind, n + extra)) ∨
      length? = none ∧ literal kind extra cause length? = .error (cause, 0) := by
  cases length? with
  | none => exact Or.inr ⟨rfl, rfl⟩
  | some n => exact Or.inl ⟨n, rfl, rfl⟩

/-- All that the lexer answers: a token by one of the rules, or a fault of what has no end. -/
theorem lexeme_cases [Limits] (previous : Option Token) (c : Char) (r : Text) :
    (∃ kind n, lexeme previous c r = .ok (kind, n) ∧ Lexes (regexMayFollow previous) c r kind n) ∨
      ∃ e, lexeme previous c r = .error e ∧ Fails (regexMayFollow previous) c r e := by
  -- the tests of the lexer, one after the other
  unfold lexeme
  split
  case isTrue hline =>
    simp only [Bool.and_eq_true, decide_eq_true_eq, startsWith_cons_iff] at hline
    rcases hline with ⟨rfl, r, rfl, -⟩
    exact Or.inl ⟨_, _, rfl, .lineComment⟩
  case isFalse hline =>
  split
  case isTrue hblock =>
    simp only [Bool.and_eq_true, decide_eq_true_eq, startsWith_cons_iff] at hblock
    rcases hblock with ⟨rfl, r, rfl, -⟩
    rcases literal_cases .comment 1 .openComment (blockCommentLength? r) with
      ⟨n, hlength, hanswer⟩ | ⟨hlength, hanswer⟩
    · exact Or.inl ⟨_, _, hanswer, .blockComment hlength⟩
    · exact Or.inr ⟨_, hanswer, .blockComment hlength⟩
  case isFalse hblock =>
  split
  case isTrue hquote =>
    have hquote : c = '\'' ∨ c = '"' := by simpa using hquote
    rcases literal_cases .string 0 .openString (stringLength? c r) with
      ⟨n, hlength, hanswer⟩ | ⟨hlength, hanswer⟩
    · exact Or.inl ⟨_, _, hanswer, .string hquote hlength⟩
    · exact Or.inr ⟨_, hanswer, .string hquote hlength⟩
  case isFalse hquote =>
  split
  case isTrue hmark =>
    subst hmark
    cases hstop : closingOffset deepest 1 [.template 0] r with
    | error e => exact Or.inr ⟨e, rfl, .template hstop⟩
    | ok stop => exact Or.inl ⟨_, _, rfl, .template hstop⟩
  case isFalse hmark =>
  split
  case isTrue hname => exact Or.inl ⟨_, _, rfl, .identifier hname⟩
  case isFalse hname =>
  split
  case isTrue hnumber => exact Or.inl ⟨_, _, rfl, .number (by simpa using hname) hnumber⟩
  case isFalse hnumber =>
  split
  case isTrue hregex =>
    simp only [Bool.and_eq_true, decide_eq_true_eq] at hregex
    rcases hregex with ⟨rfl, hfollow⟩
    have hruns : runsOn .punctuation ['/'] r = false := by simp_all [runsOn]
    rcases literal_cases .regex 0 .openRegex (regexLength? false r) with
      ⟨n, hlength, hanswer⟩ | ⟨hlength, hanswer⟩
    · exact Or.inl ⟨_, _, hanswer, .regex hruns hfollow hlength⟩
    · exact Or.inr ⟨_, hanswer, .regex hruns hfollow hlength⟩
  case isFalse hregex =>
  split
  case isTrue hspread =>
    simp only [Bool.and_eq_true, decide_eq_true_eq, startsWith_cons_iff] at hspread
    rcases hspread with ⟨rfl, _, rfl, _, rfl, -⟩
    exact Or.inl ⟨_, _, rfl, .spread⟩
  case isFalse hspread =>
  split
  case isTrue harrow =>
    simp only [Bool.and_eq_true, decide_eq_true_eq, startsWith_cons_iff] at harrow
    rcases harrow with ⟨rfl, _, rfl, -⟩
    exact Or.inl ⟨_, _, rfl, .arrow⟩
  case isFalse harrow =>
    refine Or.inl ⟨_, _, rfl, .mark ?_ ?_ ?_⟩
    · simp_all [isMark]
    · simp_all [runsOn]
    · rintro rfl
      simpa using hregex

theorem lexes_of_lexeme [Limits] (h : lexeme previous c r = .ok (kind, n)) :
    Lexes (regexMayFollow previous) c r kind n := by
  rcases lexeme_cases previous c r with ⟨kind', n', hanswer, hlexes⟩ | ⟨e, hanswer, -⟩
  · cases hanswer.symm.trans h
    exact hlexes
  · cases hanswer.symm.trans h

theorem fails_of_lexeme [Limits] {e : Malformed × Nat} (h : lexeme previous c r = .error e) :
    Fails (regexMayFollow previous) c r e := by
  rcases lexeme_cases previous c r with ⟨kind, n, hanswer, -⟩ | ⟨e', hanswer, hfails⟩
  · cases hanswer.symm.trans h
  · cases hanswer.symm.trans h
    exact hfails

theorem lexeme_of_lexes [Limits] (h : Lexes (regexMayFollow previous) c r kind n) :
    lexeme previous c r = .ok (kind, n) := by
  cases h with
  | lineComment => simp [lexeme, Text.startsWith]
  | blockComment hlength => simp [lexeme, Text.startsWith, literal, hlength]
  | string hquote hlength =>
    rcases hquote with rfl | rfl <;> simp [lexeme, literal, hlength]
  | template hstop => simp [lexeme, templateMark, Except.map, hstop]
  | identifier hname =>
    have hquote : c ≠ '\'' ∧ c ≠ '"' ∧ c ≠ templateMark ∧ c ≠ '/' := by
      refine ⟨?_, ?_, ?_, ?_⟩ <;> rintro rfl <;> cases hname
    simp [lexeme, hquote, hname]
  | number hname hnumber =>
    have hquote : c ≠ '\'' ∧ c ≠ '"' ∧ c ≠ templateMark ∧ c ≠ '/' := by
      refine ⟨?_, ?_, ?_, ?_⟩ <;> rintro rfl <;> cases hnumber
    simp [lexeme, hquote, hname, hnumber]
  | regex hruns hfollow hlength =>
    have hname : startsIdentifier '/' = false := rfl
    have hdigit : isDigit '/' = false := rfl
    simp only [runsOn, decide_true, Bool.true_and, Bool.or_eq_false_iff] at hruns
    simp [lexeme, templateMark, literal, hruns, hname, hdigit, hfollow, hlength]
  | spread =>
    have hname : startsIdentifier '.' = false := rfl
    have hdigit : isDigit '.' = false := rfl
    simp [lexeme, templateMark, Text.startsWith, hname, hdigit]
  | arrow =>
    have hname : startsIdentifier '=' = false := rfl
    have hdigit : isDigit '=' = false := rfl
    simp [lexeme, templateMark, Text.startsWith, hname, hdigit]
  | mark hmark hruns hfollow =>
    simp only [isMark, Bool.and_eq_true, decide_eq_true_eq, Bool.not_eq_true', ne_eq] at hmark
    rcases hmark with ⟨⟨⟨⟨hsingle, hdouble⟩, htemplate⟩, hname⟩, hdigit⟩
    simp only [runsOn, Bool.or_eq_false_iff, Bool.and_eq_false_iff, decide_eq_false_iff_not,
      List.cons.injEq, and_true] at hruns
    rcases hruns with ⟨⟨hslash, hpoint⟩, harrow⟩
    simp only [lexeme, hsingle, hdouble, htemplate, hname, hdigit]
    by_cases hc : c = '/'
    · simp_all
    · by_cases hc : c = '.' <;> by_cases hc : c = '=' <;> simp_all

theorem lexeme_eq_ok_iff [Limits] :
    lexeme previous c r = .ok (kind, n) ↔ Lexes (regexMayFollow previous) c r kind n :=
  ⟨lexes_of_lexeme, lexeme_of_lexes⟩

namespace Lexes

theorem length_le [Limits] (h : Lexes regexes c r kind n) : n ≤ r.length := by
  have hrun (p : Char → Bool) (r : Text) : (r.takeWhile p).length ≤ r.length :=
    (List.takeWhile_prefix p).length_le
  cases h with
  | lineComment => exact hrun _ _
  | blockComment hlength =>
    have := (blockCommentLength?_eq_some hlength).2.1
    simp only [List.length_cons]
    omega
  | string _ hlength => exact (stringLength?_eq_some hlength).1
  | template hstop => exact (closingOffset_template hstop).2.1
  | identifier => exact hrun _ _
  | number => exact hrun _ _
  | regex _ _ hlength => exact (regexLength?_eq_some hlength).2.1
  | spread => simp
  | arrow => simp
  | mark => exact Nat.zero_le _

/-- A token does not run on into what stands behind it. -/
theorem not_runsOn [Limits] (h : Lexes regexes c r kind n) :
    runsOn kind (c :: r.take n) (r.drop n) = false := by
  cases h with
  | @lineComment r =>
    have hend := any_head?_drop_takeWhile (· ≠ '\n') ('/' :: r)
    simp only [runsOn, hend, Bool.and_false]
  | blockComment => simp [runsOn, Text.startsWith, List.isPrefixOf]
  | string => rfl
  | template => rfl
  | identifier => exact any_head?_drop_takeWhile _ _
  | number => exact any_head?_drop_takeWhile _ _
  | regex _ _ hlength => exact (regexLength?_eq_some hlength).2.2.1
  | spread => simp [runsOn]
  | arrow => simp [runsOn]
  | mark _ hruns => exact hruns

/-- Whether regular expressions may stand somewhere matters to them and to the slash. -/
theorem plain [Limits] (h : Lexes regexes c r kind n)
    (hkind : kind ≠ .regex) : Lexes false c r kind n := by
  cases h with
  | lineComment => exact .lineComment
  | blockComment hlength => exact .blockComment hlength
  | string hquote hlength => exact .string hquote hlength
  | template hstop => exact .template hstop
  | identifier hname => exact .identifier hname
  | number hname hnumber => exact .number hname hnumber
  | regex => exact (hkind rfl).elim
  | spread => exact .spread
  | arrow => exact .arrow
  | mark hmark hruns _ => exact .mark hmark hruns (fun _ => rfl)

/-- A comment is one wherever it stands. -/
theorem of_comment [Limits] {regexes' : Bool} (h : Lexes regexes c r .comment n) :
    Lexes regexes' c r .comment n := by
  cases h with
  | lineComment => exact .lineComment
  | blockComment hlength => exact .blockComment hlength

/-- A token stays what it is in front of any text that it does not run on into. -/
theorem stable [Limits] (h : Lexes regexes c r kind n)
    (hruns : runsOn kind (c :: r.take n) r' = false) :
    Lexes regexes c (r.take n ++ r') kind n := by
  -- literals end by themselves; a name, a number or a mark may only not run on
  cases h with
  | @lineComment r =>
    have hhead : r'.head?.any (· ≠ '\n') = false := by
      simpa [runsOn, Text.startsWith] using hruns
    have hsame := takeWhile_append_of_head? (r := '/' :: r) hhead
    rw [take_takeWhile]
    have hfront : ('/' :: r).takeWhile (· ≠ '\n') = '/' :: r.takeWhile (· ≠ '\n') := by simp
    have hlexes : Lexes regexes '/' ('/' :: (r.takeWhile (· ≠ '\n') ++ r')) .comment _ :=
      .lineComment
    rwa [← List.cons_append, ← hfront, hsame] at hlexes
  | blockComment hlength =>
    exact .blockComment ((blockCommentLength?_eq_some hlength).2.2 r')
  | string hquote hlength => exact .string hquote ((stringLength?_eq_some hlength).2 r')
  | template hstop =>
    rcases closingOffset_template hstop with ⟨-, -, hleads⟩
    have hsame := hleads deepest 0 [] r' (Nat.le_refl _)
    rw [Nat.zero_add, Nat.zero_add, closingOffset] at hsame
    exact .template hsame
  | identifier hname =>
    rw [take_takeWhile]
    have hlexes : Lexes regexes c (r.takeWhile continuesIdentifier ++ r') .identifier _ :=
      .identifier hname
    rwa [takeWhile_append_of_head? hruns] at hlexes
  | number hname hnumber =>
    rw [take_takeWhile]
    have hlexes : Lexes regexes c
        (r.takeWhile (fun d => continuesIdentifier d || d = '.') ++ r') .number _ :=
      .number hname ?_
    · rwa [takeWhile_append_of_head? hruns] at hlexes
    · -- a digit behind the point belongs to the number
      cases r with
      | nil => simp_all
      | cons d s =>
        by_cases hd : isDigit d = true
        · simp_all [continuesIdentifier_of_isDigit]
        · simp_all
  | regex hbegins hfollow hlength =>
    rcases regexLength?_eq_some hlength with ⟨hpos, hle, -, hstable⟩
    refine .regex ?_ hfollow (hstable r' hruns)
    -- the character behind the slash is the same
    rcases List.length_pos_iff_exists_cons.mp (show 0 < r.length by omega) with ⟨d, s, rfl⟩
    rcases Nat.exists_eq_add_one_of_ne_zero (show n ≠ 0 by omega) with ⟨m, rfl⟩
    simpa [runsOn, Text.startsWith, List.isPrefixOf] using hbegins
  | spread => exact .spread
  | arrow => exact .arrow
  | mark hmark _ hregex => exact .mark hmark hruns hregex

end Lexes

/-! ## Runs of the lexer -/

variable {pos : Nat} {t : Text} {tokens : List Token} {fault : Malformed × Nat}

/-- The last code token, when this token has been read behind it. -/
def codeBehind (previous : Option Token) (t : Token) : Option Token :=
  if t.kind = .comment then previous else some t

/-- The token that takes `n` characters of `r` along, where `c :: r` stands at this offset. -/
def tokenAt (pos : Nat) (c : Char) (r : Text) (kind : TokenKind) (n : Nat) : Token :=
  ⟨kind, String.ofList (c :: r.take n), pos⟩

@[simp] theorem start_tokenAt : (tokenAt pos c r kind n).start = pos := rfl

@[simp] theorem kind_tokenAt : (tokenAt pos c r kind n).kind = kind := rfl

@[simp] theorem toList_text_tokenAt : (tokenAt pos c r kind n).text.toList = c :: r.take n :=
  String.toList_ofList

theorem Lexes.stop_tokenAt [Limits] (pos : Nat) (h : Lexes regexes c r kind n) :
    (tokenAt pos c r kind n).stop = pos + 1 + n := by
  have hn := h.length_le
  simp only [Token.stop, tokenAt, String.length_ofList, List.length_cons, List.length_take]
  omega

/-- The text, which stands at an offset and behind a code token, is blanks and these tokens. -/
inductive SplitsInto [Limits] : Nat → Option Token → Text → List Token → Prop
  | nil {pos : Nat} {previous : Option Token} : SplitsInto pos previous [] []
  | blank {pos : Nat} {previous : Option Token} {c : Char} {r : Text} {tokens : List Token} :
    isBlank c = true → SplitsInto (pos + 1) previous r tokens →
      SplitsInto pos previous (c :: r) tokens
  | token {pos n : Nat} {previous : Option Token} {c : Char} {r : Text} {kind : TokenKind}
      {tokens : List Token} :
    isBlank c = false → Lexes (regexMayFollow previous) c r kind n →
      SplitsInto (pos + 1 + n) (codeBehind previous (tokenAt pos c r kind n)) (r.drop n) tokens →
        SplitsInto pos previous (c :: r) (tokenAt pos c r kind n :: tokens)

/-- Behind blanks and tokens of the text something has no end or goes too deep. -/
inductive BreaksOff [Limits] : Nat → Option Token → Text → Malformed × Nat → Prop
  | blank {pos : Nat} {previous : Option Token} {c : Char} {r : Text} {fault : Malformed × Nat} :
    isBlank c = true → BreaksOff (pos + 1) previous r fault →
      BreaksOff pos previous (c :: r) fault
  | fails {pos offset : Nat} {previous : Option Token} {c : Char} {r : Text} {cause : Malformed} :
    isBlank c = false → Fails (regexMayFollow previous) c r (cause, offset) →
      BreaksOff pos previous (c :: r) (cause, pos + offset)
  | token {pos n : Nat} {previous : Option Token} {c : Char} {r : Text} {kind : TokenKind}
      {fault : Malformed × Nat} :
    isBlank c = false → Lexes (regexMayFollow previous) c r kind n →
      BreaksOff (pos + 1 + n) (codeBehind previous (tokenAt pos c r kind n)) (r.drop n) fault →
        BreaksOff pos previous (c :: r) fault

/-- All that the lexer answers for a text: its tokens, or the fault that it breaks off with. -/
theorem tokensFrom_cases [Limits] (pos : Nat) (previous : Option Token) (t : Text) :
    (∃ tokens, tokensFrom pos previous t = .ok tokens ∧ SplitsInto pos previous t tokens) ∨
      ∃ fault, tokensFrom pos previous t = .error fault ∧ BreaksOff pos previous t fault := by
  fun_induction tokensFrom pos previous t with
  | case1 => exact Or.inl ⟨[], rfl, .nil⟩
  | case2 pos previous c r hblank ih =>
    rcases ih with ⟨tokens, hanswer, hrest⟩ | ⟨fault, hanswer, hrest⟩
    · exact Or.inl ⟨tokens, hanswer, .blank hblank hrest⟩
    · exact Or.inr ⟨fault, hanswer, .blank hblank hrest⟩
  | case3 pos previous c r hblank cause offset hlexeme =>
    exact Or.inr ⟨_, rfl, .fails (by simpa using hblank) (fails_of_lexeme hlexeme)⟩
  | case4 pos previous c r hblank kind n hlexeme first =>
    rename_i previous' ih
    have hblank' : isBlank c = false := by simpa using hblank
    rcases ih with ⟨tokens, hanswer, hrest⟩ | ⟨fault, hanswer, hrest⟩
    · exact Or.inl ⟨_, by rw [hanswer]; rfl, .token hblank' (lexeme_eq_ok_iff.mp hlexeme) hrest⟩
    · exact Or.inr ⟨fault, by rw [hanswer]; rfl, .token hblank' (lexeme_eq_ok_iff.mp hlexeme) hrest⟩

theorem splitsInto_of_tokensFrom [Limits] (h : tokensFrom pos previous t = .ok tokens) :
    SplitsInto pos previous t tokens := by
  rcases tokensFrom_cases pos previous t with ⟨tokens', hanswer, hsplits⟩ | ⟨fault, hanswer, -⟩
  · cases hanswer.symm.trans h
    exact hsplits
  · cases hanswer.symm.trans h

theorem breaksOff_of_tokensFrom [Limits] (h : tokensFrom pos previous t = .error fault) :
    BreaksOff pos previous t fault := by
  rcases tokensFrom_cases pos previous t with ⟨tokens, hanswer, -⟩ | ⟨fault', hanswer, hbreaks⟩
  · cases hanswer.symm.trans h
  · cases hanswer.symm.trans h
    exact hbreaks

theorem tokensFrom_of_splitsInto [Limits] (h : SplitsInto pos previous t tokens) :
    tokensFrom pos previous t = .ok tokens := by
  induction h with
  | nil => exact tokensFrom_nil _ _
  | blank hblank _ ih => rw [tokensFrom_cons, if_pos hblank, ih]
  | @token pos n previous c r kind tokens hblank hlexes _ ih =>
    rw [tokensFrom_cons, if_neg (by simp [hblank]), lexeme_of_lexes hlexes]
    exact congrArg (Except.map (tokenAt pos c r kind n :: ·)) ih

/-- A text is read as tokens exactly when it splits into them. -/
theorem tokensFrom_eq_ok_iff [Limits] :
    tokensFrom pos previous t = .ok tokens ↔ SplitsInto pos previous t tokens :=
  ⟨splitsInto_of_tokensFrom, tokensFrom_of_splitsInto⟩

theorem tokensFrom_of_tokenize [Limits] {t : Text} {tokens : List Token}
    (h : tokenize t = .ok tokens) :
    tokensFrom 0 none t = .ok tokens := by
  rw [tokenize] at h
  cases hfrom : tokensFrom 0 none t with
  | error e => simp [hfrom, Except.mapError] at h
  | ok found => simpa [hfrom, Except.mapError] using h

end WasmPackage.Script
