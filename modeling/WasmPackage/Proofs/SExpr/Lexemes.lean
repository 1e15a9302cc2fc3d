import WasmPackage.Proofs.Text.Runs
import WasmPackage.SExpr.Reader

/-!
# Lexemes

The rules for the lexeme at the front of a text, one for each kind of lexeme, and what may stand
behind one: a lexeme stays the same when other text comes behind it, unless the two fuse.
-/

namespace WasmPackage.SExpr

/-- The lexeme at the front of `c :: r` takes `n` characters of `r` along. -/
inductive Lexes : Char → Text → Lexeme → Nat → Prop
  | blank {c : Char} {r : Text} : isSeparator c = true → Lexes c r .gap 0
  | lineComment {r : Text} :
    Lexes ';' (';' :: r) .gap (((';' :: r).takeWhile (· ≠ '\n')).length + 1)
  | blockComment {r : Text} {n : Nat} :
    blockCommentLength? 1 r = some n → Lexes '(' (';' :: r) .gap (n + 1)
  | opening {r : Text} : r.head? ≠ some ';' → Lexes '(' r .openParen 0
  | closing {r : Text} : Lexes ')' r .closeParen 0
  | string {r : Text} {n : Nat} : stringLength? r = some n → Lexes '"' r .atom n
  | quotedName {r : Text} {n : Nat} :
    stringLength? r = some n → Lexes '$' ('"' :: r) .atom (n + 1)
  | word {c : Char} {r : Text} :
    isDelimiter c = false → (c = '$' → r.head? ≠ some '"') →
      Lexes c r .atom (r.takeWhile (fun d => !isDelimiter d)).length

/-! ## The rules are those of the reader -/

theorem startsWith_singleton {r : Text} {c : Char} :
    r.startsWith [c] = true ↔ r.head? = some c := by
  cases r with
  | nil => simp [Text.startsWith]
  | cons d r =>
    simp only [Text.startsWith, List.isPrefixOf, Bool.and_true, beq_iff_eq, List.head?_cons,
      Option.some.injEq]
    exact eq_comm

theorem lexes_of_lexeme {c : Char} {r : Text} {kind : Lexeme} {n : Nat}
    (h : lexeme c r = .ok (kind, n)) : Lexes c r kind n := by
  -- the tests of the reader, one after the other
  unfold lexeme at h
  split at h
  case isTrue hblank =>
    cases h
    exact .blank hblank
  case isFalse hblank =>
  split at h
  case isTrue hsemicolon =>
    subst hsemicolon
    split at h
    case isTrue hstarts =>
      rcases List.head?_eq_some_iff.mp (startsWith_singleton.mp hstarts) with ⟨r, rfl⟩
      cases h
      exact .lineComment
    case isFalse => cases h
  case isFalse hsemicolon =>
  split at h
  case isTrue hparen =>
    subst hparen
    split at h
    case isTrue hstarts =>
      rcases List.head?_eq_some_iff.mp (startsWith_singleton.mp hstarts) with ⟨r, rfl⟩
      simp only [List.drop_succ_cons, List.drop_zero] at h
      split at h
      case h_1 n hlength =>
        cases h
        exact .blockComment hlength
      case h_2 => cases h
    case isFalse hstarts =>
      cases h
      exact .opening (fun hhead => hstarts (startsWith_singleton.mpr hhead))
  case isFalse hparen =>
  split at h
  case isTrue hclose =>
    subst hclose
    cases h
    exact .closing
  case isFalse hclose =>
  split at h
  case isTrue hquote =>
    subst hquote
    split at h
    case h_1 n hlength =>
      cases h
      exact .string hlength
    case h_2 => cases h
  case isFalse hquote =>
  split at h
  case isTrue hname =>
    rw [Bool.and_eq_true, decide_eq_true_eq] at hname
    rcases hname with ⟨rfl, hstarts⟩
    rcases List.head?_eq_some_iff.mp (startsWith_singleton.mp hstarts) with ⟨r, rfl⟩
    simp only [List.drop_succ_cons, List.drop_zero] at h
    split at h
    case h_1 n hlength =>
      cases h
      exact .quotedName hlength
    case h_2 => cases h
  case isFalse hname =>
    cases h
    refine .word ?_ ?_
    · simp_all [isDelimiter]
    · rintro rfl hhead
      exact hname (by simp [startsWith_singleton.mpr hhead])

theorem lexeme_of_lexes {c : Char} {r : Text} {kind : Lexeme} {n : Nat}
    (h : Lexes c r kind n) : lexeme c r = .ok (kind, n) := by
  cases h with
  | blank hblank => simp [lexeme, hblank]
  | lineComment => simp [lexeme, isSeparator, Text.startsWith]
  | blockComment hlength => simp [lexeme, isSeparator, Text.startsWith, hlength]
  | opening hhead =>
    have hstarts : r.startsWith [';'] = false := by
      rw [Bool.eq_false_iff, Ne, startsWith_singleton]
      exact hhead
    simp [lexeme, isSeparator, hstarts]
  | closing => simp [lexeme, isSeparator]
  | string hlength => simp [lexeme, isSeparator, hlength]
  | quotedName hlength => simp [lexeme, isSeparator, Text.startsWith, hlength]
  | word hdelimiter hname =>
    have hstarts : (decide (c = '$') && r.startsWith ['"']) = false := by
      rw [Bool.and_eq_false_iff]
      by_cases hc : c = '$'
      · right
        rw [Bool.eq_false_iff, Ne, startsWith_singleton]
        exact hname hc
      · left
        simpa using hc
    simp only [isDelimiter, Bool.or_eq_false_iff, decide_eq_false_iff_not] at hdelimiter
    rcases hdelimiter with ⟨⟨⟨⟨hblank, hopen⟩, hclose⟩, hquote⟩, hsemicolon⟩
    simp only [lexeme, hblank, hopen, hclose, hquote, hsemicolon, hstarts, if_false,
      Bool.false_eq_true]

theorem lexeme_eq_ok_iff {c : Char} {r : Text} {kind : Lexeme} {n : Nat} :
    lexeme c r = .ok (kind, n) ↔ Lexes c r kind n :=
  ⟨lexes_of_lexeme, lexeme_of_lexes⟩

/-! ## What stands behind a lexeme -/

/-- Do two characters run together, of which the first stands behind `before`?  Two words become
one, a parenthesis and a semicolon begin a comment, and a lone dollar sign and a string become a
name. -/
def fuse (before : Option Char) (x y : Char) : Bool :=
  (!isDelimiter x && !isDelimiter y) || (x = '(' && y = ';') ||
    (x = '$' && y = '"' && before.all isDelimiter)

/-- Do the characters on the two sides of a place run together there? -/
def fuses (before after : Text) : Bool :=
  match before.getLast?, after.head? with
  | some x, some y => fuse before.dropLast.getLast? x y
  | _, _ => false

@[simp] theorem fuses_nil_right {before : Text} : fuses before [] = false := by
  simp [fuses]

theorem fuses_concat {before r : Text} {x y : Char} :
    fuses (before ++ [x]) (y :: r) = fuse before.getLast? x y := by
  simp [fuses]

/-- Only the first character behind a place matters. -/
theorem fuses_congr {before after after' : Text} (h : after.head? = after'.head?) :
    fuses before after = fuses before after' := by
  simp only [fuses, h]

/-- What stands further in front can only keep a lone dollar sign apart. -/
theorem fuses_append_left {u w after : Text} (hw : w ≠ []) (h : fuses w after = false) :
    fuses (u ++ w) after = false := by
  rcases List.eq_nil_or_concat w |>.resolve_left hw with ⟨v, x, rfl⟩
  cases after with
  | nil => exact fuses_nil_right
  | cons y r =>
    rw [List.concat_eq_append] at h ⊢
    rw [← List.append_assoc, fuses_concat]
    rw [fuses_concat] at h
    simp only [fuse, Bool.or_eq_false_iff] at h ⊢
    refine ⟨h.1, ?_⟩
    rcases List.eq_nil_or_concat v with rfl | ⟨v, z, rfl⟩
    · have halone : (decide (x = '$') && decide (y = '"')) = false := by simpa using h.2
      rw [halone, Bool.false_and]
    · simpa using h.2

/-- A lexeme between two places where nothing fuses does not fuse by itself either. -/
theorem not_fuses_of_append {u w after : Text} (hw : w ≠ [])
    (hbefore : fuses u (w ++ after) = false)
    (hbehind : fuses (u ++ w) after = false) : fuses w after = false := by
  rcases List.eq_nil_or_concat w |>.resolve_left hw with ⟨v, x, rfl⟩
  cases after with
  | nil => exact fuses_nil_right
  | cons y r =>
    rw [List.concat_eq_append] at hbefore hbehind ⊢
    rw [← List.append_assoc, fuses_concat] at hbehind
    rw [fuses_concat]
    rcases List.eq_nil_or_concat v with rfl | ⟨v, z, rfl⟩
    · rcases List.eq_nil_or_concat u with rfl | ⟨u, z, rfl⟩
      · exact hbehind
      · -- a dollar sign behind a word belongs to the word
        rw [List.concat_eq_append, List.nil_append, List.singleton_append, fuses_concat] at hbefore
        simp only [fuse, Bool.or_eq_false_iff] at hbefore hbehind ⊢
        refine ⟨hbehind.1, ?_⟩
        have hword := hbefore.1.1
        have hquote := hbehind.2
        cases hz : isDelimiter z with
        | true => simpa [hz] using hquote
        | false =>
          have hx : isDelimiter x = true := by simpa [hz] using hword
          have hdollar : x ≠ '$' := by
            rintro rfl
            cases hx
          simp [hdollar]
    · simpa using hbehind

/-! ## Comments and strings end by themselves -/

/-- A block comment has an end, which does not depend on what comes behind it. -/
theorem blockCommentLength?_eq_some {depth n : Nat} {r : Text}
    (h : blockCommentLength? depth r = some n) :
    2 ≤ n ∧ n ≤ r.length ∧ (r.take n).getLast? = some ')' ∧
      ∀ r', blockCommentLength? depth (r.take n ++ r') = some n := by
  fun_induction blockCommentLength? depth r generalizing n with
  | case1 depth r ih =>
    rcases Option.map_eq_some_iff.mp h with ⟨m, hm, rfl⟩
    rcases ih hm with ⟨htwo, hle, hlast, hstable⟩
    refine ⟨by omega, by simpa using hle, ?_, ?_⟩
    · simp [List.getLast?_cons, hlast]
    · intro r'
      simp [blockCommentLength?, hstable r']
  | case2 depth r hdepth =>
    cases h
    refine ⟨Nat.le_refl _, by simp, by simp, ?_⟩
    intro r'
    simp [blockCommentLength?, hdepth]
  | case3 depth r hdepth ih =>
    rcases Option.map_eq_some_iff.mp h with ⟨m, hm, rfl⟩
    rcases ih hm with ⟨htwo, hle, hlast, hstable⟩
    refine ⟨by omega, by simpa using hle, ?_, ?_⟩
    · simp [List.getLast?_cons, hlast]
    · intro r'
      simp [blockCommentLength?, hdepth, hstable r']
  | case4 depth c r hopen hclose ih =>
    rcases Option.map_eq_some_iff.mp h with ⟨m, hm, rfl⟩
    rcases ih hm with ⟨htwo, hle, hlast, hstable⟩
    refine ⟨by omega, by simpa using hle, ?_, ?_⟩
    · simp [List.getLast?_cons, hlast]
    · intro r'
      -- the rest has characters, so that the cases of the definition can be told apart
      rcases List.length_pos_iff_exists_cons.mp (show 0 < r.length by omega) with ⟨d, r, rfl⟩
      rcases Nat.exists_eq_add_one_of_ne_zero (show m ≠ 0 by omega) with ⟨m, rfl⟩
      have hbehind := hstable r'
      simp only [List.take_succ_cons, List.cons_append] at hbehind ⊢
      rw [blockCommentLength?, hbehind]
      · rfl
      · rintro s rfl h
        cases h
        exact hopen _ rfl rfl
      · rintro s rfl h
        cases h
        exact hclose _ rfl rfl
  | case5 depth => cases h

/-- A string has an end, which does not depend on what comes behind it. -/
theorem stringLength?_eq_some {n : Nat} {r : Text} (h : stringLength? r = some n) :
    1 ≤ n ∧ n ≤ r.length ∧ (r.take n).getLast? = some '"' ∧
      ∀ r', stringLength? (r.take n ++ r') = some n := by
  fun_induction stringLength? r generalizing n with
  | case1 c r ih =>
    rcases Option.map_eq_some_iff.mp h with ⟨m, hm, rfl⟩
    rcases ih hm with ⟨hone, hle, hlast, hstable⟩
    refine ⟨by omega, by simpa using hle, ?_, ?_⟩
    · simp [List.getLast?_cons, hlast]
    · intro r'
      simp [stringLength?, hstable r']
  | case2 => cases h
  | case3 r =>
    cases h
    refine ⟨Nat.le_refl _, by simp, by simp, ?_⟩
    intro r'
    simp [stringLength?]
  | case4 c r hescape hlone hquote ih =>
    rcases Option.map_eq_some_iff.mp h with ⟨m, hm, rfl⟩
    rcases ih hm with ⟨hone, hle, hlast, hstable⟩
    refine ⟨by omega, by simpa using hle, ?_, ?_⟩
    · simp [List.getLast?_cons, hlast]
    · intro r'
      -- the rest has characters, so that the cases of the definition can be told apart
      rcases List.length_pos_iff_exists_cons.mp (show 0 < r.length by omega) with ⟨d, r, rfl⟩
      rcases Nat.exists_eq_add_one_of_ne_zero (show m ≠ 0 by omega) with ⟨m, rfl⟩
      have hbehind := hstable r'
      simp only [List.take_succ_cons, List.cons_append] at hbehind ⊢
      rw [stringLength?, hbehind]
      · rfl
      · rintro s u rfl h
        cases h
        exact hescape _ _ rfl rfl
      · rintro rfl h
        cases h
      · rintro rfl
        exact hquote rfl
  | case5 => cases h

theorem getLast?_append_string (before : Text) {r : Text} {n : Nat}
    (h : stringLength? r = some n) : (before ++ r.take n).getLast? = some '"' := by
  rcases stringLength?_eq_some h with ⟨-, -, hlast, -⟩
  rw [List.getLast?_append, hlast]
  rfl

/-- A line comment ends behind its newline, or with the text. -/
theorem take_lineComment (u : Text) :
    (∃ v, u.take ((u.takeWhile (· ≠ '\n')).length + 1) = v ++ ['\n'] ∧
      v = u.takeWhile (· ≠ '\n')) ∨
      u.takeWhile (· ≠ '\n') = u ∧ u.drop ((u.takeWhile (· ≠ '\n')).length + 1) = [] := by
  induction u with
  | nil => exact Or.inr ⟨rfl, rfl⟩
  | cons c r ih =>
    by_cases hc : c = '\n'
    · left
      exact ⟨[], by simp [hc]⟩
    · rcases ih with ⟨v, htake, rfl⟩ | ⟨hwhole, hdrop⟩
      · left
        exact ⟨c :: r.takeWhile (· ≠ '\n'), by simpa [hc] using htake⟩
      · right
        exact ⟨by simpa [hc] using hwhole, by simpa [hc] using hdrop⟩

/-! ## Lexemes in front of other text -/

/-- Behind a delimiter that is no opening parenthesis nothing fuses. -/
theorem not_fuses_of_delimiter {w after : Text} {x : Char} (hlast : w.getLast? = some x)
    (hx : isDelimiter x = true) (hparen : x ≠ '(') : fuses w after = false := by
  rcases List.getLast?_eq_some_iff.mp hlast with ⟨v, rfl⟩
  have hdollar : x ≠ '$' := by
    rintro rfl
    cases hx
  cases after with
  | nil => simp
  | cons y r => simp [fuses_concat, fuse, hx, hparen, hdollar]

/-- A word ends in a character that is no delimiter. -/
theorem exists_getLast?_word {c : Char} {w : Text} (hc : isDelimiter c = false)
    (hw : ∀ d ∈ w, isDelimiter d = false) :
    ∃ v x, c :: w = v ++ [x] ∧ isDelimiter x = false := by
  obtain ⟨v, x, hvx⟩ : ∃ v x, c :: w = v ++ [x] :=
    ⟨(c :: w).dropLast, (c :: w).getLast (List.cons_ne_nil c w),
      (List.dropLast_concat_getLast (List.cons_ne_nil c w)).symm⟩
  refine ⟨v, x, hvx, ?_⟩
  have hmem : x ∈ c :: w := by simp [hvx]
  rcases List.mem_cons.mp hmem with rfl | hmem
  · exact hc
  · exact hw x hmem

/-- A gap with something behind it ends in a blank or in the end of a comment. -/
theorem getLast?_of_gap {c : Char} {r : Text} {n : Nat} (h : Lexes c r .gap n)
    (hbehind : r.drop n ≠ []) :
    ∃ x, (c :: r.take n).getLast? = some x ∧ isDelimiter x = true ∧ x ≠ '(' := by
  cases h with
  | blank hblank =>
    refine ⟨c, by simp, by simp [isDelimiter, hblank], ?_⟩
    rintro rfl
    cases hblank
  | @lineComment r =>
    rcases take_lineComment (';' :: r) with ⟨v, htake, -⟩ | ⟨-, hdrop⟩
    · refine ⟨'\n', ?_, rfl, by decide⟩
      rw [htake, ← List.cons_append, List.getLast?_concat]
    · exact (hbehind hdrop).elim
  | @blockComment r n hlength =>
    rcases blockCommentLength?_eq_some hlength with ⟨-, -, hlast, -⟩
    exact ⟨')', by simp [List.getLast?_cons, hlast], rfl, by decide⟩

theorem not_fuses_of_gap {c : Char} {r : Text} {n : Nat} (h : Lexes c r .gap n) :
    fuses (c :: r.take n) (r.drop n) = false := by
  by_cases hbehind : r.drop n = []
  · rw [hbehind, fuses_nil_right]
  · rcases getLast?_of_gap h hbehind with ⟨x, hlast, hx, hparen⟩
    exact not_fuses_of_delimiter hlast hx hparen

theorem isDelimiter_of_mem_takeWhile {r : Text} {d : Char}
    (h : d ∈ r.takeWhile (fun d => !isDelimiter d)) : isDelimiter d = false := by
  simpa using List.mem_takeWhile_imp h

namespace Lexes

variable {c : Char} {r r' : Text} {kind : Lexeme} {n : Nat}

/-- A lexeme does not fuse with what stands behind it. -/
theorem not_fuses (h : Lexes c r kind n) : fuses (c :: r.take n) (r.drop n) = false := by
  -- all but an opening parenthesis and a word end in a delimiter that begins nothing
  cases h with
  | blank hblank => exact not_fuses_of_gap (.blank hblank)
  | lineComment => exact not_fuses_of_gap .lineComment
  | blockComment hlength => exact not_fuses_of_gap (.blockComment hlength)
  | opening hhead =>
    cases r with
    | nil => simp
    | cons y r =>
      have hy : y ≠ ';' := by
        rintro rfl
        exact hhead rfl
      have hfuses : fuses ([] ++ ['(']) (y :: r) = fuse none '(' y := fuses_concat
      have hfuse : fuse none '(' y = false := by simp [fuse, isDelimiter, hy]
      exact hfuses.trans hfuse
  | closing => exact not_fuses_of_delimiter (x := ')') (by simp) rfl (by decide)
  | string hlength =>
    exact not_fuses_of_delimiter (getLast?_append_string ['"'] hlength) rfl (by decide)
  | quotedName hlength =>
    exact not_fuses_of_delimiter (getLast?_append_string ['$', '"'] hlength) rfl (by decide)
  | word hc hname =>
    obtain ⟨v, x, hvx, hx⟩ := exists_getLast?_word hc
      (fun d hd => isDelimiter_of_mem_takeWhile (r := r) hd)
    rw [take_takeWhile, drop_takeWhile, hvx]
    cases hdrop : r.dropWhile (fun d => !isDelimiter d) with
    | nil => simp
    | cons y s =>
      have hhead := List.head?_dropWhile_not (fun d => !isDelimiter d) r
      rw [hdrop] at hhead
      have hy : isDelimiter y = true := by simpa using hhead
      have hparen : x ≠ '(' := by
        rintro rfl
        cases hx
      -- a lone dollar sign in front of a quotation mark would have begun a quoted name
      have hquote : (x = '$' && y = '"' && v.getLast?.all isDelimiter) = false := by
        rw [Bool.eq_false_iff]
        intro hall
        simp only [Bool.and_eq_true, decide_eq_true_eq] at hall
        rcases hall with ⟨⟨rfl, rfl⟩, hv⟩
        rcases List.eq_nil_or_concat v with rfl | ⟨v', z, rfl⟩
        · rcases List.cons.inj hvx with ⟨rfl, hempty⟩
          have hr : r = '"' :: s := by
            rw [← List.takeWhile_append_dropWhile (p := fun d => !isDelimiter d) (l := r), hempty,
              hdrop]
            rfl
          exact hname rfl (by rw [hr]; rfl)
        · have hz : isDelimiter z = true := by simpa using hv
          have hmem : z ∈ c :: r.takeWhile (fun d => !isDelimiter d) := by simp [hvx]
          rcases List.mem_cons.mp hmem with rfl | hmem
          · rw [hc] at hz
            cases hz
          · rw [isDelimiter_of_mem_takeWhile hmem] at hz
            cases hz
      rw [fuses_concat, fuse, hx, hy, hquote]
      simp [hparen]

theorem of_lineComment (hhead : r.head? = some ';')
    (hn : n = (r.takeWhile (· ≠ '\n')).length + 1) : Lexes ';' r .gap n := by
  rcases List.head?_eq_some_iff.mp hhead with ⟨s, rfl⟩
  rw [hn]
  exact .lineComment

/-- A lexeme stays what it is in front of any text that it does not fuse with. -/
theorem stable (h : Lexes c r kind n) (hfuses : fuses (c :: r.take n) r' = false)
    (hend : r.drop n = [] → r' = []) : Lexes c (r.take n ++ r') kind n := by
  -- comments and strings end by themselves; a parenthesis or word may only not run on
  cases h with
  | blank hblank => exact .blank hblank
  | @lineComment r =>
    rcases take_lineComment (';' :: r) with ⟨v, htake, hv⟩ | ⟨hwhole, hdrop⟩
    · have hnone : ∀ d ∈ v, d ≠ '\n' := by
        intro d hd
        rw [hv] at hd
        simpa using List.mem_takeWhile_imp hd
      have hsame : (v ++ '\n' :: r').takeWhile (· ≠ '\n') = v := by
        rw [List.takeWhile_append_of_pos (by simpa using hnone)]
        simp
      rw [htake, ← hv, List.append_assoc, List.cons_append, List.nil_append]
      apply of_lineComment
      · simp [hv]
      · rw [hsame]
    · rw [hend hdrop, List.append_nil, hwhole, List.take_of_length_le (by simp)]
      have hlexes := lineComment (r := r)
      rwa [hwhole] at hlexes
  | @blockComment r n hlength =>
    rcases blockCommentLength?_eq_some hlength with ⟨-, -, -, hstable⟩
    exact .blockComment (hstable r')
  | opening hhead =>
    apply opening
    simp only [List.take_zero, List.nil_append]
    cases r' with
    | nil => simp
    | cons y s =>
      rintro ⟨rfl⟩
      simp [fuses, fuse] at hfuses
  | closing => exact .closing
  | string hlength =>
    rcases stringLength?_eq_some hlength with ⟨-, -, -, hstable⟩
    exact .string (hstable r')
  | @quotedName r n hlength =>
    rcases stringLength?_eq_some hlength with ⟨-, -, -, hstable⟩
    exact .quotedName (hstable r')
  | word hc hname =>
    rw [take_takeWhile] at hfuses ⊢
    have hword : ∀ d ∈ r.takeWhile (fun d => !isDelimiter d), isDelimiter d = false :=
      fun d hd => isDelimiter_of_mem_takeWhile hd
    have hsame : (r.takeWhile (fun d => !isDelimiter d) ++ r').takeWhile (fun d => !isDelimiter d) =
        r.takeWhile (fun d => !isDelimiter d) := by
      rw [List.takeWhile_append_of_pos (by simpa using hword)]
      cases r' with
      | nil => simp
      | cons y s =>
        rcases exists_getLast?_word hc hword with ⟨v, x, hvx, hx⟩
        rw [hvx, fuses_concat, fuse, hx] at hfuses
        simp only [Bool.or_eq_false_iff, Bool.not_false, Bool.true_and] at hfuses
        simp [hfuses.1.1]
    have hlexes := Lexes.word (r := r.takeWhile (fun d => !isDelimiter d) ++ r') hc ?_
    · rwa [hsame] at hlexes
    · rintro rfl hhead
      cases htake : r.takeWhile (fun d => !isDelimiter d) with
      | nil =>
        rw [htake] at hhead hfuses
        rcases List.head?_eq_some_iff.mp hhead with ⟨s, rfl⟩
        simp [fuses, fuse] at hfuses
      | cons d s =>
        rw [htake] at hhead hword
        cases hhead
        cases hword '"' List.mem_cons_self

/-- Only gaps begin with a separator. -/
theorem isSeparator_eq_false (h : Lexes c r kind n) (hkind : kind ≠ .gap) :
    isSeparator c = false := by
  cases h with
  | blank => exact (hkind rfl).elim
  | lineComment => rfl
  | blockComment => rfl
  | opening => rfl
  | closing => rfl
  | string => rfl
  | quotedName => rfl
  | word hc _ =>
    simp only [isDelimiter, Bool.or_eq_false_iff] at hc
    exact hc.1.1.1.1

/-- A lexeme that begins with a blank is that blank alone, or a word. -/
theorem of_isBlank (h : Lexes c r kind n) (hc : isBlank c = true) :
    kind = .gap ∧ n = 0 ∧ isSeparator c = true ∨
      kind = .atom ∧ ∀ d ∈ c :: r.take n, isDelimiter d = false := by
  cases h with
  | blank hblank => exact Or.inl ⟨rfl, rfl, hblank⟩
  | lineComment => cases hc
  | blockComment => cases hc
  | opening => cases hc
  | closing => cases hc
  | string => cases hc
  | quotedName => cases hc
  | word hdelimiter _ =>
    right
    refine ⟨rfl, ?_⟩
    intro d hd
    rw [take_takeWhile] at hd
    rcases List.mem_cons.mp hd with rfl | hd
    · exact hdelimiter
    · exact isDelimiter_of_mem_takeWhile hd

/-- A lexeme that goes on behind a newline ends in a character that is no blank. -/
theorem getLast?_of_newline {u v : Text} (h : Lexes c r kind n)
    (hsplit : c :: r.take n = u ++ '\n' :: v) (hv : v ≠ []) :
    ∃ x, (c :: r.take n).getLast? = some x ∧ isBlank x = false := by
  -- a lexeme of one character does not go on
  have hsingle : n = 0 → False := by
    rintro rfl
    have hlength := congrArg List.length hsplit
    have hpos := List.length_pos_iff.mpr hv
    simp at hlength
    omega
  cases h with
  | blank => exact (hsingle rfl).elim
  | @lineComment r =>
    exfalso
    -- the only newline of a line comment is its last character
    have hnone : '\n' ∉ ';' :: (';' :: r).takeWhile (· ≠ '\n') := by
      intro hmem
      rcases List.mem_cons.mp hmem with h | hmem
      · cases h
      · have := List.mem_takeWhile_imp hmem
        simp at this
    rcases take_lineComment (';' :: r) with ⟨w, htake, rfl⟩ | ⟨hwhole, -⟩
    · rw [htake] at hsplit
      rcases List.eq_nil_or_concat v |>.resolve_left hv with ⟨v, x, rfl⟩
      have hlast : ';' :: (';' :: r).takeWhile (· ≠ '\n') ++ ['\n'] = (u ++ '\n' :: v) ++ [x] := by
        rw [List.cons_append, hsplit, List.concat_eq_append, List.append_assoc, List.cons_append]
      have hfront := (List.append_inj' hlast rfl).1
      apply hnone
      rw [hfront]
      simp
    · rw [List.take_of_length_le (by rw [hwhole]; simp)] at hsplit
      apply hnone
      rw [hwhole, hsplit]
      simp
  | @blockComment r n hlength =>
    rcases blockCommentLength?_eq_some hlength with ⟨htwo, hle, hlast, -⟩
    exact ⟨')', by simp [List.getLast?_cons, hlast], rfl⟩
  | opening => exact (hsingle rfl).elim
  | closing => exact (hsingle rfl).elim
  | string hlength => exact ⟨'"', getLast?_append_string ['"'] hlength, rfl⟩
  | quotedName hlength => exact ⟨'"', getLast?_append_string ['$', '"'] hlength, rfl⟩
  | word hc hname =>
    exfalso
    have hmem : '\n' ∈ c :: r.takeWhile (fun d => !isDelimiter d) := by
      rw [take_takeWhile] at hsplit
      rw [hsplit]
      simp
    rcases List.mem_cons.mp hmem with rfl | hmem
    · cases hc
    · cases isDelimiter_of_mem_takeWhile hmem

end Lexes

end WasmPackage.SExpr
