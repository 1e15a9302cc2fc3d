import Mathlib.Data.List.Infix
import WasmPackage.Proofs.Script.Reading

/-!
# Comments in front of scripts

A block comment ends at the first `*/` behind its opening.  So a text put into a comment ends it
early exactly if that mark is in the text, and a whole comment in front of a script leaves the
tokens of the script as they are, each further back.
-/

namespace WasmPackage.Script

variable {pos k : Nat} {previous : Option Token} {c : Char} {r s t v : Text} {w : String}
  {tokens : List Token}

/-! ## Where a comment ends -/

theorem infix_cons_cons_iff {α : Type} {x y a : α} {l : List α} :
    [x, y] <:+: a :: l ↔ (a = x ∧ l.head? = some y) ∨ [x, y] <:+: l := by
  rw [List.infix_cons_iff, List.cons_prefix_cons]
  refine or_congr (and_congr_left' eq_comm) Iff.rfl |>.trans ?_
  cases l with
  | nil => simp
  | cons b l => simp [List.cons_prefix_cons, eq_comm]

/-- Two characters in a row stand in one of two texts if they cannot stand on both sides of the
joint. -/
theorem infix_append_iff_of_joint {α : Type} {x y : α} {l l' : List α}
    (h : l.getLast? = some x → l'.head? ≠ some y) :
    [x, y] <:+: l ++ l' ↔ [x, y] <:+: l ∨ [x, y] <:+: l' := by
  induction l with
  | nil => simp
  | cons a l ih =>
    rw [List.cons_append, infix_cons_cons_iff, infix_cons_cons_iff]
    cases l with
    | nil =>
      have hjoint : ¬ (a = x ∧ l'.head? = some y) := by
        rintro ⟨rfl, hhead⟩
        exact h rfl hhead
      simp [hjoint]
    | cons b l =>
      have hrest := ih (by simpa [List.getLast?_cons_cons] using h)
      rw [hrest, or_assoc]
      simp

/-- The mark that ends a comment. -/
def commentEnd : Text := ['*', '/']

theorem blockCommentLength?_eq_none_iff :
    blockCommentLength? r = none ↔ ¬ commentEnd <:+: r := by
  unfold commentEnd
  fun_induction blockCommentLength? r with
  | case1 r => simp [infix_cons_cons_iff]
  | case2 c r hend ih =>
    have hfirst : ¬ (c = '*' ∧ r.head? = some '/') := by
      rintro ⟨rfl, hhead⟩
      obtain ⟨s, rfl⟩ := List.head?_eq_some_iff.mp hhead
      exact hend s rfl rfl
    rw [Option.map_eq_none_iff, ih, infix_cons_cons_iff]
    simp [hfirst]
  | case3 => simp

/-- A comment whose text has no mark of an end ends behind the text. -/
theorem blockCommentLength?_of_not_infix (h : ¬ commentEnd <:+: v) :
    blockCommentLength? (v ++ '*' :: '/' :: r) = some (v.length + 2) := by
  unfold commentEnd at h
  induction v with
  | nil => rfl
  | cons c v ih =>
    rw [infix_cons_cons_iff, not_or] at h
    rw [List.cons_append, blockCommentLength?, ih h.2]
    · rfl
    · rintro s rfl hs
      cases v with
      | nil => cases hs
      | cons d v =>
        cases hs
        exact h.1 ⟨rfl, rfl⟩

/-- A comment whose text has a mark of an end ends within the text. -/
theorem blockCommentLength?_of_infix (h : commentEnd <:+: v) :
    ∃ n ≤ v.length, ∀ r, blockCommentLength? (v ++ r) = some n := by
  have hsome : blockCommentLength? v ≠ none := fun hnone =>
    blockCommentLength?_eq_none_iff.mp hnone h
  obtain ⟨n, hn⟩ := Option.ne_none_iff_exists'.mp hsome
  obtain ⟨-, hle, hstable⟩ := blockCommentLength?_eq_some hn
  refine ⟨n, hle, fun r => ?_⟩
  have hsame := hstable (v.drop n ++ r)
  rwa [← List.append_assoc, List.take_append_drop] at hsame

/-! ## Scripts that stand further back -/

/-- The token at a place further back. -/
def Token.moved (k : Nat) (t : Token) : Token :=
  { t with start := t.start + k }

theorem lexeme_moved
    [Limits] : lexeme (previous.map (Token.moved k)) c r = lexeme previous c r := by
  have hflag : regexMayFollow (previous.map (Token.moved k)) = regexMayFollow previous := by
    cases previous with
    | none => rfl
    | some t => exact regexMayFollow_eq_of_face rfl
  simp only [lexeme, hflag]

/-- A script that stands further back has the same tokens, and the same fault, further back. -/
theorem tokensFrom_moved [Limits] (k pos : Nat) (previous : Option Token) (t : Text) :
    tokensFrom (pos + k) (previous.map (Token.moved k)) t =
      ((tokensFrom pos previous t).map (List.map (Token.moved k))).mapError
        (fun fault => (fault.1, fault.2 + k)) := by
  fun_induction tokensFrom pos previous t with
  | case1 => rw [tokensFrom_nil]; rfl
  | case2 pos previous c r hblank ih =>
    rw [tokensFrom_cons, if_pos hblank, ← ih]
    congr 1
    omega
  | case3 pos previous c r hblank cause offset hlexeme =>
    rw [tokensFrom_cons, if_neg hblank, lexeme_moved, hlexeme]
    simp only [Except.map, Except.mapError, Except.error.injEq, Prod.mk.injEq, true_and]
    omega
  | case4 pos previous c r hblank kind n hlexeme first =>
    rename_i behind ih
    have hbehind : (if kind = .comment then previous.map (Token.moved k)
        else some ⟨kind, String.ofList (c :: r.take n), pos + k⟩) = behind.map (Token.moved k) := by
      by_cases hcomment : kind = .comment
      · simp [behind, hcomment]
      · simp only [behind, hcomment, if_false, dif_neg, not_false_eq_true]
        rfl
    have hpos : pos + k + 1 + n = pos + 1 + n + k := by omega
    rw [tokensFrom_cons, if_neg hblank, lexeme_moved, hlexeme]
    simp only [hbehind, hpos, ih]
    cases tokensFrom (pos + 1 + n) behind (r.drop n) <;> rfl

/-- Behind a gap of blanks a script has its tokens, further back. -/
theorem tokensFrom_none_moved [Limits] (k : Nat) (t : Text) :
    tokensFrom k none t =
      ((tokensFrom 0 none t).map (List.map (Token.moved k))).mapError
        (fun fault => (fault.1, fault.2 + k)) := by
  have h := tokensFrom_moved k 0 none t
  rwa [Nat.zero_add] at h

/-! ## Comments and lines -/

/-- The comment that fills a text up to its last character. -/
def commentOf (header : Text) : Token :=
  ⟨.comment, String.ofList header.dropLast, 0⟩

/-- A comment on lines of its own whose text has no mark of an end is one token, and the script
behind it is read as it is by itself. -/
theorem tokensFrom_comment [Limits] (h : ¬ commentEnd <:+: v) (t : Text) :
    tokensFrom 0 none ('/' :: '*' :: (v ++ ['*', '/', '\n']) ++ t) =
      (tokensFrom (v.length + 5) none t).map
        (commentOf ('/' :: '*' :: (v ++ ['*', '/', '\n'])) :: ·) := by
  have hlength : blockCommentLength? (v ++ ['*', '/']) = some (v.length + 2) :=
    blockCommentLength?_of_not_infix h
  have htext : ('/' :: '*' :: (v ++ ['*', '/', '\n'])).dropLast =
      '/' :: '*' :: (v ++ ['*', '/']) := by
    rw [← List.cons_append, ← List.cons_append, List.dropLast_append_of_ne_nil (by simp)]
    rfl
  have hlexeme : IsLexeme true (commentOf ('/' :: '*' :: (v ++ ['*', '/', '\n']))) := by
    refine ⟨'/', '*' :: (v ++ ['*', '/']), ?_, by decide, ?_⟩
    · rw [commentOf, htext, String.toList_ofList]
    · have hlexes : Lexes true '/' ('*' :: (v ++ ['*', '/'])) .comment (v.length + 2 + 1) :=
        .blockComment hlength
      simpa [commentOf] using hlexes
  have hruns : runsOn .comment (String.ofList ('/' :: '*' :: (v ++ ['*', '/']))).toList
      ('\n' :: t) = false := by
    simp [runsOn, Text.startsWith, List.isPrefixOf]
  have hstop : 0 + (String.ofList ('/' :: '*' :: (v ++ ['*', '/']))).length = v.length + 4 := by
    rw [String.length_ofList]
    simp
  have hnewline : isBlank '\n' = true := by decide
  rw [commentOf, htext] at hlexeme ⊢
  have hread : tokensFrom 0 none _ = _ := tokensFrom_append_of_isLexeme hlexeme hruns
  rw [String.toList_ofList, hstop, codeBehind, if_pos rfl, tokensFrom_cons,
    if_pos hnewline] at hread
  simpa only [List.cons_append, List.append_assoc, List.nil_append] using hread

/-- A comment whose text has a mark of an end is another token than one that fills it. -/
theorem tokensFrom_comment_ne [Limits] (h : commentEnd <:+: v) (t : Text) :
    tokensFrom 0 none ('/' :: '*' :: (v ++ ['*', '/', '\n']) ++ t) ≠
      .ok (commentOf ('/' :: '*' :: (v ++ ['*', '/', '\n'])) :: tokens) := by
  intro hread
  obtain ⟨n, hle, hends⟩ := blockCommentLength?_of_infix h
  have hlexes : Lexes (regexMayFollow none) '/' ('*' :: (v ++ (['*', '/', '\n'] ++ t)))
      .comment (n + 1) := .blockComment (hends _)
  have hblank : ¬ isBlank '/' = true := by decide
  have hsplit : '/' :: '*' :: (v ++ ['*', '/', '\n']) ++ t =
      '/' :: '*' :: (v ++ (['*', '/', '\n'] ++ t)) := by simp
  rw [hsplit, tokensFrom_cons, if_neg hblank, lexeme_of_lexes hlexes] at hread
  cases hrest : tokensFrom (0 + 1 + (n + 1)) none
      (('*' :: (v ++ (['*', '/', '\n'] ++ t))).drop (n + 1)) with
  | error fault => simp only [if_true, hrest, Except.map, reduceCtorEq] at hread
  | ok rest =>
    simp only [hrest, Except.map, if_true, Except.ok.injEq, List.cons.injEq] at hread
    have hlength := congrArg (fun x => x.text.length) hread.1
    simp only [commentOf, String.length_ofList] at hlength
    simp at hlength
    omega

end WasmPackage.Script
