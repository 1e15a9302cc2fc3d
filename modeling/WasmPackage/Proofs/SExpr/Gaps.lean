import WasmPackage.Proofs.SExpr.Pieces

/-!
# Gaps

What stands between the tokens of a text, said without the reader: a blank, a line comment, or a
block comment with the comments in it.  The main statements are `blockCommentLength?_eq_some_iff`,
for the reader finds the end of a block comment exactly where it is, and `isGap_of_lexes` and
`lexes_of_isGap`, for its gaps are these.
-/

namespace WasmPackage.SExpr

/-- A block comment without its `(;`, as far as the `;)` that ends it.  A comment in it is read as a
whole; all other characters stand for themselves, so that parentheses and semicolons may stand in it
alone. -/
inductive IsBlockRest : Text → Prop
  | ending : IsBlockRest [';', ')']
  | comment {u v : Text} :
    IsBlockRest u → IsBlockRest v → IsBlockRest ('(' :: ';' :: (u ++ v))
  | char {c : Char} {v : Text} :
    ¬ (c = '(' ∧ v.head? = some ';') → ¬ (c = ';' ∧ v.head? = some ')') →
      IsBlockRest v → IsBlockRest (c :: v)

/-- What may stand between two tokens when `after` stands behind it: a blank, a line comment with
its newline or at the end of the text, or a block comment. -/
inductive IsGap : Text → Text → Prop
  | blank {c : Char} {after : Text} : isSeparator c = true → IsGap [c] after
  | lineComment {u after : Text} : '\n' ∉ u → IsGap (';' :: ';' :: (u ++ ['\n'])) after
  | lastComment {u : Text} : '\n' ∉ u → IsGap (';' :: ';' :: u) []
  | blockComment {u after : Text} : IsBlockRest u → IsGap ('(' :: ';' :: u) after

/-! ## Block comments -/

theorem IsBlockRest.ne_nil {u : Text} (h : IsBlockRest u) : u ≠ [] := by
  cases h <;> simp

theorem blockCommentLength?_comment {depth : Nat} {r : Text} :
    blockCommentLength? depth ('(' :: ';' :: r) =
      (blockCommentLength? (depth + 1) r).map (· + 2) := by
  rw [blockCommentLength?]

theorem blockCommentLength?_char {depth : Nat} {c : Char} {r : Text}
    (hopen : ¬ (c = '(' ∧ r.head? = some ';')) (hclose : ¬ (c = ';' ∧ r.head? = some ')')) :
    blockCommentLength? depth (c :: r) = (blockCommentLength? depth r).map (· + 1) := by
  rw [blockCommentLength?]
  · rintro s rfl rfl
    exact hopen ⟨rfl, rfl⟩
  · rintro s rfl rfl
    exact hclose ⟨rfl, rfl⟩

/-- Behind the rest of a comment the reader goes on with the comment around it, if there is one. -/
theorem IsBlockRest.blockCommentLength? {u : Text} (h : IsBlockRest u) (depth : Nat) (r : Text) :
    SExpr.blockCommentLength? (depth + 1) (u ++ r) =
      if depth = 0 then some u.length
      else (SExpr.blockCommentLength? depth r).map (· + u.length) := by
  induction h generalizing depth r with
  | ending =>
    cases depth with
    | zero => simp [SExpr.blockCommentLength?]
    | succ depth => simp [SExpr.blockCommentLength?]
  | @comment u v hu hv ihu ihv =>
    have hinner := ihu (depth + 1) (v ++ r)
    rw [if_neg (Nat.succ_ne_zero depth), ihv depth r] at hinner
    rw [List.cons_append, List.cons_append, List.append_assoc, blockCommentLength?_comment, hinner]
    by_cases hdepth : depth = 0
    · simp [hdepth]
      omega
    · simp only [hdepth, if_false, Option.map_map]
      congr 1
      funext n
      simp only [Function.comp_apply, List.length_cons, List.length_append]
      omega
  | @char c v hopen hclose hv ih =>
    have hhead : (v ++ r).head? = v.head? := List.head?_append_of_ne_nil v hv.ne_nil
    rw [List.cons_append, blockCommentLength?_char (by rwa [hhead]) (by rwa [hhead]), ih]
    by_cases hdepth : depth = 0
    · simp [hdepth]
    · simp only [hdepth, if_false, Option.map_map]
      congr 1

/-- The length `n` that the reader finds behind `depth` open comments and one more, when the rest of
the innermost one takes `k` characters and `v` stands behind it. -/
def GoesOn (depth : Nat) (v : Text) (k n : Nat) : Prop :=
  if depth = 0 then n = k else ∃ m, blockCommentLength? depth v = some m ∧ n = m + k

theorem GoesOn.add {depth k n k' n' : Nat} {v : Text} (h : GoesOn depth v k n) (j : Nat)
    (hk : k' = k + j) (hn : n' = n + j) : GoesOn depth v k' n' := by
  subst hk hn
  unfold GoesOn at h ⊢
  split
  case isTrue hdepth =>
    rw [if_pos hdepth] at h
    rw [h]
  case isFalse hdepth =>
    rw [if_neg hdepth] at h
    rcases h with ⟨m, hm, rfl⟩
    exact ⟨m, hm, Nat.add_assoc m k j⟩

/-- The reader finds an end of a comment where the comments in it are read as wholes. -/
theorem exists_isBlockRest {depth n : Nat} {r : Text}
    (h : blockCommentLength? (depth + 1) r = some n) :
    ∃ u v, r = u ++ v ∧ IsBlockRest u ∧ GoesOn depth v u.length n := by
  -- on the length of the text: behind a comment the reader goes on in what is left of it
  induction hlength : r.length using Nat.strong_induction_on generalizing r depth n with
  | h length ih =>
  cases r with
  | nil => simp [blockCommentLength?] at h
  | cons c r =>
    by_cases hopen : c = '(' ∧ r.head? = some ';'
    · rcases hopen with ⟨rfl, hhead⟩
      rcases List.head?_eq_some_iff.mp hhead with ⟨r, rfl⟩
      rw [blockCommentLength?_comment] at h
      rcases Option.map_eq_some_iff.mp h with ⟨m, hm, rfl⟩
      simp only [List.length_cons] at hlength
      rcases ih r.length (by omega) hm rfl with ⟨u, v, rfl, hu, hbehind⟩
      rw [GoesOn, if_neg (Nat.succ_ne_zero depth)] at hbehind
      rcases hbehind with ⟨k, hk, rfl⟩
      rw [List.length_append] at hlength
      rcases ih v.length (by omega) hk rfl with ⟨u', v', rfl, hu', hrest⟩
      refine ⟨'(' :: ';' :: (u ++ u'), v', by simp, .comment hu hu', ?_⟩
      apply hrest.add (u.length + 2)
      · simp only [List.length_cons, List.length_append]
        omega
      · exact Nat.add_assoc k u.length 2
    · by_cases hclose : c = ';' ∧ r.head? = some ')'
      · rcases hclose with ⟨rfl, hhead⟩
        rcases List.head?_eq_some_iff.mp hhead with ⟨r, rfl⟩
        refine ⟨[';', ')'], r, rfl, .ending, ?_⟩
        rw [blockCommentLength?] at h
        unfold GoesOn
        split
        case isTrue hdepth =>
          rw [if_pos (by omega)] at h
          exact (Option.some.inj h).symm
        case isFalse hdepth =>
          rw [if_neg (by omega), Nat.add_sub_cancel] at h
          rcases Option.map_eq_some_iff.mp h with ⟨m, hm, rfl⟩
          exact ⟨m, hm, rfl⟩
      · rw [blockCommentLength?_char hopen hclose] at h
        rcases Option.map_eq_some_iff.mp h with ⟨m, hm, rfl⟩
        simp only [List.length_cons] at hlength
        rcases ih r.length (by omega) hm rfl with ⟨u, v, rfl, hu, hbehind⟩
        have hhead : (u ++ v).head? = u.head? := List.head?_append_of_ne_nil u hu.ne_nil
        rw [hhead] at hopen hclose
        exact ⟨c :: u, v, rfl, .char hopen hclose hu, hbehind.add 1 rfl rfl⟩

/-- The reader finds the end of a block comment exactly where it is. -/
theorem blockCommentLength?_eq_some_iff {n : Nat} {r : Text} :
    blockCommentLength? 1 r = some n ↔ n ≤ r.length ∧ IsBlockRest (r.take n) := by
  constructor
  · intro h
    rcases exists_isBlockRest h with ⟨u, v, rfl, hu, hn⟩
    rw [GoesOn, if_pos rfl] at hn
    subst hn
    rw [List.take_left, List.length_append]
    exact ⟨Nat.le_add_right _ _, hu⟩
  · rintro ⟨hn, hu⟩
    have hlength := hu.blockCommentLength? 0 (r.drop n)
    rwa [List.take_append_drop, if_pos rfl, List.length_take_of_le hn] at hlength

/-! ## The gaps of the reader -/

theorem newline_notMem_takeWhile {t : Text} : '\n' ∉ t.takeWhile (· ≠ '\n') := by
  intro hmem
  have := List.mem_takeWhile_imp hmem
  simp at this

theorem ne_newline_of_notMem {u : Text} (hu : '\n' ∉ u) :
    ∀ d ∈ ';' :: u, decide (d ≠ '\n') = true := by
  intro d hd
  rw [decide_eq_true_eq]
  rintro rfl
  rcases List.mem_cons.mp hd with heq | hd
  · cases heq
  · exact hu hd

/-- What the reader takes for a gap is one. -/
theorem isGap_of_lexes {c : Char} {r : Text} {n : Nat} (h : Lexes c r .gap n) :
    IsGap (c :: r.take n) (r.drop n) := by
  cases h with
  | blank hblank => exact .blank hblank
  | @lineComment r =>
    rcases take_lineComment (';' :: r) with ⟨v, htake, hv⟩ | ⟨hwhole, hdrop⟩
    · have hnone : '\n' ∉ v := by
        rw [hv]
        exact newline_notMem_takeWhile
      cases v with
      | nil => simp at htake
      | cons d v =>
        have hd : d = ';' := by simpa using (congrArg List.head? htake).symm
        rw [htake, hd]
        exact .lineComment (fun hmem => hnone (List.mem_cons_of_mem _ hmem))
    · have hnone : '\n' ∉ ';' :: r := by
        rw [← hwhole]
        exact newline_notMem_takeWhile
      rw [hdrop, hwhole, List.take_of_length_le (by simp)]
      exact .lastComment (fun hmem => hnone (List.mem_cons_of_mem _ hmem))
  | @blockComment r n hlength =>
    rw [List.take_succ_cons]
    exact .blockComment (blockCommentLength?_eq_some_iff.mp hlength).2

/-- A gap is taken for one by the reader, in front of whatever stands behind it. -/
theorem lexes_of_isGap {w after : Text} (h : IsGap w after) :
    ∃ c v n, w = c :: v ∧ Lexes c (v ++ after) .gap n ∧
      (n = v.length ∨ v.length ≤ n ∧ after = []) := by
  cases h with
  | @blank c after hblank => exact ⟨c, [], 0, rfl, .blank hblank, Or.inl rfl⟩
  | @lineComment u after hu =>
    have hline : (';' :: (u ++ ['\n'] ++ after)).takeWhile (· ≠ '\n') = ';' :: u := by
      rw [List.append_assoc, ← List.cons_append,
        List.takeWhile_append_of_pos (ne_newline_of_notMem hu)]
      simp
    have hlexes := Lexes.lineComment (r := u ++ ['\n'] ++ after)
    rw [hline] at hlexes
    exact ⟨';', _, _, rfl, hlexes, Or.inl (by simp)⟩
  | @lastComment u hu =>
    have hline : (';' :: u).takeWhile (· ≠ '\n') = ';' :: u :=
      List.takeWhile_eq_self_iff.mpr (ne_newline_of_notMem hu)
    have hlexes := Lexes.lineComment (r := u)
    rw [hline] at hlexes
    exact ⟨';', _, _, rfl, by rwa [List.append_nil], Or.inr ⟨by simp, rfl⟩⟩
  | @blockComment u after hu =>
    have hlength := hu.blockCommentLength? 0 after
    rw [if_pos rfl] at hlength
    exact ⟨'(', ';' :: u, _, rfl, .blockComment hlength, Or.inl rfl⟩

end WasmPackage.SExpr
