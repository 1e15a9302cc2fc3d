import WasmPackage.Proofs.Script.Brackets

/-!
# How far walks reach

The walks of the outliner go forward over the code and stop inside it, or inside the brackets around
where they began.  The one over type parameters knows no brackets, and may run to the end of the
code.
-/

namespace WasmPackage.Script

namespace Source

variable {t : Text} {s : Source} {i j k close stop angles depth : Nat} {w : String}
  {words : List String} {modifiers modifiers' : Modifiers} {name : String}

theorem lt_size_of_is (h : s.is w i = true) : i < s.size := by
  by_contra hsize
  have hnone : s.code[i]? = none := Array.getElem?_eq_none (Nat.le_of_not_lt hsize)
  simp [is, hnone] at h

/-- No code token is two words. -/
theorem is_eq_false {v : String} (h : s.is w i = true) (hne : w ≠ v) : s.is v i = false := by
  unfold is at h ⊢
  cases hx : s.code[i]? with
  | none => rfl
  | some x =>
    simp only [hx, Option.any_some, Token.is, Bool.and_eq_true, decide_eq_true_eq] at h ⊢
    simp [h.1, hne]

theorem wordIn_eq_false (h : s.is w i = true) (hw : words.contains w = false) :
    s.wordIn words i = false := by
  unfold is at h
  rw [wordIn, word?]
  cases hx : s.code[i]? with
  | none => rfl
  | some x =>
    simp only [hx, Option.any_some, Token.is, Bool.and_eq_true, decide_eq_true_eq] at h
    simp only [Option.map_some, Option.any_some, h.1, hw]

/-! ## Tokens and their offsets -/

theorem word?_eq {x : Token} (hx : s.code[i]? = some x) : s.word? i = some x.text := by
  rw [word?, hx, Option.map_some]

theorem kind?_eq {x : Token} (hx : s.code[i]? = some x) : s.kind? i = some x.kind := by
  rw [kind?, hx, Option.map_some]

theorem startAt_eq {x : Token} (hx : s.code[i]? = some x) : s.startAt i = x.start := by
  simp [startAt, hx]

theorem stopAt_eq {x : Token} (hx : s.code[i]? = some x) : s.stopAt i = x.stop := by
  simp [stopAt, hx]

theorem lt_size_of_getElem? {x : Token} (hx : s.code[i]? = some x) : i < s.size :=
  (Array.getElem?_eq_some_iff.mp hx).1

section

variable (h : s.IsPlaced)

include h

theorem IsPlaced.stopAt_le_startAt (hi : i < s.size) (hij : i < j) :
    s.stopAt i ≤ s.startAt j := by
  have hfirst : s.code[i]? = some s.code[i] := Array.getElem?_eq_getElem hi
  have hwithin := h.within s.code[i] (Array.getElem_mem_toList hi)
  unfold startAt stopAt
  rw [hfirst]
  cases hlast : s.code[j]? with
  | none => exact hwithin.2.2
  | some x =>
    rcases Array.getElem?_eq_some_iff.mp hlast with ⟨hj, rfl⟩
    exact List.pairwise_iff_getElem.mp h.ordered i j hi hj hij

theorem IsPlaced.startAt_lt_startAt (hi : i < s.size) (hij : i < j) :
    s.startAt i < s.startAt j :=
  Nat.lt_of_lt_of_le (h.startAt_lt_stopAt hi (Nat.le_refl i)) (h.stopAt_le_startAt hi hij)

theorem IsPlaced.startAt_mono (hij : i ≤ j) : s.startAt i ≤ s.startAt j := by
  rcases Nat.lt_or_ge i s.size with hi | hi
  · rcases Nat.eq_or_lt_of_le hij with rfl | hlt
    · exact Nat.le_refl _
    · exact Nat.le_of_lt (h.startAt_lt_startAt hi hlt)
  · have hi' : s.code[i]? = none := Array.getElem?_eq_none hi
    have hj' : s.code[j]? = none := Array.getElem?_eq_none (Nat.le_trans hi hij)
    simp [startAt, hi', hj']

theorem IsPlaced.stopAt_lt_stopAt (hj : j < s.size) (hij : i < j) : s.stopAt i < s.stopAt j :=
  Nat.lt_of_le_of_lt (h.stopAt_le_startAt (Nat.lt_trans hij hj) hij)
    (h.startAt_lt_stopAt hj (Nat.le_refl j))

theorem IsPlaced.stopAt_mono (hij : i ≤ j) : s.stopAt i ≤ s.stopAt j := by
  rcases Nat.lt_or_ge j s.size with hj | hj
  · rcases Nat.eq_or_lt_of_le hij with rfl | hlt
    · exact Nat.le_refl _
    · exact Nat.le_of_lt (h.stopAt_lt_stopAt hj hlt)
  · have hj' : s.code[j]? = none := Array.getElem?_eq_none hj
    have hend : s.stopAt j = s.text.length := by simp [stopAt, hj']
    rw [hend]
    exact h.stopAt_le

/-- Different code tokens begin at different offsets. -/
theorem IsPlaced.eq_of_startAt_eq (hi : i < s.size) (hj : j < s.size)
    (heq : s.startAt i = s.startAt j) : i = j := by
  rcases Nat.lt_trichotomy i j with hlt | rfl | hlt
  · exact absurd heq (Nat.ne_of_lt (h.startAt_lt_startAt hi hlt))
  · rfl
  · exact absurd heq.symm (Nat.ne_of_lt (h.startAt_lt_startAt hj hlt))

/-- Different code tokens end at different offsets. -/
theorem IsPlaced.eq_of_stopAt_eq (hi : i < s.size) (hj : j < s.size)
    (heq : s.stopAt i = s.stopAt j) : i = j := by
  rcases Nat.lt_trichotomy i j with hlt | rfl | hlt
  · have := h.stopAt_lt_stopAt hj hlt
    omega
  · rfl
  · have := h.stopAt_lt_stopAt hi hlt
    omega

end

/-! ## Types -/

theorem le_typeStop : min i stop ≤ s.typeStop stop i angles := by
  fun_induction typeStop s stop i angles with
  | case1 => omega
  | case2 => omega
  | case3 => omega
  | case4 i angles _ _ _ _ ih =>
    have := s.lt_skip i
    omega
  | case5 => omega

theorem typeStop_le : s.typeStop stop i angles ≤ stop := by
  fun_induction typeStop s stop i angles <;> omega

/-- A type behind a colon lies within its bounds, and so does the index behind it. -/
theorem typeNote_cases (s : Source) (i stop : Nat) :
    (s.is ":" i = false ∧ s.typeNote stop i = (none, i)) ∨
      (s.is ":" i = true ∧ min (i + 1) stop ≤ (s.typeNote stop i).2 ∧
        (s.typeNote stop i).2 ≤ stop ∧
        ∀ n ∈ (s.typeNote stop i).1, i + 1 < (s.typeNote stop i).2 ∧
          n.start = s.startAt (i + 1) ∧ n.stop = s.stopAt ((s.typeNote stop i).2 - 1)) := by
  cases hcolon : s.is ":" i with
  | false => exact .inl ⟨rfl, by simp [typeNote, hcolon]⟩
  | true =>
    refine .inr ⟨rfl, ?_⟩
    have hle : min (i + 1) stop ≤ s.typeStop stop (i + 1) 0 := le_typeStop
    have hstop : s.typeStop stop (i + 1) 0 ≤ stop := typeStop_le
    simp only [typeNote, hcolon, if_true]
    split
    · refine ⟨hle, hstop, ?_⟩
      rintro n hn
      cases hn
      exact ⟨by assumption, rfl, rfl⟩
    · exact ⟨hle, hstop, nofun⟩

theorem le_typeParamsStop : i ≤ s.typeParamsStop i depth := by
  fun_induction typeParamsStop s i depth <;> omega

theorem typeParamsStop_le (hi : i ≤ s.size) : s.typeParamsStop i depth ≤ s.size := by
  fun_induction typeParamsStop s i depth <;> omega

theorem le_behindTypeParameters : i ≤ s.behindTypeParameters i := by
  unfold behindTypeParameters
  split
  · exact le_typeParamsStop
  · exact Nat.le_refl i

/-! ## Members -/

theorem le_skipMarks : i ≤ s.skipMarks i := by
  fun_induction skipMarks s i <;> omega

/-- Question and exclamation marks end before any other word. -/
theorem skipMarks_le (hclose : s.wordIn ["?", "!"] close = false) (hi : i ≤ close) :
    s.skipMarks i ≤ close := by
  fun_induction skipMarks s i with
  | case1 i hsize hmark ih =>
    apply ih
    rcases Nat.eq_or_lt_of_le hi with rfl | hlt
    · rw [hclose] at hmark
      cases hmark
    · exact hlt
  | case2 => exact hi
  | case3 => exact hi

theorem le_of_memberHead_name (h : s.memberHead stop i modifiers = .name modifiers' j)
    (hi : i ≤ stop) : i ≤ j ∧ j ≤ stop := by
  fun_induction memberHead s stop i modifiers with
  | case1 => cases h
  | case2 i m hstop _ _ ih =>
    have := ih h hstop
    omega
  | case3 =>
    cases h
    omega
  | case4 =>
    cases h
    omega

theorem of_memberHead_staticBlock (h : s.memberHead stop i modifiers = .staticBlock j) :
    i < j ∧ j ≤ stop ∧ s.is "\x7b" j = true := by
  fun_induction memberHead s stop i modifiers with
  | case1 i m hstop hmodifier hblock =>
    cases h
    rw [Bool.and_eq_true] at hblock
    exact ⟨Nat.lt_succ_self i, hstop, hblock.2⟩
  | case2 i m hstop _ _ ih =>
    have := ih h
    exact ⟨by omega, this.2⟩
  | case3 => cases h
  | case4 => cases h

theorem le_initialValueStop : i ≤ s.initialValueStop stop i := by
  fun_induction initialValueStop s stop i with
  | case1 i _ ih =>
    have := s.lt_skip i
    omega
  | case2 => exact Nat.le_refl _

section

variable [Limits] {open' : Nat} (hs : Source.read t = .ok s) (hopen : s.closer? open' = some stop)

include hs hopen

/-- A walk inside brackets that jumps over inner ones stays inside. -/
theorem initialValueStop_le (hlt : open' < i) (hi : i ≤ stop) :
    s.initialValueStop stop i ≤ stop := by
  fun_induction initialValueStop s stop i with
  | case1 i hstop ih =>
    have hskip := skip_le_of_closer? hs hopen hlt hstop.1
    have hnext := s.lt_skip i
    exact ih (by omega) hskip
  | case2 => exact hi

theorem of_memberName? {last : Nat} (hlt : open' < i) (hi : i < stop)
    (h : s.memberName? stop i = some (name, last)) : i ≤ last ∧ last < stop := by
  unfold memberName? at h
  split at h
  case h_4 =>
    split at h
    case isTrue hbracket =>
      rcases closer?_of_is hs (v := "]") (by decide) hbracket with ⟨j, hj, -⟩
      cases h
      rw [hj, Option.getD_some]
      exact ⟨Nat.le_of_lt (lt_of_closer? hs hj).1, closer?_lt_of_closer? hs hopen hj hlt hi⟩
    case isFalse =>
      split at h
      case isTrue hsharp =>
        rw [Bool.and_eq_true, decide_eq_true_eq] at hsharp
        cases h
        omega
      case isFalse => cases h
  all_goals
    cases h
    omega

end

/-! ## Items -/

theorem le_behindModifiers : i ≤ s.behindModifiers i := by
  fun_induction behindModifiers s i <;> omega

theorem of_find? (h : s.find? w i = some j) : i ≤ j ∧ s.is w j = true := by
  fun_induction find? s w i with
  | case1 i hi his =>
    cases h
    exact ⟨Nat.le_refl _, his⟩
  | case2 i hi his ih =>
    have := ih h
    exact ⟨by omega, this.2⟩
  | case3 => cases h

/-- What a class that is read is: behind its name stand its braces, and its members between them. -/
theorem classDecl_eq_ok [Limits] (hs : Source.read t = .ok s) {start keyword next : Nat}
    {c : ClassShape} (h : s.classDecl start keyword = .ok (c, next)) :
    ∃ left close, keyword + 2 ≤ left ∧ s.closer? left = some close ∧ s.is "\x7d" close = true ∧
      next = close + 1 ∧
      c = ⟨(s.word? (keyword + 1)).getD "", s.startAt start, s.stopAt close, s.startAt left,
        s.startAt close, s.membersFrom close (left + 1)⟩ := by
  unfold classDecl at h
  cases hfind : s.find? "\x7b" (keyword + 2) with
  | none =>
    rw [hfind] at h
    cases h
  | some left =>
    obtain ⟨hleft, hopens⟩ := of_find? hfind
    obtain ⟨close, hclose, hbrace⟩ := closer?_of_is hs (v := "\x7d") (by decide) hopens
    have hlt := (lt_of_closer? hs hclose).1
    have hskip : s.skip left = close + 1 := by
      simp only [skip, hclose, Option.elim_some]
      omega
    rw [hfind] at h
    simp only [hclose, Option.getD_some, hskip, Except.ok.injEq, Prod.mk.injEq] at h
    obtain ⟨rfl, rfl⟩ := h
    exact ⟨left, close, hleft, hclose, hbrace, rfl, rfl⟩

theorem skip_le_size [Limits] (hs : Source.read t = .ok s)
    (hi : i < s.size) : s.skip i ≤ s.size := by
  unfold skip
  cases hj : s.closer? i with
  | none =>
    simp only [Option.elim_none]
    omega
  | some j =>
    have := (lt_of_closer? hs hj).2
    simp only [Option.elim_some]
    omega

theorem initialValueStop_le_size [Limits] (hs : Source.read t = .ok s) (hstop : stop ≤ s.size)
    (hi : i ≤ s.size) : s.initialValueStop stop i ≤ s.size := by
  fun_induction initialValueStop s stop i with
  | case1 i hin ih => exact ih (skip_le_size hs (by omega))
  | case2 => exact hi

theorem statementStop_le [Limits] (hs : Source.read t = .ok s) (hi : i ≤ s.size) :
    s.statementStop i ≤ s.size ∧ (i < s.size → i < s.statementStop i) ∧ i ≤ s.statementStop i := by
  fun_induction statementStop s i with
  | case1 i hsize hopens next hends =>
    have hskip := skip_le_size hs hsize
    have hlt := s.lt_skip i
    exact ⟨hskip, fun _ => hlt, Nat.le_of_lt hlt⟩
  | case2 i hsize hopens next hends ih =>
    have hskip := skip_le_size hs hsize
    have hlt : i < next := s.lt_skip i
    have := ih hskip
    omega
  | case3 => omega
  | case4 i hsize hopens hends ih =>
    have := ih hsize
    omega
  | case5 => omega

end Source

end WasmPackage.Script
