import WasmPackage.Proofs.Script.Checked
import WasmPackage.Proofs.Script.Tiling

/-!
# Look-ups succeed

What was read from a text has its brackets matched, and every reader stays in its code.  So both
kinds of readers agree: no look-up fails but that of a function's name behind the end of the code,
and every loop advances.
-/

namespace WasmPackage.Script

namespace Checked

/-! ## Look-ups that succeed -/

section

variable {t : Text} {s : Source} {i j stop close start : Nat}

theorem ok_bind {ε α β : Type} (a : α) (f : α → Except ε β) : (Except.ok a >>= f) = f a :=
  rfl

theorem token_of_lt (hi : i < s.size) : ∃ x, s.code[i]? = some x ∧ token s i = .ok x := by
  have hx : s.code[i]? = some s.code[i] := Array.getElem?_eq_getElem hi
  exact ⟨_, hx, by rw [token, hx]⟩

/-- A token that is only looked up is there. -/
theorem token_then {α : Type} {rest : Except CheckedError α} (hi : i < s.size) :
    (token s i >>= fun _ => rest) = rest := by
  rcases token_of_lt hi with ⟨x, -, htoken⟩
  rw [htoken, ok_bind]

theorem partner_eq (h : s.closer? i = some j) : partner s i = .ok j := by
  rw [partner, h]

variable [Limits] (hs : Source.read t = .ok s)

include hs

/-- A token has a closing bracket just if it is an opening one. -/
theorem isSome_closer? {x : Token} (hx : s.code[i]? = some x) :
    x.closer?.isSome = (s.closer? i).isSome := by
  have hpairing := Source.pairing_of_read hs
  have hx' : s.code.toList[i]? = some x := by simpa using hx
  cases hj : s.closer? i with
  | some j =>
    rcases hpairing.closed _ (Source.mem_brackets_of_closer? hj) with ⟨y, _, hy, -, hclose, -⟩
    rw [hx', Option.some.injEq] at hy
    rw [hy, hclose]
    rfl
  | none =>
    rw [Option.isSome_none, Bool.eq_false_iff]
    intro hopens
    rcases hpairing.complete i x (Nat.zero_le _) hx' hopens with ⟨j, hmem⟩
    have hfree := List.lookup_eq_none_iff.mp hj _ hmem
    simp at hfree

/-- A reader asks the token at an index whether it opens a bracket. -/
theorem token_branch {α : Type} {opening other : Except CheckedError α} (hi : i < s.size) :
    (token s i >>= fun x => if x.closer?.isSome then opening else other) =
      if (s.closer? i).isSome then opening else other := by
  rcases token_of_lt hi with ⟨x, hx, htoken⟩
  rw [htoken, ok_bind, isSome_closer? hs hx]

theorem advance_eq (hi : i < s.size) : advance s i = .ok ⟨s.skip i, s.lt_skip i⟩ := by
  have hskip : s.skip i = max (i + 1) ((s.closer? i).elim 0 (· + 1)) := rfl
  unfold advance
  rw [token_branch hs hi]
  -- a closing bracket stands behind the one that it closes, so both readers go on from there
  cases hj : s.closer? i with
  | none =>
    rw [hj] at hskip
    simp only [Option.elim_none, Nat.max_zero] at hskip
    simp [hskip, pure, Except.pure]
  | some j =>
    have hlt := Source.lt_of_closer? hs hj
    rw [hj] at hskip
    simp only [Option.elim_some] at hskip
    have hnext : s.skip i = j + 1 := by omega
    have hover : i < j + 1 := by omega
    simp only [partner, hj, hnext, Option.isSome_some, if_true, ok_bind, dif_pos hover]
    rfl

/-! ## Parameters -/

section

variable {left : Nat} (hopen : s.closer? left = some close)

include hopen

theorem paramMarks_eq {colon default : Option Nat} (hlt : left < i) (hi : i ≤ close) :
    paramMarks s close i colon default = .ok (s.paramMarks close i colon default) := by
  have hsize := (Source.lt_of_closer? hs hopen).2
  fun_induction Source.paramMarks s close i colon default with
  | case1 i colon default hin hopens ih =>
    have hi' : i < s.size := by omega
    have hskip := Source.skip_le_of_closer? hs hopen hlt hin.1
    have hnext := s.lt_skip i
    rw [paramMarks, dif_pos hin, token_branch hs hi', if_pos hopens, advance_eq hs hi', ok_bind]
    exact ih (by omega) hskip
  | case2 i default colon hin hopens hcolon ih =>
    rw [paramMarks, dif_pos hin, token_branch hs (by omega), if_neg hopens, if_pos hcolon]
    exact ih (by omega) hin.1
  | case3 i colon default hin hopens hcolon hdefault ih =>
    rw [paramMarks, dif_pos hin, token_branch hs (by omega), if_neg hopens,
      if_neg hcolon, if_pos hdefault]
    exact ih (by omega) hin.1
  | case4 i colon default hin hopens hcolon hdefault ih =>
    rw [paramMarks, dif_pos hin, token_branch hs (by omega), if_neg hopens,
      if_neg hcolon, if_neg hdefault]
    exact ih (by omega) hin.1
  | case5 i colon default hout =>
    rw [paramMarks, dif_neg hout]
    rfl

/-- The marks of a parameter stand before its end, and that inside the list. -/
theorem paramMarks_within {colon default : Option Nat} (hlt : left < i) (hi : i ≤ close)
    (hcolon : ∀ k ∈ colon, k < i) (hdefault : ∀ k ∈ default, k < i) :
    i ≤ (s.paramMarks close i colon default).stop ∧
      (s.paramMarks close i colon default).stop ≤ close ∧
      (∀ k ∈ (s.paramMarks close i colon default).colon,
        k < (s.paramMarks close i colon default).stop) ∧
      ∀ k ∈ (s.paramMarks close i colon default).default,
        k < (s.paramMarks close i colon default).stop := by
  have hmono {mark : Option Nat} {j k : Nat} (hjk : j < k) (h : ∀ n ∈ mark, n < j) :
      ∀ n ∈ mark, n < k := fun n hn => Nat.lt_trans (h n hn) hjk
  fun_induction Source.paramMarks s close i colon default with
  | case1 i colon default hin hopens ih =>
    have hskip := Source.skip_le_of_closer? hs hopen hlt hin.1
    have hnext := s.lt_skip i
    have hrest := ih (by omega) hskip (hmono hnext hcolon) (hmono hnext hdefault)
    exact ⟨by omega, hrest.2⟩
  | case2 i default colon hin hopens hmark ih =>
    have hrest := ih (by omega) hin.1 (by simp) (hmono (Nat.lt_succ_self i) hdefault)
    exact ⟨by omega, hrest.2⟩
  | case3 i colon default hin hopens _ hmark ih =>
    have hrest := ih (by omega) hin.1 (hmono (Nat.lt_succ_self i) hcolon) (by simp)
    exact ⟨by omega, hrest.2⟩
  | case4 i colon default hin hopens _ _ ih =>
    have hrest := ih (by omega) hin.1 (hmono (Nat.lt_succ_self i) hcolon)
      (hmono (Nat.lt_succ_self i) hdefault)
    exact ⟨by omega, hrest.2⟩
  | case5 => exact ⟨Nat.le_refl _, hi, hcolon, hdefault⟩

omit [Limits] hs hopen in
/-- A parameter is read if its marks stand in the code. -/
theorem param_eq {marks : Source.ParamMarks} (hstart : start + 1 < s.size)
    (hstop : marks.stop < s.size) (hcolon : ∀ k ∈ marks.colon, k < marks.stop)
    (hdefault : ∀ k ∈ marks.default, k < marks.stop) :
    param s start marks = .ok (s.param start marks) := by
  have hindex : (if s.is "..." start then start + 1 else start) < s.size := by split <;> omega
  rcases token_of_lt (Nat.lt_of_succ_lt hstart) with ⟨x, hx, hfirst⟩
  rcases token_of_lt hindex with ⟨y, hy, hname⟩
  rcases token_of_lt (s := s) (i := marks.stop - 1) (by omega) with ⟨z, hz, hlast⟩
  have hword : s.word? (if s.is "..." start then start + 1 else start) = some y.text :=
    Source.word?_eq hy
  unfold param Source.param
  rw [hfirst, ok_bind, hname, ok_bind, hlast, ok_bind]
  simp only [hword, Source.startAt_eq hx, Source.stopAt_eq hz, Option.getD_some]
  cases hmark : marks.colon with
  | none => rfl
  | some colon =>
    have hlt := hcolon colon hmark
    have hend : (marks.default.map (· - 1)).getD (marks.stop - 1) < s.size := by
      cases hvalue : marks.default with
      | none => simp only [Option.map_none, Option.getD_none]; omega
      | some k =>
        have := hdefault k hvalue
        simp only [Option.map_some, Option.getD_some]
        omega
    rcases token_of_lt (s := s) (i := colon + 1) (by omega) with ⟨u, hu, htypeFirst⟩
    rcases token_of_lt hend with ⟨v, hv, htypeLast⟩
    simp only [htypeFirst, htypeLast, ok_bind, Option.map_some, Source.startAt_eq hu,
      Source.stopAt_eq hv]
    rfl

theorem paramsFrom_eq (hlt : left < i) : paramsFrom s close i = .ok (s.paramsFrom close i) := by
  have hsize := (Source.lt_of_closer? hs hopen).2
  fun_induction Source.paramsFrom s close i with
  | case1 i hi marks ih =>
    have hmarks : paramMarks s close i none none = .ok marks :=
      paramMarks_eq hs hopen hlt (Nat.le_of_lt hi)
    obtain ⟨hle, hstop, hcolon, hdefault⟩ : i ≤ marks.stop ∧ marks.stop ≤ close ∧
        (∀ k ∈ marks.colon, k < marks.stop) ∧ ∀ k ∈ marks.default, k < marks.stop :=
      paramMarks_within hs hopen hlt (Nat.le_of_lt hi) (by simp) (by simp)
    have hparam : param s i marks = .ok (s.param i marks) :=
      param_eq (by omega) (by omega) hcolon hdefault
    -- so the loop advances, and the total reader has no need of its guard
    have hlt' : i < (s.paramMarks close i none none).stop + 1 := Nat.lt_succ_of_le hle
    have hnext : max (i + 1) (marks.stop + 1) = marks.stop + 1 := by omega
    have hrest :
        paramsFrom s close (marks.stop + 1) = .ok (s.paramsFrom close (marks.stop + 1)) := by
      rw [hnext] at ih
      exact ih (by omega)
    rw [paramsFrom, dif_pos hi, hmarks, ok_bind, hparam, ok_bind, dif_pos hlt', hrest, hnext]
    rfl
  | case2 i hi =>
    rw [paramsFrom, dif_neg hi]
    rfl

theorem params_eq : params s left = .ok (s.params left) := by
  rw [params, partner_eq hopen, ok_bind, paramsFrom_eq hs hopen (Nat.lt_succ_self left),
    Source.params, hopen]
  rfl

end

/-! ## Types -/

omit [Limits] hs in
theorem typeStopsAt_eq {angles : Nat} (hi : i < s.size) :
    typeStopsAt s i angles = .ok (angles = 0 && s.typeStopsAt i) := by
  unfold typeStopsAt Source.typeStopsAt
  by_cases hangles : angles = 0
  · cases hend : s.is ";" i with
    | true => simp [hangles, pure, Except.pure]
    | false =>
      by_cases hbrace : (s.is "\x7b" i && 0 < i) = true
      · rcases token_of_lt (s := s) (i := i - 1) (by omega) with ⟨x, hx, htoken⟩
        have hword : s.endsType (i - 1) =
            (x.kind = .identifier || [">", "]", ")"].contains x.text) := by
          simp [Source.endsType, Source.wordIn, Source.kind?_eq hx, Source.word?_eq hx]
        simp only [hangles, ne_eq, not_true, if_false, Bool.false_eq_true, hbrace, if_true, htoken,
          ok_bind, hword, decide_true, Bool.true_and, Bool.false_or]
        rfl
      · simp [hangles, hbrace, pure, Except.pure]
  · simp [hangles, pure, Except.pure]

theorem typeStop_eq {angles : Nat} (hstop : stop ≤ s.size) :
    typeStop s stop i angles = .ok (s.typeStop stop i angles) := by
  fun_induction Source.typeStop s stop i angles with
  | case1 i angles hi hleft ih =>
    rw [typeStop, dif_pos hi, token_then (by omega), if_pos hleft]
    exact ih
  | case2 i angles hi hleft hright ih =>
    rw [typeStop, dif_pos hi, token_then (by omega), if_neg hleft, if_pos hright]
    exact ih
  | case3 i angles hi hleft hright hends =>
    rw [typeStop, dif_pos hi, token_then (by omega), if_neg hleft, if_neg hright,
      typeStopsAt_eq (by omega), ok_bind, if_pos hends]
    rfl
  | case4 i angles hi hleft hright hends ih =>
    have hi' : i < s.size := by omega
    rw [typeStop, dif_pos hi, token_then hi', if_neg hleft, if_neg hright, typeStopsAt_eq hi',
      ok_bind, if_neg hends, advance_eq hs hi', ok_bind]
    exact ih
  | case5 i angles hi =>
    rw [typeStop, dif_neg hi]
    rfl

theorem typeNote_eq (hstop : stop ≤ s.size) : typeNote s stop i = .ok (s.typeNote stop i) := by
  unfold typeNote Source.typeNote
  cases hcolon : s.is ":" i with
  | false => rfl
  | true =>
    have hle : s.typeStop stop (i + 1) 0 ≤ stop := Source.typeStop_le
    simp only [if_true, typeStop_eq hs hstop, ok_bind]
    split
    · next hlt =>
      rcases token_of_lt (s := s) (i := i + 1) (by omega) with ⟨x, hx, hfirst⟩
      rcases token_of_lt (s := s) (i := s.typeStop stop (i + 1) 0 - 1) (by omega) with
        ⟨y, hy, hlast⟩
      rw [hfirst, ok_bind, hlast, ok_bind, Source.startAt_eq hx, Source.stopAt_eq hy]
      rfl
    · rfl

/-! ## Members -/

theorem partner_of_is {w v : String} (hpair : (w, v) ∈ bracketPairs) (hw : s.is w i = true) :
    ∃ j, s.closer? i = some j ∧ j < s.size ∧ s.skip i = j + 1 ∧ partner s i = .ok j := by
  rcases Source.closer?_of_is hs hpair hw with ⟨j, hj, -⟩
  have hlt := Source.lt_of_closer? hs hj
  have hskip : s.skip i = j + 1 := by
    simp only [Source.skip, hj, Option.elim_some]
    omega
  exact ⟨j, hj, hlt.2, hskip, partner_eq hj⟩

theorem memberName_eq (hi : i < stop) (hstop : stop ≤ s.size) :
    memberName s stop i = .ok (s.memberName? stop i) := by
  rcases token_of_lt (s := s) (i := i) (by omega) with ⟨x, hx, htoken⟩
  unfold memberName Source.memberName?
  rw [htoken, ok_bind, Source.kind?_eq hx, Source.word?_eq hx]
  have hother : (if s.is "[" i then (do
        let close ← partner s i
        let y ← token s close
        return some (s.excerpt x.start y.stop, close))
      else if s.is "#" i && i + 1 < stop then (do
        let y ← token s (i + 1)
        return some ("#" ++ y.text, i + 1))
      else return none : Except CheckedError (Option (String × Nat))) =
      .ok (if s.is "[" i then
          some (s.excerpt (s.startAt i) (s.stopAt ((s.closer? i).getD i)), (s.closer? i).getD i)
        else if s.is "#" i && i + 1 < stop then some ("#" ++ (s.word? (i + 1)).getD "", i + 1)
        else none) := by
    split
    · next hbracket =>
      rcases partner_of_is hs (v := "]") (by decide) hbracket with ⟨j, hj, hlt, -, hpartner⟩
      rcases token_of_lt hlt with ⟨y, hy, hlast⟩
      rw [hpartner, ok_bind, hlast, ok_bind, hj, Option.getD_some, Source.startAt_eq hx,
        Source.stopAt_eq hy]
      rfl
    · split
      · next hsharp =>
        rw [Bool.and_eq_true, decide_eq_true_eq] at hsharp
        rcases token_of_lt (s := s) (i := i + 1) (by omega) with ⟨y, hy, hname⟩
        rw [hname, ok_bind, Source.word?_eq hy]
        rfl
      · rfl
  cases x.kind <;> first | rfl | exact hother

theorem initialValueStop_eq (hstop : stop ≤ s.size) :
    initialValueStop s stop i = .ok (s.initialValueStop stop i) := by
  fun_induction Source.initialValueStop s stop i with
  | case1 i hin ih =>
    rw [initialValueStop, dif_pos hin, advance_eq hs (by omega), ok_bind]
    exact ih
  | case2 i hout =>
    rw [initialValueStop, dif_neg hout]
    rfl

theorem memberParams_eq : memberParams s i =
    .ok (if s.is "(" i then s.params i else [],
      if s.is "(" i then some (s.stopAt ((if s.is "(" i then s.skip i else i) - 1)) else none,
      if s.is "(" i then s.skip i else i) := by
  unfold memberParams
  cases hcall : s.is "(" i with
  | false => rfl
  | true =>
    rcases partner_of_is hs (v := ")") (by decide) hcall with ⟨j, hj, hlt, hskip, hpartner⟩
    rcases token_of_lt hlt with ⟨y, hy, hlast⟩
    simp only [if_true, hpartner, ok_bind, hlast, params_eq hs hj, hskip, Nat.add_sub_cancel,
      Source.stopAt_eq hy]
    rfl

/-- The index behind what ends at index `j` with a body, a semicolon, or the token before. -/
def behindEnding (s : Source) (j : Nat) : Nat :=
  if s.is "\x7b" j then s.skip j else if s.is ";" j then j + 1 else j

theorem ending_eq (hj : 0 < j) (hle : j ≤ s.size) : ending s j =
    .ok (if s.is "\x7b" j then some (s.startAt j, s.stopAt ((s.closer? j).getD j)) else none,
      s.stopAt (behindEnding s j - 1), behindEnding s j) := by
  unfold ending behindEnding
  cases hopens : s.is "\x7b" j with
  | true =>
    rcases partner_of_is hs (v := "\x7d") (by decide) hopens with ⟨k, hk, hlt, hskip, hpartner⟩
    rcases token_of_lt (Source.lt_size_of_is hopens) with ⟨x, hx, hfirst⟩
    rcases token_of_lt hlt with ⟨y, hy, hlast⟩
    simp only [if_true, hpartner, ok_bind, hfirst, hlast, hk, Option.getD_some, hskip,
      Nat.add_sub_cancel, Source.startAt_eq hx, Source.stopAt_eq hy]
    rfl
  | false =>
    cases hend : s.is ";" j with
    | true =>
      rcases token_of_lt (Source.lt_size_of_is hend) with ⟨x, hx, htoken⟩
      simp only [Bool.false_eq_true, if_false, if_true, htoken, ok_bind, Nat.add_sub_cancel,
        Source.stopAt_eq hx]
      rfl
    | false =>
      rcases token_of_lt (s := s) (i := j - 1) (by omega) with ⟨x, hx, htoken⟩
      simp only [Bool.false_eq_true, if_false, htoken, ok_bind, Source.stopAt_eq hx]
      rfl

theorem memberValue_eq (hstop : stop ≤ s.size) : memberValue s stop i j =
    .ok (if !s.is "(" i && s.is "=" j then s.initialValueStop stop j else j) := by
  unfold memberValue
  split
  · exact initialValueStop_eq hs hstop
  · rfl

theorem memberAt_eq {modifiers : Modifiers} {first last : Nat} {name : String}
    (hstart : start < s.size) (hfirst : first < s.size) (hlast : last < stop)
    (hstop : stop ≤ s.size) : memberAt s stop start modifiers first name last =
      .ok (s.memberAt stop start modifiers first name last) := by
  rcases token_of_lt hstart with ⟨x, hx, hxtoken⟩
  rcases token_of_lt hfirst with ⟨y, hy, hytoken⟩
  rcases token_of_lt (s := s) (i := last) (by omega) with ⟨z, hz, hztoken⟩
  rcases Source.bodyAt_within hs hlast hstop with ⟨hbody, hbody'⟩
  have hending := ending_eq hs (j := s.bodyAt stop last) (by omega) hbody'
  unfold memberAt
  rw [hxtoken, ok_bind, hytoken, ok_bind, hztoken, ok_bind]
  simp only
  rw [memberParams_eq hs, ok_bind, typeNote_eq hs hstop, ok_bind, memberValue_eq hs hstop, ok_bind]
  -- what is left begins where the body would
  change (ending s (s.bodyAt stop last) >>= _) = _
  rw [hending, ok_bind, Source.memberAt]
  simp only [Option.isSome_ite, Source.startAt_eq hx, Source.startAt_eq hy, Source.stopAt_eq hz]
  rfl

section

variable {left : Nat} (hopen : s.closer? left = some close)

include hopen

/-- A member is read, and reading goes on behind where it began. -/
theorem member_eq (hlt : left < start) (hi : start < close) :
    member s close start = .ok (s.member close start) ∧ start < (s.member close start).2 := by
  have hsize := (Source.lt_of_closer? hs hopen).2
  unfold member Source.member
  cases hhead : s.memberHead close start ⟨false, .method⟩ with
  | staticBlock i =>
    rcases Source.of_memberHead_staticBlock hhead with ⟨hstart, -, hbrace⟩
    rcases partner_of_is hs (v := "\x7d") (by decide) hbrace with ⟨j, -, -, hskip, hpartner⟩
    have hnext := s.lt_skip i
    simp only [hpartner, ok_bind, ← hskip]
    exact ⟨rfl, by omega⟩
  | name modifiers i =>
    have hhead' := Source.le_of_memberHead_name hhead (Nat.le_of_lt hi)
    have hfirst : start ≤ (if s.is "*" i then i + 1 else i) := by split <;> omega
    simp only
    generalize (if s.is "*" i then i + 1 else i) = first at hfirst
    split
    · next hin =>
      rw [memberName_eq hs hin (Nat.le_of_lt hsize), ok_bind]
      cases hname : s.memberName? close first with
      | none => exact ⟨rfl, by simp only; omega⟩
      | some found =>
        rcases found with ⟨name, last⟩
        rcases Source.of_memberName? hs hopen (by omega) hin hname with ⟨hle, hlast⟩
        have hnext := Source.lt_behindMember hs hlast (Nat.le_of_lt hsize)
        simp only
        rw [memberAt_eq hs (by omega) (by omega) hlast (Nat.le_of_lt hsize), ok_bind]
        refine ⟨rfl, ?_⟩
        simp only [Source.memberAt_snd]
        omega
    · exact ⟨rfl, hi⟩

theorem membersFrom_eq (hlt : left < i) : membersFrom s close i = .ok (s.membersFrom close i) := by
  fun_induction Source.membersFrom s close i with
  | case1 i hi hempty ih =>
    rw [membersFrom, dif_pos hi, if_pos hempty]
    exact ih (by omega)
  | case2 i hi hempty m next hmember ih =>
    rcases member_eq hs hopen hlt hi with ⟨hread, hnext⟩
    rw [hmember] at hread hnext
    have hmax : max (i + 1) next = next := Nat.max_eq_right hnext
    rw [hmax] at ih ⊢
    rw [membersFrom, dif_pos hi, if_neg hempty, hread, ok_bind]
    simp only
    rw [dif_pos hnext, ih (Nat.lt_trans hlt hnext)]
    rfl
  | case3 i hi =>
    rw [membersFrom, dif_neg hi]
    rfl

end

/-! ## Items -/

theorem classDecl_eq {keyword : Nat} (hstart : start < s.size) (hkeyword : keyword + 1 < s.size) :
    classDecl s start keyword = (s.classDecl start keyword).mapError OutlineError.checked := by
  rcases token_of_lt hkeyword with ⟨x, hx, hname⟩
  rcases token_of_lt hstart with ⟨y, hy, hfirst⟩
  unfold classDecl Source.classDecl
  rw [hname, ok_bind]
  cases hfind : s.find? "\x7b" (keyword + 2) with
  | none =>
    simp only [Source.fault, Source.startAt_eq hx]
    rfl
  | some i =>
    have hopens := (Source.of_find? hfind).2
    rcases partner_of_is hs (v := "\x7d") (by decide) hopens with ⟨j, hj, hlt, hskip, hpartner⟩
    rcases token_of_lt hlt with ⟨z, hz, hlast⟩
    rcases token_of_lt (Source.lt_size_of_is hopens) with ⟨u, hu, hbody⟩
    simp only [hpartner, ok_bind, hfirst, hlast, hbody, membersFrom_eq hs hj (Nat.lt_succ_self i),
      Source.word?_eq hx, Option.getD_some, hj, hskip, Source.startAt_eq hy, Source.startAt_eq hz,
      Source.startAt_eq hu, Source.stopAt_eq hz]
    rfl

theorem functionEnding_eq (hclose : close < s.size) (hj : close < j) (hle : j ≤ s.size) :
    functionEnding s close j =
      .ok (if s.is "\x7b" j then some (s.startAt j, s.stopAt ((s.closer? j).getD j)) else none,
        s.stopAt ((if s.is "\x7b" j || s.is ";" j then s.skip j else close + 1) - 1),
        if s.is "\x7b" j || s.is ";" j then s.skip j else j) := by
  unfold functionEnding
  split
  · next hends =>
    rw [ending_eq hs (by omega) hle]
    have hskip : behindEnding s j = s.skip j := by
      unfold behindEnding
      split
      · rfl
      · next hopens =>
        have hend : s.is ";" j = true := by simpa [hopens] using hends
        -- a semicolon opens nothing
        have hnone : s.closer? j = none := by
          cases hclose : s.closer? j with
          | none => rfl
          | some k => cases Source.isSome_lookup_of_closer? hs hclose hend
        simp [hend, Source.skip, hnone]
    rw [hskip]
  · next hends =>
    rcases token_of_lt hclose with ⟨x, hx, htoken⟩
    have hopens : ¬ s.is "\x7b" j = true := by
      intro hopens
      simp [hopens] at hends
    rw [htoken, ok_bind, if_neg hopens, Nat.add_sub_cancel, Source.stopAt_eq hx]
    rfl

theorem functionDecl_eq {keyword : Nat} {exported : ExportKind} (hstart : start < s.size)
    (hkeyword : keyword < s.size) : functionDecl s start keyword exported =
      (s.functionDecl start keyword exported).mapError OutlineError.checked := by
  unfold functionDecl Source.functionDecl
  simp only
  generalize (if s.is "async" keyword then keyword + 2 else keyword + 1) = behindKeyword
  generalize (if s.is "*" behindKeyword then behindKeyword + 1 else behindKeyword) = nameIndex
  rcases Nat.lt_or_ge nameIndex s.size with hname | hname
  · rcases token_of_lt hname with ⟨x, hx, hxtoken⟩
    rw [hxtoken, ok_bind, Source.word?_eq hx]
    simp only
    split
    · next hcall =>
      rcases partner_of_is hs (v := ")") (by decide) hcall with ⟨j, hj, hlt, hskip, hpartner⟩
      rcases token_of_lt hstart with ⟨y, hy, hytoken⟩
      rcases token_of_lt hkeyword with ⟨z, hz, hztoken⟩
      have hbehind := Source.behindType_within hlt
      unfold Source.behindType at hbehind
      rw [hpartner, ok_bind, hytoken, ok_bind, hztoken, ok_bind, params_eq hs hj, ok_bind,
        typeNote_eq hs (Nat.le_refl _), ok_bind, hskip]
      generalize s.typeNote s.size (j + 1) = note at hbehind
      rcases note with ⟨returnType, k⟩
      simp only at hbehind ⊢
      rw [functionEnding_eq hs hlt hbehind.1 hbehind.2.1, ok_bind]
      simp only [Source.startAt_eq hx, Source.stopAt_eq hx, Source.startAt_eq hy,
        Source.startAt_eq hz]
      cases s.is "\x7b" k <;> cases s.is ";" k <;> rfl
    · rw [Source.fault, Source.startAt_eq hx]
      rfl
  · have hnone : s.code[nameIndex]? = none := Array.getElem?_eq_none hname
    simp [token, Source.word?, hnone]
    rfl

omit [Limits] hs in
theorem blockEnds_eq : blockEnds s i j =
    .ok (s.is "\x7b" i && (s.size ≤ j || s.wordIn statementStarters j)) := by
  unfold blockEnds
  cases s.is "\x7b" i with
  | false => rfl
  | true =>
    rcases Nat.lt_or_ge j s.size with hj | hj
    · rcases token_of_lt hj with ⟨x, hx, htoken⟩
      have hword : s.wordIn statementStarters j = statementStarters.contains x.text := by
        rw [Source.wordIn, Source.word?_eq hx, Option.any_some]
      have hin : ¬ s.size ≤ j := Nat.not_le.mpr hj
      simp only [if_true, hin, if_false, htoken, ok_bind, hword, decide_false, Bool.false_or,
        Bool.true_and]
      rfl
    · simp [hj, pure, Except.pure]

theorem statementStop_eq : statementStop s i = .ok (s.statementStop i) := by
  fun_induction Source.statementStop s i with
  | case1 i hi hopens j hends =>
    rw [statementStop, dif_pos hi, token_branch hs hi, if_pos hopens, advance_eq hs hi, ok_bind]
    simp only
    rw [blockEnds_eq, ok_bind, if_pos hends]
    rfl
  | case2 i hi hopens j hends ih =>
    rw [statementStop, dif_pos hi, token_branch hs hi, if_pos hopens, advance_eq hs hi, ok_bind]
    simp only
    rw [blockEnds_eq, ok_bind, if_neg hends]
    exact ih
  | case3 i hi hopens hend =>
    rw [statementStop, dif_pos hi, token_branch hs hi, if_neg hopens, if_pos hend]
    rfl
  | case4 i hi hopens hend ih =>
    rw [statementStop, dif_pos hi, token_branch hs hi, if_neg hopens, if_neg hend]
    exact ih
  | case5 i hi =>
    rw [statementStop, dif_neg hi]
    rfl

theorem item_eq (hi : start < s.size) :
    item s start = (s.item start).mapError OutlineError.checked := by
  unfold item Source.item
  simp only
  generalize s.behindModifiers start = i
  split
  · next hclass =>
    rw [Bool.and_eq_true, decide_eq_true_eq] at hclass
    rw [classDecl_eq hs hi hclass.2]
    cases s.classDecl start i <;> rfl
  · split
    · next hfunction =>
      rw [Bool.and_eq_true, decide_eq_true_eq] at hfunction
      rw [functionDecl_eq hs hi (Nat.lt_of_succ_lt hfunction.2)]
      cases s.functionDecl start i (.ofWords (s.words start i)) <;> rfl
    · have hstop := Source.statementStop_le hs (Nat.le_of_lt hi)
      have hlt := hstop.2.1 hi
      rcases token_of_lt hi with ⟨x, hx, hfirst⟩
      rcases token_of_lt (s := s) (i := s.statementStop start - 1) (by omega) with ⟨y, hy, hlast⟩
      rw [statementStop_eq hs, ok_bind, hfirst, ok_bind, hlast, ok_bind, Source.startAt_eq hx,
        Source.stopAt_eq hy]
      rfl

theorem itemsFrom_eq : itemsFrom s i = (s.itemsFrom i).mapError OutlineError.checked := by
  fun_induction Source.itemsFrom s i with
  | case1 i hi e hitem =>
    rw [itemsFrom, dif_pos hi, item_eq hs hi, hitem]
    rfl
  | case2 i hi it next hitem ih =>
    rcases Source.item_span hs hi hitem with ⟨last, hlast, hnext, -⟩
    have hlt : i < next := by omega
    have hmax : max (i + 1) next = next := Nat.max_eq_right hlt
    rw [hmax] at ih ⊢
    rw [itemsFrom, dif_pos hi, item_eq hs hi, hitem]
    simp only [Except.mapError, ok_bind]
    rw [dif_pos hlt, ih]
    cases s.itemsFrom next <;> rfl
  | case3 i hi =>
    rw [itemsFrom, dif_neg hi]
    rfl

end

/-- No look-up fails in the outline of a script but that of a function's name. -/
theorem outline_eq [Limits] (t : Text) :
    outline t = (Script.outline t).mapError OutlineError.checked := by
  unfold outline Script.outline
  cases hread : Source.read t with
  | error fault => rfl
  | ok s =>
    simp only
    rw [itemsFrom_eq hread]
    cases s.itemsFrom 0 <;> rfl

end Checked

end WasmPackage.Script
