import WasmPackage.Proofs.Text.Runs
import WasmPackage.Script.Literal

/-!
# Where literals end

Strings, comments, regular expressions and templates end by themselves: how far one reaches does not
depend on what stands behind it.  Inside a substitution strings, comments and templates end where
they end in code.
-/

namespace WasmPackage.Script

variable {limit pos stop start n : Nat} {mark : Char} {inClass : Bool} {r t u v : Text}
  {stack stack' outer : List Enclosure}

/-! ## Strings, comments, regular expressions -/

/-- A character that neither escapes another one nor stands alone is no backslash. -/
theorem ne_backslash {c : Char} (hescape : ∀ d s, c = '\\' → r = d :: s → False)
    (hlone : c = '\\' → r = [] → False) : c ≠ '\\' := by
  intro hc
  cases r with
  | nil => exact hlone hc rfl
  | cons d s => exact hescape d s hc rfl

theorem stringLength?_eq_some (h : stringLength? mark r = some n) :
    n ≤ r.length ∧ ∀ r', stringLength? mark (r.take n ++ r') = some n := by
  fun_induction stringLength? mark r generalizing n with
  | case1 c r ih =>
    rcases Option.map_eq_some_iff.mp h with ⟨m, hm, rfl⟩
    rcases ih hm with ⟨hle, hstable⟩
    exact ⟨by simpa using hle, fun r' => by simp [stringLength?, hstable r']⟩
  | case2 => cases h
  | case3 r hescape hlone =>
    cases h
    have hmark := ne_backslash hescape hlone
    exact ⟨by simp, fun r' => by simp [stringLength?, hmark]⟩
  | case4 => cases h
  | case5 c r hescape hlone hmark hnewline ih =>
    rcases Option.map_eq_some_iff.mp h with ⟨m, hm, rfl⟩
    rcases ih hm with ⟨hle, hstable⟩
    have hc := ne_backslash hescape hlone
    exact ⟨by simpa using hle, fun r' => by simp [stringLength?, hc, hmark, hnewline, hstable r']⟩
  | case6 => cases h

theorem blockCommentLength?_eq_some (h : blockCommentLength? r = some n) :
    2 ≤ n ∧ n ≤ r.length ∧ ∀ r', blockCommentLength? (r.take n ++ r') = some n := by
  fun_induction blockCommentLength? r generalizing n with
  | case1 r =>
    cases h
    exact ⟨Nat.le_refl _, by simp, fun r' => by simp [blockCommentLength?]⟩
  | case2 c r hend ih =>
    rcases Option.map_eq_some_iff.mp h with ⟨m, hm, rfl⟩
    rcases ih hm with ⟨htwo, hle, hstable⟩
    refine ⟨by omega, by simpa using hle, ?_⟩
    intro r'
    -- the rest has characters, so that the cases of the definition can be told apart
    rcases List.length_pos_iff_exists_cons.mp (show 0 < r.length by omega) with ⟨d, s, rfl⟩
    rcases Nat.exists_eq_add_one_of_ne_zero (show m ≠ 0 by omega) with ⟨m, rfl⟩
    have hbehind := hstable r'
    simp only [List.take_succ_cons, List.cons_append] at hbehind ⊢
    rw [blockCommentLength?, hbehind]
    · rfl
    · rintro s' rfl hs
      cases hs
      exact hend _ rfl rfl
  | case3 => cases h

theorem regexLength?_eq_some (h : regexLength? inClass r = some n) :
    0 < n ∧ n ≤ r.length ∧ (r.drop n).head?.any continuesIdentifier = false ∧
      ∀ r', r'.head?.any continuesIdentifier = false →
        regexLength? inClass (r.take n ++ r') = some n := by
  fun_induction regexLength? inClass r generalizing n with
  | case1 inClass c r ih =>
    rcases Option.map_eq_some_iff.mp h with ⟨m, hm, rfl⟩
    rcases ih hm with ⟨-, hle, hend, hstable⟩
    exact ⟨by omega, by simpa using hle, by simpa using hend,
      fun r' hr' => by simp [regexLength?, hstable r' hr']⟩
  | case2 => cases h
  | case3 => cases h
  | case4 inClass c r hescape hlone hnewline hclose =>
    cases h
    rw [Bool.and_eq_true, decide_eq_true_eq] at hclose
    rcases hclose with ⟨rfl, hclass⟩
    have hle := (List.takeWhile_prefix continuesIdentifier (l := r)).length_le
    rw [Nat.add_comm 1]
    refine ⟨by omega, by simp only [List.length_cons]; omega, any_head?_drop_takeWhile _ _, ?_⟩
    intro r' hr'
    rw [List.take_succ_cons, take_takeWhile, List.cons_append]
    simp [regexLength?, hclass, takeWhile_append_of_head? hr', Nat.add_comm]
  | case5 inClass c r hescape hlone hnewline hclose ih =>
    rcases Option.map_eq_some_iff.mp h with ⟨m, hm, rfl⟩
    rcases ih hm with ⟨-, hle, hend, hstable⟩
    have hc := ne_backslash hescape hlone
    refine ⟨by omega, by simpa using hle, by simpa using hend, ?_⟩
    intro r' hr'
    rw [List.take_succ_cons, List.cons_append, regexLength?, if_neg hnewline, if_neg hclose,
      hstable r' hr']
    · rfl
    · exact fun _ _ h _ => hc h
    · exact fun h _ => hc h
  | case6 => cases h

/-! ## Templates -/

/-- The construct when its text stands `k` characters further behind. -/
def Enclosure.moved (k : Nat) : Enclosure → Enclosure
  | .template start => .template (k + start)
  | .substitution start braces => .substitution (k + start) braces
  | .string mark start => .string mark (k + start)
  | .lineComment => .lineComment
  | .blockComment start => .blockComment (k + start)

/-- The open constructs close in front of `stop`, and the text up to there closes them wherever it
stands, whatever is around them and behind it. -/
def Closes (limit pos stop : Nat) (stack : List Enclosure) (t : Text) : Prop :=
  ∃ w r, t = w ++ r ∧ stop = pos + w.length ∧ (stack ≠ [] → w ≠ []) ∧
    ∀ (limit' k : Nat) (outer : List Enclosure) (v : Text), limit + outer.length ≤ limit' →
      closingOffset limit' (k + pos) (stack.map (.moved k) ++ outer) (w ++ v) =
        closingOffset limit' (k + stop) outer v

theorem Closes.step (h : Closes limit (pos + u.length) stop stack' t) (hu : u ≠ [])
    (hstep : ∀ (limit' k : Nat) (outer : List Enclosure) (t' : Text),
      limit + outer.length ≤ limit' → (stack' ≠ [] → t'.head? = t.head?) →
      closingOffset limit' (k + pos) (stack.map (.moved k) ++ outer) (u ++ t') =
        closingOffset limit' (k + pos + u.length) (stack'.map (.moved k) ++ outer) t') :
    Closes limit pos stop stack (u ++ t) := by
  rcases h with ⟨w, r, rfl, rfl, hw, hleads⟩
  refine ⟨u ++ w, r, by simp, by simp; omega, by simp [hu], ?_⟩
  intro limit' k outer v hlimit
  rw [List.append_assoc, hstep limit' k outer (w ++ v) hlimit]
  · rw [Nat.add_assoc]
    exact hleads limit' k outer v hlimit
  · intro hstack
    rcases List.exists_cons_of_ne_nil (hw hstack) with ⟨d, w, rfl⟩
    rfl

/-- What two characters do not begin here they do not begin in front of the same character. -/
theorem not_pair_of_head?_eq {a b c : Char} {r r' : Text} (hhead : r'.head? = r.head?)
    (h : ∀ s, c = a → r = b :: s → False) : ∀ s, c = a → r' = b :: s → False := by
  rintro s hc rfl
  rcases List.head?_eq_some_iff.mp hhead.symm with ⟨s', rfl⟩
  exact h s' hc rfl

theorem closes_of_closingOffset (h : closingOffset limit pos stack t = .ok stop) :
    Closes limit pos stop stack t := by
  fun_induction closingOffset limit pos stack t
  case case1 t pos =>
    cases h
    exact ⟨[], t, rfl, rfl, by simp, by simp⟩
  case case2 => cases h
  case case3 pos start outer x r ih =>
    apply (ih h).step (u := ['\\', x]) (by simp)
    simp [closingOffset, Enclosure.moved]
  case case4 => cases h
  case case5 pos start outer r hdepth ih =>
    apply (ih h).step (u := ['$', '{']) (by simp)
    intro limit' k outer' t' hlimit hhead
    have hdepth' : ¬ limit' ≤ outer.length + outer'.length + 1 := by omega
    simp [closingOffset, Enclosure.moved, hdepth']
    rfl
  case case6 pos start outer r hescape hdollar ih =>
    apply (ih h).step (u := [templateMark]) (by simp)
    simp [closingOffset, Enclosure.moved, templateMark]
  case case7 pos start outer c r hescape hdollar hmark ih =>
    apply (ih h).step (u := [c]) (by simp)
    intro limit' k outer' t' hlimit hhead
    have hdollar' := not_pair_of_head?_eq (hhead (by simp)) hdollar
    simp [closingOffset, Enclosure.moved, hmark]
  case case8 pos start braces outer r ih =>
    apply (ih h).step (u := ['/', '/']) (by simp)
    simp [closingOffset, Enclosure.moved]
  case case9 pos start braces outer r ih =>
    apply (ih h).step (u := ['/', '*']) (by simp)
    simp [closingOffset, Enclosure.moved]
  case case10 => cases h
  case case11 pos start braces outer c r hline hblock hquote hdepth ih =>
    apply (ih h).step (u := [c]) (by simp)
    intro limit' k outer' t' hlimit hhead
    have hdepth' : ¬ limit' ≤ outer.length + outer'.length + 1 := by omega
    simp at hquote
    rcases hquote with rfl | rfl <;> simp [closingOffset, Enclosure.moved, hdepth']
  case case12 => cases h
  case case13 pos start braces outer r hdepth _ _ _ ih =>
    apply (ih h).step (u := [templateMark]) (by simp)
    intro limit' k outer' t' hlimit hhead
    have hdepth' : ¬ limit' ≤ outer.length + outer'.length + 1 := by omega
    simp [closingOffset, Enclosure.moved, templateMark, hdepth']
  case case14 pos start braces outer r _ _ _ _ ih =>
    apply (ih h).step (u := ['{']) (by simp)
    simp [closingOffset, Enclosure.moved, templateMark]
  case case15 pos start braces outer r hbraces _ _ _ _ _ ih =>
    apply (ih h).step (u := ['}']) (by simp)
    simp [closingOffset, Enclosure.moved, templateMark, hbraces]
  case case16 pos start braces outer r hbraces _ _ _ _ _ ih =>
    apply (ih h).step (u := ['}']) (by simp)
    simp [closingOffset, Enclosure.moved, templateMark, hbraces]
  case case17 pos start braces outer c r hline hblock hquote hmark hopen hclose ih =>
    apply (ih h).step (u := [c]) (by simp)
    intro limit' k outer' t' hlimit hhead
    have hline' := not_pair_of_head?_eq (hhead (by simp)) hline
    have hblock' := not_pair_of_head?_eq (hhead (by simp)) hblock
    simp only [Bool.or_eq_true, decide_eq_true_eq, not_or] at hquote
    simp [closingOffset, Enclosure.moved, hquote, hmark, hopen, hclose]
  case case18 => cases h
  case case19 pos mark start outer x r ih =>
    apply (ih h).step (u := ['\\', x]) (by simp)
    simp [closingOffset, Enclosure.moved]
  case case20 pos start outer c r hescape ih =>
    apply (ih h).step (u := [c]) (by simp)
    simp [closingOffset, Enclosure.moved]
  case case21 => cases h
  case case22 pos mark start outer c r hescape hmark hnewline ih =>
    apply (ih h).step (u := [c]) (by simp)
    simp [closingOffset, Enclosure.moved, hmark, hnewline]
  case case23 pos outer r ih =>
    apply (ih h).step (u := ['\n']) (by simp)
    simp [closingOffset, Enclosure.moved]
  case case24 pos outer c r hnewline ih =>
    apply (ih h).step (u := [c]) (by simp)
    simp [closingOffset, Enclosure.moved, hnewline]
  case case25 pos start outer r ih =>
    apply (ih h).step (u := ['*', '/']) (by simp)
    simp [closingOffset, Enclosure.moved]
  case case26 pos start outer c r hend ih =>
    apply (ih h).step (u := [c]) (by simp)
    intro limit' k outer' t' hlimit hhead
    have hend' := not_pair_of_head?_eq (hhead (by simp)) hend
    simp [closingOffset, Enclosure.moved]
  case case27 => cases h

/-- A template takes as many characters along as it does alone, also inside other constructs. -/
theorem closingOffset_template (h : closingOffset limit 1 [.template 0] r = .ok stop) :
    1 ≤ stop ∧ stop - 1 ≤ r.length ∧
      ∀ (limit' pos : Nat) (outer : List Enclosure) (r' : Text), limit + outer.length ≤ limit' →
        closingOffset limit' (pos + 1) (.template pos :: outer) (r.take (stop - 1) ++ r') =
          closingOffset limit' (pos + stop) outer r' := by
  rcases closes_of_closingOffset h with ⟨w, s, rfl, rfl, -, hleads⟩
  refine ⟨by omega, by simp, ?_⟩
  intro limit' pos outer r' hlimit
  rw [Nat.add_sub_cancel_left, List.take_left]
  exact hleads limit' pos outer r' hlimit

/-! ## Literals inside a substitution -/

theorem closingOffset_string (h : stringLength? mark r = some n) :
    closingOffset limit pos (.string mark start :: outer) r =
      closingOffset limit (pos + n) outer (r.drop n) := by
  fun_induction stringLength? mark r generalizing n pos with
  | case1 c r ih =>
    rcases Option.map_eq_some_iff.mp h with ⟨m, hm, rfl⟩
    rw [closingOffset, ih hm, List.drop_succ_cons, List.drop_succ_cons]
    congr 1
    omega
  | case2 => cases h
  | case3 r hescape hlone =>
    cases h
    have hmark := ne_backslash hescape hlone
    simp [closingOffset]
  | case4 => cases h
  | case5 c r hescape hlone hmark hnewline ih =>
    rcases Option.map_eq_some_iff.mp h with ⟨m, hm, rfl⟩
    have hc := ne_backslash hescape hlone
    rw [closingOffset, if_neg hmark, if_neg hnewline, ih hm, List.drop_succ_cons]
    · congr 1
      omega
    · exact hc
  | case6 => cases h

theorem closingOffset_blockComment (h : blockCommentLength? r = some n) :
    closingOffset limit pos (.blockComment start :: outer) r =
      closingOffset limit (pos + n) outer (r.drop n) := by
  fun_induction blockCommentLength? r generalizing n pos with
  | case1 r =>
    cases h
    rw [closingOffset]
    rfl
  | case2 c r hend ih =>
    rcases Option.map_eq_some_iff.mp h with ⟨m, hm, rfl⟩
    rw [closingOffset, ih hm, List.drop_succ_cons]
    · congr 1
      omega
    · exact hend
  | case3 => cases h

/-- A line comment ends in front of its newline. -/
theorem closingOffset_lineComment (hu : ∀ c ∈ u, c ≠ '\n') :
    closingOffset limit pos (.lineComment :: outer) (u ++ '\n' :: v) =
      closingOffset limit (pos + u.length + 1) outer v := by
  induction u generalizing pos with
  | nil => simp [closingOffset]
  | cons c u ih =>
    rcases List.forall_mem_cons.mp hu with ⟨hc, hrest⟩
    rw [List.cons_append, closingOffset, if_neg hc, ih hrest, List.length_cons]
    congr 1
    omega

end WasmPackage.Script
