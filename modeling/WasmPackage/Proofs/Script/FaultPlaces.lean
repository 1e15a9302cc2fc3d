import WasmPackage.Proofs.SExpr.Faults
import WasmPackage.Proofs.Script.Failures
import WasmPackage.Proofs.Script.Matching
import WasmPackage.Proofs.Text.Positions

/-!
# Where faults are told

The fault of a script is told at the opening of something without an end, or where a token begins,
and so at an offset of the text.  The main statement is `faults_pointInto`, for scripts and for
s-expressions.
-/

namespace WasmPackage

namespace Script

variable {limit pos stop : Nat} {flag : Bool} {stack : List Enclosure} {t r : Text} {c : Char}
  {previous : Option Token} {e : Malformed × Nat} {fault : Fault Malformed}

/-! ## Constructs without an end -/

/-- Where an open construct began; a line comment is not told of. -/
def Enclosure.start : Enclosure → Nat
  | .template start => start
  | .substitution start _ => start
  | .string _ start => start
  | .lineComment => 0
  | .blockComment start => start

theorem openFault_le (hstack : ∀ x ∈ stack, x.start ≤ stop) : (openFault stack).2 ≤ stop := by
  induction stack with
  | nil => exact Nat.zero_le _
  | cons x outer ih =>
    rw [List.forall_mem_cons] at hstack
    cases x with
    | lineComment => exact ih hstack.2
    | _ => exact hstack.1

/-- The scan of a template fails in front of the end of the text, which stays where it is while the
scan goes on. -/
theorem closingOffset_error_le (h : closingOffset limit pos stack t = .error e)
    (hstop : pos + t.length = stop) (hstack : ∀ x ∈ stack, x.start ≤ stop) : e.2 ≤ stop := by
  fun_induction closingOffset limit pos stack t
  all_goals
    simp only [List.forall_mem_cons, Enclosure.start, List.length_cons, List.length_nil]
      at hstack hstop
  case case1 => cases h
  case case2 | case4 | case10 | case12 | case18 | case21 =>
    cases h
    omega
  case case27 =>
    cases h
    exact openFault_le (List.forall_mem_cons.mpr hstack)
  -- what is left are the steps of the scan
  all_goals
    rename_i ih
    refine ih h (by omega) ?_
    simp only [List.forall_mem_cons, Enclosure.start]
    grind

/-- What has no end is told of where it begins, and a template in front of the end of the text. -/
theorem Fails.le_length [Limits] (h : Fails flag c r e) : e.2 ≤ 1 + r.length := by
  cases h with
  | blockComment | string | regex => exact Nat.zero_le _
  | template hscan => exact closingOffset_error_le hscan rfl (by simp [Enclosure.start])

theorem tokensFrom_error_le [Limits]
    (h : tokensFrom pos previous t = .error e) : e.2 ≤ pos + t.length := by
  replace h := breaksOff_of_tokensFrom h
  induction h with
  | blank _ _ ih =>
    rw [List.length_cons]
    omega
  | @fails pos offset previous c r cause _ hfails =>
    have : offset ≤ 1 + r.length := hfails.le_length
    rw [List.length_cons]
    omega
  | token _ hlexes _ ih =>
    have hn := hlexes.length_le
    rw [List.length_drop] at ih
    rw [List.length_cons]
    omega

theorem pointsInto_of_tokenize [Limits] (h : tokenize t = .error fault) : fault.PointsInto t := by
  unfold tokenize at h
  cases htokens : tokensFrom 0 none t with
  | ok tokens =>
    rw [htokens] at h
    cases h
  | error e =>
    rw [htokens] at h
    cases h
    exact Fault.pointsInto_ofOffset e.1 (Nat.zero_add t.length ▸ tokensFrom_error_le htokens)

/-! ## Tokens where something is missing -/

/-- Brackets that do not match are told of where one of them begins. -/
theorem exists_start_of_isFirstFault {code : List Token} (h : IsFirstFault code e) :
    ∃ x ∈ code, e.2 = x.start := by
  cases h with
  | unbalanced _ hget => exact ⟨_, List.mem_of_getElem? hget, rfl⟩
  | mismatched _ hget => exact ⟨_, List.mem_of_getElem? hget, rfl⟩
  | unclosed _ hopen => exact ⟨_, List.mem_of_getElem? hopen.token, rfl⟩

/-- The tokens of a script stand in its text. -/
theorem start_le_of_tokenize [Limits] {tokens : List Token} (h : tokenize t = .ok tokens)
    {x : Token} (hx : x ∈ tokens) : x.start ≤ t.length := by
  have := (standIn_tokensFrom (tokensFrom_of_tokenize h)).within x hx
  omega

theorem pointsInto_of_read [Limits] (h : Source.read t = .error fault) : fault.PointsInto t := by
  cases htokens : tokenize t with
  | error fault' =>
    unfold Source.read at h
    rw [htokens] at h
    cases h
    exact pointsInto_of_tokenize htokens
  | ok tokens =>
    have hread := Source.read_of_tokenize htokens
    cases hbrackets : matchBrackets (Source.codeAmong tokens) with
    | ok pairs =>
      rcases hread.1 pairs hbrackets with ⟨s, hs, -⟩
      rw [hs] at h
      cases h
    | error e =>
      rw [hread.2 e hbrackets] at h
      cases h
      have hfirst := Source.isFoundFrom_matchBrackets (Source.codeAmong tokens)
      rw [hbrackets] at hfirst
      rcases exists_start_of_isFirstFault hfirst with ⟨x, hx, hstart⟩
      rw [hstart]
      exact Fault.pointsInto_ofOffset e.1 (start_le_of_tokenize htokens (List.mem_of_mem_filter hx))

namespace Source

variable {s : Source} {i : Nat}

theorem pointsInto_of_itemsFrom (hplaced : s.IsPlaced)
    (h : s.itemsFrom i = .error (.malformed fault)) : fault.PointsInto s.text := by
  rcases itemsFrom_error_iff.mp h with ⟨j, -, -, hitem⟩
  rcases item_error hitem with ⟨cause, k, hfault, -⟩ | ⟨hnameless, -⟩
  · cases hfault
    exact Fault.pointsInto_ofOffset cause hplaced.startAt_le
  · cases hnameless

end Source

theorem pointsInto_of_outline [Limits] (h : outline t = .error (.malformed fault)) :
    fault.PointsInto t := by
  unfold outline at h
  cases hread : Source.read t with
  | error fault' =>
    rw [hread] at h
    cases h
    exact pointsInto_of_read hread
  | ok s =>
    rw [hread] at h
    simp only at h
    cases hitems : s.itemsFrom 0 with
    | ok items =>
      rw [hitems] at h
      cases h
    | error failure =>
      rw [hitems] at h
      cases h
      rcases Source.isPlaced_of_read hread with ⟨rfl, hplaced⟩
      exact Source.pointsInto_of_itemsFrom hplaced hitems

end Script

/-! ## Both readers -/

/-- Every fault that is told of a text is placed in it.  Reading s-expressions comes to an end: it
fails for what is wrong with the text, at its place, and only for that. -/
theorem faults_pointInto [Limits] (t : Text) :
    (∀ fault, SExpr.read t = .error fault → fault.PointsInto t) ∧
      (∀ fault, Script.tokenize t = .error fault → fault.PointsInto t) ∧
      (∀ fault, Script.outline t = .error (.malformed fault) → fault.PointsInto t) ∧
      ((∃ ns, SExpr.read t = .ok ns) ↔ ¬ SExpr.IsMalformed t) ∧
      ∀ fault, SExpr.read t = .error fault ↔
        ∃ cause offset, SExpr.HasFault t cause offset ∧ fault = Fault.ofOffset t cause offset := by
  refine ⟨?_, fun _ => Script.pointsInto_of_tokenize, fun _ => Script.pointsInto_of_outline,
    SExpr.read_isOk_iff, fun _ => SExpr.read_eq_error_iff⟩
  intro fault hread
  rcases SExpr.read_eq_error_iff.mp hread with ⟨cause, offset, hfault, rfl⟩
  exact Fault.pointsInto_ofOffset cause hfault.offset_le

/-- A string whose last quotation mark is escaped, a substitution that is left open, and a function
without parameters, each on the second line; and a text with a comment and a string that can be
read. -/
theorem faults_pointInto_secondLines :
    (∃ fault, SExpr.read "(a\n \"b\\\")".toList = .error fault ∧ fault.position = ⟨2, 2⟩ ∧
      fault.PointsInto "(a\n \"b\\\")".toList ∧
      SExpr.HasFault "(a\n \"b\\\")".toList .openString 4) ∧
    (∃ fault, Script.tokenize "a\n\x60$\x7bb".toList = .error fault ∧ fault.position = ⟨2, 4⟩ ∧
      fault.PointsInto "a\n\x60$\x7bb".toList) ∧
    (∃ fault, Script.outline "let a;\nfunction f;".toList = .error (.malformed fault) ∧
      fault.position = ⟨2, 10⟩ ∧ fault.PointsInto "let a;\nfunction f;".toList) ∧
    (∃ ns, SExpr.read "(;(;;);)(a\")\")".toList = .ok ns) ∧
      ¬ SExpr.IsMalformed "(;(;;);)(a\")\")".toList := by
  have hread : SExpr.read "(a\n \"b\\\")".toList = .error ⟨.openString, 4, ⟨2, 2⟩⟩ := by
    decide +kernel
  have htokenize : Script.tokenize "a\n\x60$\x7bb".toList =
      .error ⟨.openSubstitution, 5, ⟨2, 4⟩⟩ := by decide +kernel
  have houtline : Script.outline "let a;\nfunction f;".toList =
      .error (.malformed ⟨.functionWithoutParameters, 16, ⟨2, 10⟩⟩) := by decide +kernel
  have hok : ∃ ns, SExpr.read "(;(;;);)(a\")\")".toList = .ok ns :=
    ⟨[.list [.atom ⟨"a", 9⟩, .atom ⟨"\")\"", 10⟩] 8 14], by cbv⟩
  refine ⟨⟨_, hread, rfl, (faults_pointInto _).1 _ hread, ?_⟩,
    ⟨_, htokenize, rfl, (faults_pointInto _).2.1 _ htokenize⟩,
    ⟨_, houtline, rfl, (faults_pointInto _).2.2.1 _ houtline⟩,
    hok, (faults_pointInto _).2.2.2.1.mp hok⟩
  rcases ((faults_pointInto _).2.2.2.2 _).mp hread with ⟨cause, offset, hfault, heq⟩
  cases heq
  exact hfault

end WasmPackage
