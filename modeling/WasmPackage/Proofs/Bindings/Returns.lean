import WasmPackage.Proofs.Bindings.Bodies
import WasmPackage.Proofs.Bindings.BodyCode
import WasmPackage.Proofs.Bindings.Outcomes
import WasmPackage.Proofs.Bindings.Recorded

/-!
# How output methods end

The body of an output method gets `return out;` as its last statement.  A last statement that
returned something stays for what it does, without its `return`; the one that returned nothing goes.
-/

namespace WasmPackage.Bindings

open Script (ClassShape Face HasCode Member Outline Source Token)

variable {t : Text} {o : Outline} {x first second : Token} {rest tokens : List Token}
  {i k start : Nat}
  {body : Nat × Nat}

/-! ## Where the last statement begins -/

/-- A statement ends outside of all brackets, with a semicolon or a brace. -/
theorem push_ends {scan : StatementScan} {next : Option Token}
    (h : (scan.push x next).2 = true) :
    (scan.push x next).1.opened = [] ∧ x.kind = .punctuation ∧
      (x.text = ";" ∨ x.text = "\x7d") := by
  unfold StatementScan.push at h ⊢
  simp only at h ⊢
  split at h
  · cases h
  next hkind =>
  rw [Decidable.not_not] at hkind
  split at h
  · cases h
  split at h
  · cases h
  split at h
  · cases h
  split at h
  · next hsemicolon =>
    simp_all
  split at h
  · next hbrace =>
    cases hopened : scan.opened with
    | nil => simp [hopened] at h
    | cons block outer =>
      cases outer with
      | nil => simp_all
      | cons _ _ => cases block <;> simp [hopened] at h
  split at h <;> cases h

/-- In front of the place a statement has ended, or nothing stands there. -/
def BehindEnd (tokens : List Token) (k : Nat) : Prop :=
  k = 0 ∨ ∃ x, tokens[k - 1]? = some x ∧ x.kind = .punctuation ∧ (x.text = ";" ∨ x.text = "\x7d")

/-- From the place on, where a statement begins, the scan finds the last statement at the other. -/
def ScansTo (tokens : List Token) (k last : Nat) : Prop :=
  ∃ w head, finalStatementFrom ⟨k, w, none, head, []⟩ k (tokens.drop k) = last

/-- The scan goes on behind a token, in a new statement if one has ended and another follows. -/
theorem finalStatementFrom_cons (x : Token) (rest : List Token) (scan : StatementScan) (i : Nat) :
    (∃ next tail, rest = next :: tail ∧ (scan.push x rest.head?).2 = true ∧
      finalStatementFrom scan i (x :: rest) = finalStatementFrom
        { (scan.push x rest.head?).1 with start := i + 1, first := next.text, previous := none }
        (i + 1) rest) ∨
    finalStatementFrom scan i (x :: rest) =
      finalStatementFrom (scan.push x rest.head?).1 (i + 1) rest := by
  cases rest with
  | nil => exact .inr (by simp [finalStatementFrom])
  | cons next tail =>
    rcases hpush : scan.push x (next :: tail).head? with ⟨scan', ends⟩
    rw [List.head?_cons] at hpush
    cases ends with
    | false => exact .inr (by simp [finalStatementFrom, hpush])
    | true => exact .inl ⟨next, tail, rfl, rfl, by simp [finalStatementFrom, hpush]⟩

theorem le_finalStatementFrom (scan : StatementScan) (h : scan.start ≤ i) :
    scan.start ≤ finalStatementFrom scan i rest := by
  induction rest generalizing scan i with
  | nil => exact Nat.le_refl _
  | cons x rest ih =>
    rcases finalStatementFrom_cons x rest scan i with ⟨next, tail, -, -, hgoes⟩ | hgoes
    · rw [hgoes]
      have hle := ih { (scan.push x rest.head?).1 with
        start := i + 1, first := next.text, previous := none } (Nat.le_refl (i + 1))
      exact Nat.le_trans (Nat.le_succ_of_le h) hle
    · rw [hgoes]
      have hstart := push_start scan x rest.head?
      have hle : (scan.push x rest.head?).1.start ≤ i + 1 := by omega
      exact hstart ▸ ih _ hle

theorem finalStatementFrom_begins {scan : StatementScan} (hrest : tokens.drop i = rest)
    (hscan : ScansTo tokens scan.start (finalStatementFrom scan i rest))
    (hbegins : BehindEnd tokens scan.start) :
    BehindEnd tokens (finalStatementFrom scan i rest) ∧
      ScansTo tokens (finalStatementFrom scan i rest) (finalStatementFrom scan i rest) := by
  -- on the tokens; the scan stays one that began where its statement did
  induction rest generalizing scan i with
  | nil => exact ⟨hbegins, hscan⟩
  | cons x rest ih =>
    have hbehind : tokens.drop (i + 1) = rest := by
      rw [← List.drop_drop, hrest]
      rfl
    rcases finalStatementFrom_cons x rest scan i with ⟨next, tail, -, hpush, hgoes⟩ | hgoes
    · obtain ⟨hopened, hkind, htext⟩ := push_ends hpush
      rw [hgoes]
      refine ih hbehind ⟨next.text, (scan.push x rest.head?).1.head, ?_⟩
        (.inr ⟨x, ?_, hkind, htext⟩)
      · simp only [hbehind, ← hopened]
      · have hget : (tokens.drop i)[0]? = some x := by
          rw [hrest]
          rfl
        rwa [List.getElem?_drop, Nat.add_zero] at hget
    · rw [hgoes] at hscan ⊢
      have hstart := push_start scan x rest.head?
      exact ih hbehind (hstart.symm ▸ hscan) (hstart.symm ▸ hbegins)

/-- The last statement begins behind the end of another one, and the scan finds it again from
there. -/
theorem lastStatement_begins (tokens : List Token) :
    BehindEnd tokens (lastStatement tokens) ∧
      ScansTo tokens (lastStatement tokens) (lastStatement tokens) :=
  finalStatementFrom_begins List.drop_zero ⟨_, _, rfl⟩ (.inl rfl)

/-- A last statement that returns nothing ends with its semicolon. -/
theorem eq_nil_of_semicolon (htokens : tokens.drop (lastStatement tokens) = first :: second :: rest)
    (hfirst : first.text = "return") (hkind : second.kind = .punctuation)
    (hsecond : second.text = ";") : rest = [] := by
  obtain ⟨w, head, hscan⟩ := (lastStatement_begins tokens).2
  rw [htokens] at hscan
  generalize lastStatement tokens = last at hscan
  cases rest with
  | nil => rfl
  | cons third rest =>
    -- the scan goes on in a statement that begins behind the semicolon
    have hpush : (⟨last, w, none, head, []⟩ : StatementScan).push first (some second) =
        (⟨last, w, some first, head, []⟩, false) := by
      simp [StatementScan.push, hfirst]
    have hpush' : (⟨last, w, some first, head, []⟩ : StatementScan).push second (some third) =
        (⟨last, w, some second, head, []⟩, true) := by
      simp [StatementScan.push, hkind, hsecond]
    have hgoes : finalStatementFrom ⟨last, w, none, head, []⟩ last
        (first :: second :: third :: rest) = finalStatementFrom
          ⟨last + 1 + 1, third.text, none, head, []⟩ (last + 1 + 1) (third :: rest) := by
      simp [finalStatementFrom, hpush, hpush']
    have hle : last + 1 + 1 ≤ finalStatementFrom ⟨last + 1 + 1, third.text, none, head, []⟩
        (last + 1 + 1) (third :: rest) :=
      le_finalStatementFrom ⟨last + 1 + 1, third.text, none, head, []⟩ (Nat.le_refl _)
    rw [← hgoes, hscan] at hle
    omega

/-! ## Output methods and what becomes of their code -/

/-- The code of an output method that had these tokens between its braces: the return stands
behind them, in the place of a last statement that returned nothing, and one that returned
something does not return it any more. -/
def returningCode (tokens : List Token) : List Face :=
  let last := lastStatement tokens
  match tokens.drop last with
  | [] => outCode
  | first :: rest =>
    if first.face ≠ word "return" then tokens.map Token.face ++ (separator tokens ++ outCode)
    else if rest.map Token.face ∈ [[], [mark ";"]] then
      (tokens.take last).map Token.face ++ outCode
    else (tokens.take last).map Token.face ++
      (rest.map Token.face ++ (separator tokens ++ outCode))

/-- The last statement is the word that returns, without a semicolon. -/
def EndsBare (tokens : List Token) : Prop :=
  (tokens.drop (lastStatement tokens)).map Token.face = [word "return"]

/-- The last statement returns what begins with a regular expression, and a brace ends the statement
in front of it. -/
def HidesRegex (tokens : List Token) : Prop :=
  ((tokens.drop (lastStatement tokens)).head?.any (fun x => x.face = word "return") &&
    (tokens.drop (lastStatement tokens)).tail.head?.any (fun x => x.kind = .regex) &&
    (tokens.take (lastStatement tokens)).getLast?.any (fun x => x.text = "\x7d")) = true

instance (tokens : List Token) : Decidable (EndsBare tokens) :=
  inferInstanceAs (Decidable (_ = _))

instance (tokens : List Token) : Decidable (HidesRegex tokens) :=
  inferInstanceAs (Decidable (_ = _))

/-- The code tokens between the braces of a body. -/
abbrev bodyCode (o : Outline) (body : Nat × Nat) : List Token :=
  o.tokensWithin (body.1 + 1) (body.2 - 1)

/-- In front of the last statement stands a semicolon or a brace, or nothing. -/
theorem face_before_last {y : Token}
    (hy : y ∈ (tokens.take (lastStatement tokens)).getLast?) :
    y.face = mark ";" ∨ y.face = mark "\x7d" := by
  rcases (lastStatement_begins tokens).1 with hzero | ⟨x, hx, hkind, htext⟩
  · rw [hzero] at hy
    cases hy
  · rw [List.getLast?_take, hx] at hy
    split at hy
    · cases hy
    · cases hy
      exact htext.imp (Prod.ext hkind) (Prod.ext hkind)

section

variable {tail : Token} (htext : o.text = t)

theorem returnEdits_of_nil (hnone : bodyCode o body = []) :
    returnEdits o start body = [⟨body.1 + 1, body.1 + 1, '\n' :: o.text.lineIndent start ++
      "    ".toList ++ outReturn ++ '\n' :: o.text.lineIndent start⟩] := by
  simp [returnEdits, hnone]

variable (hdrop : (bodyCode o body).drop
    (lastStatement (bodyCode o body)) = first :: rest)
  (htail : (bodyCode o body).getLast? = some tail)

include htext hdrop htail

theorem returnEdits_kept (h : first.is "return" = false ∨ rest = []) :
    returnEdits o start body = [⟨tail.stop, tail.stop,
      ending t (bodyCode o body) first⟩] := by
  rcases h with hfirst | rfl
  · simp [returnEdits, ending, hdrop, htail, hfirst, htext]
  · simp [returnEdits, ending, hdrop, htail, htext]

omit htext in
theorem returnEdits_replaced (hrest : rest = second :: tokens) (hfirst : first.is "return" = true)
    (hsecond : second.text = ";") :
    returnEdits o start body = [⟨first.start, second.stop, outReturn⟩] := by
  subst hrest
  simp [returnEdits, hdrop, htail, hfirst, hsecond]

theorem returnEdits_taken (hrest : rest = second :: tokens) (hfirst : first.is "return" = true)
    (hsecond : second.text ≠ ";") :
    returnEdits o start body = [⟨first.start, second.start, []⟩, ⟨tail.stop, tail.stop,
      ending t (bodyCode o body) first⟩] := by
  subst hrest
  simp [returnEdits, ending, hdrop, htail, hfirst, hsecond, htext]

end

/-- A body that gets a return becomes this text between braces. -/
def Becomes (t : Text) (o : Outline) (start : Nat) (body : Nat × Nat) (inner : Text) : Prop :=
  t.editedSpan (returnEdits o start body) body.1 body.2 = '\x7b' :: (inner ++ ['\x7d'])

section

variable [Limits] {tail : Token} (houtline : Script.outline t = .ok o)
    (hbody : o.source.IsBody body)

include houtline hbody

theorem becomes_of_nil (start : Nat) (hnone : bodyCode o body = []) :
    ∃ inner, Becomes t o start body inner ∧ HasCode inner outCode := by
  obtain ⟨hs, -⟩ := Script.outline_eq_ok_iff.mp houtline
  obtain ⟨hab, -⟩ := hbody.cuts hs
  refine ⟨_, ?_, hasCode_empty hs hbody (o.text.lineIndent start)
    (fun _ => isBlank_of_mem_lineIndent) hnone⟩
  rw [Becomes, returnEdits_of_nil hnone,
    editedSpan_body_singleton hs hbody (Nat.le_refl _) (Nat.le_refl _) hab]
  simp [Text.slice]

variable (hdrop : (bodyCode o body).drop
    (lastStatement (bodyCode o body)) = first :: rest)

include hdrop

omit hbody in
theorem exists_tail : ∃ tail, (bodyCode o body).getLast? = some tail ∧
    body.1 + 1 ≤ tail.start ∧ tail.start ≤ tail.stop ∧ tail.stop ≤ body.2 - 1 := by
  obtain ⟨hs, -⟩ := Script.outline_eq_ok_iff.mp houtline
  cases htail : (bodyCode o body).getLast? with
  | none =>
    rw [List.getLast?_eq_none_iff.mp htail, List.drop_nil] at hdrop
    cases hdrop
  | some tail =>
    have hplace := (Source.standIn_codeIn hs).within tail (List.mem_of_getLast? htail)
    exact ⟨tail, rfl, hplace.1, Nat.le_of_lt hplace.2.1, hplace.2.2⟩

/-- A body whose last statement is not taken back keeps its code. -/
theorem becomes_kept (start : Nat) (h : first.is "return" = false ∨ rest = []) :
    ∃ inner, Becomes t o start body inner ∧ HasCode inner ((bodyCode o body).map Token.face ++
      (separator (bodyCode o body) ++ outCode)) := by
  obtain ⟨hs, -⟩ := Script.outline_eq_ok_iff.mp houtline
  obtain ⟨tail, htail, hfirst, hlt, hlast⟩ := exists_tail houtline hdrop
  refine ⟨_, ?_, hasCode_kept hs hbody htail first⟩
  rw [Becomes, returnEdits_kept (Script.isPlaced_of_outline houtline).1 hdrop htail h,
    editedSpan_body_singleton hs hbody (Nat.le_trans hfirst hlt) (Nat.le_refl _) hlast]
  simp only [List.append_assoc]
  rfl

variable (hrest : rest = second :: tokens)

include hrest

omit hbody in
/-- The places of the last statement's first two tokens, in a body. -/
theorem places_of_drop : body.1 + 1 ≤ first.start ∧ first.start ≤ second.start ∧
    second.start ≤ second.stop ∧ second.stop ≤ body.2 - 1 ∧
    ∀ tail ∈ (bodyCode o body).getLast?, second.stop ≤ tail.stop := by
  obtain ⟨hs, -⟩ := Script.outline_eq_ok_iff.mp houtline
  have hstand : Script.StandIn (body.1 + 1) (body.2 - 1) (bodyCode o body) :=
    Source.standIn_codeIn hs
  have hbehind := hstand.sublist (List.drop_sublist (lastStatement (bodyCode o body)) _)
  have hmem : second ∈ bodyCode o body := by
    apply List.mem_of_mem_drop (i := lastStatement (bodyCode o body))
    simp [hdrop, hrest]
  rw [hdrop, hrest] at hbehind
  have hfirst := hbehind.within first (by simp)
  have hsecond := hbehind.within second (by simp)
  have hnext := List.rel_of_pairwise_cons hbehind.ordered List.mem_cons_self
  refine ⟨hfirst.1, by omega, by omega, hsecond.2.2, ?_⟩
  intro tail htail
  exact stop_le_getLast? hstand htail hmem

variable (hfirst : first.text = "return") (hreturn : first.is "return" = true)

include hfirst hreturn

/-- A last statement that returns nothing gives its place to the return. -/
theorem becomes_replaced (start : Nat) (hsecond : second.text = ";") (htokens : tokens = []) :
    ∃ inner, Becomes t o start body inner ∧ HasCode inner
      (((bodyCode o body).take (lastStatement (bodyCode o body))).map Token.face ++ outCode) := by
  obtain ⟨hs, -⟩ := Script.outline_eq_ok_iff.mp houtline
  obtain ⟨tail, htail, -⟩ := exists_tail houtline hdrop
  obtain ⟨hplace, hnext, hlt, hplace', -⟩ := places_of_drop houtline hdrop hrest
  have hsplit := List.take_append_drop (lastStatement (bodyCode o body)) (bodyCode o body)
  rw [hdrop, hrest, htokens] at hsplit
  refine ⟨_, ?_, hasCode_replaced hs hbody hfirst (fun _ => face_before_last) hsplit.symm⟩
  rw [Becomes, returnEdits_replaced hdrop htail hrest hreturn hsecond,
    editedSpan_body_singleton hs hbody hplace (Nat.le_trans hnext hlt) hplace']
  simp only [List.append_assoc]

/-- What a last statement returned stays, in the code before it, if it does not begin with a
regular expression that would stand behind a brace. -/
theorem becomes_taken (start : Nat) (hsecond : second.text ≠ ";") :
    ∃ inner, Becomes t o start body inner ∧
      (HasCode inner (((bodyCode o body).take (lastStatement (bodyCode o body))).map Token.face ++
        ((second :: tokens).map Token.face ++ (separator (bodyCode o body) ++ outCode))) ↔
      (((bodyCode o body).take (lastStatement (bodyCode o body))).getLast?.any
        (fun y => y.text = "\x7d") = true → second.kind ≠ .regex)) := by
  obtain ⟨hs, -⟩ := Script.outline_eq_ok_iff.mp houtline
  obtain ⟨tail, htail, -, -, hlast⟩ := exists_tail houtline hdrop
  obtain ⟨hplace, hnext, hlt, -, htailStop⟩ := places_of_drop houtline hdrop hrest
  have hsplit := List.take_append_drop (lastStatement (bodyCode o body)) (bodyCode o body)
  rw [hdrop, hrest] at hsplit
  refine ⟨t.slice (body.1 + 1) first.start ++ (t.slice second.start tail.stop ++
    (ending t (bodyCode o body) first ++ t.slice tail.stop (body.2 - 1))), ?_, ?_, ?_⟩
  · rw [Becomes, returnEdits_taken (Script.isPlaced_of_outline houtline).1 hdrop htail hrest hreturn
      hsecond, editedSpan_body_pair hs hbody hplace hnext (Nat.le_trans hlt (htailStop tail htail))
        (Nat.le_refl _) hlast]
    simp only [List.append_assoc, List.nil_append]
  · intro hcode hbrace hregex
    exact not_hasCode_taken hs hbody hfirst (fun _ => face_before_last) hsplit.symm htail hregex
      hbrace hcode
  · intro hregex
    exact hasCode_taken hs hbody hfirst (fun _ => face_before_last) hsplit.symm htail hregex

end

/-- A last statement of more than the word that returns is read as the expected code, if it does
not hide a regular expression. -/
theorem becomes_returned [Limits] (houtline : Script.outline t = .ok o)
    (hbody : o.source.IsBody body)
    (hdrop : (bodyCode o body).drop (lastStatement (bodyCode o body)) = first :: second :: tokens)
    (hface : first.face = word "return") (start : Nat) :
    ∃ inner, Becomes t o start body inner ∧
      (HasCode inner (returningCode (bodyCode o body)) ↔ ¬ HidesRegex (bodyCode o body)) := by
  obtain ⟨hs, -⟩ := Script.outline_eq_ok_iff.mp houtline
  obtain ⟨hkind, hfirst⟩ : first.kind = .identifier ∧ first.text = "return" := Prod.mk.inj hface
  have hreturn : first.is "return" = true := by simp [Token.is, hkind, hfirst]
  have hmem : second ∈ bodyCode o body := by
    apply List.mem_of_mem_drop (i := lastStatement (bodyCode o body))
    simp [hdrop]
  obtain ⟨flag, hlexeme⟩ := Source.isLexeme_of_code hs (Source.mem_code_of_codeIn hmem)
  by_cases hnothing : second.text = ";"
  case pos =>
    have hkind' : second.kind = .punctuation :=
      hlexeme.kind_of_isMark (c := ';') (by rw [hnothing]; rfl) (by decide)
    have hsemicolon : second.face = mark ";" := Prod.ext hkind' hnothing
    have hlone := eq_nil_of_semicolon hdrop hfirst hkind' hnothing
    obtain ⟨inner, hinner, hcode⟩ :=
      becomes_replaced houtline hbody hdrop rfl hfirst hreturn start hnothing hlone
    refine ⟨inner, hinner, iff_of_true ?_ ?_⟩
    · simpa [returningCode, hdrop, hface, hlone, hsemicolon] using hcode
    · simp [HidesRegex, hdrop, hkind']
  case neg =>
    have hvalue : second.face ≠ mark ";" := fun h => hnothing (Prod.mk.inj h).2
    obtain ⟨inner, hinner, hcode⟩ :=
      becomes_taken houtline hbody hdrop rfl hfirst hreturn start hnothing
    have hexpected : returningCode (bodyCode o body) =
        ((bodyCode o body).take (lastStatement (bodyCode o body))).map Token.face ++
          ((second :: tokens).map Token.face ++ (separator (bodyCode o body) ++ outCode)) := by
      simp [returningCode, hdrop, hface, hvalue]
    refine ⟨inner, hinner, ?_⟩
    rw [hexpected, hcode, HidesRegex, hdrop]
    simp only [List.head?_cons, Option.any_some, hface, decide_true, Bool.true_and,
      List.tail_cons, Bool.and_eq_true, decide_eq_true_eq, not_and, ne_eq]
    exact imp_not_comm

/-- A body that gets a return is read as the expected code if its last statement is not bare and
does not hide a regular expression. -/
theorem becomes_returning [Limits] (houtline : Script.outline t = .ok o)
    (hbody : o.source.IsBody body) (start : Nat) :
    ∃ inner, Becomes t o start body inner ∧
      (HasCode inner (returningCode (bodyCode o body)) ↔
        ¬ EndsBare (bodyCode o body) ∧ ¬ HidesRegex (bodyCode o body)) := by
  obtain ⟨hs, -⟩ := Script.outline_eq_ok_iff.mp houtline
  cases hdrop : (bodyCode o body).drop (lastStatement (bodyCode o body)) with
  | nil =>
    have hnone : bodyCode o body = [] := drop_lastStatement_eq_nil_iff.mp hdrop
    obtain ⟨inner, hinner, hcode⟩ := becomes_of_nil houtline hbody start hnone
    refine ⟨inner, hinner, iff_of_true ?_ ?_⟩
    · simpa [returningCode, hnone] using hcode
    · simp [EndsBare, HidesRegex, hnone]
  | cons first rest =>
    have hmem : first ∈ bodyCode o body := by
      apply List.mem_of_mem_drop (i := lastStatement (bodyCode o body))
      simp [hdrop]
    obtain ⟨flag, hlexeme⟩ := Source.isLexeme_of_code hs (Source.mem_code_of_codeIn hmem)
    by_cases hfirst : first.text = "return"
    case neg =>
      have hface : first.face ≠ word "return" := fun h => hfirst (Prod.mk.inj h).2
      obtain ⟨inner, hinner, hcode⟩ :=
        becomes_kept houtline hbody hdrop start (.inl (by simp [Token.is, hfirst]))
      refine ⟨inner, hinner, iff_of_true ?_ ?_⟩
      · simpa [returningCode, hdrop, hface] using hcode
      · simp [EndsBare, HidesRegex, hdrop, hface]
    case pos =>
    have hkind : first.kind = .identifier :=
      hlexeme.kind_of_startsIdentifier (by rw [hfirst]; decide)
    have hface : first.face = word "return" := Prod.ext hkind hfirst
    cases rest with
    | nil =>
      -- the bare word stays, behind a semicolon of its own
      obtain ⟨inner, hinner, hcode⟩ := becomes_kept houtline hbody hdrop start (.inr rfl)
      refine ⟨inner, hinner, iff_of_false ?_ ?_⟩
      · intro hexpected
        have hsame := congrArg List.length (hcode.unique hexpected)
        have hlength := congrArg List.length hdrop
        rw [List.length_drop] at hlength
        simp [returningCode, hdrop, hface] at hsame
        simp only [List.length_cons, List.length_nil] at hlength
        omega
      · simp [EndsBare, hdrop, hface]
    | cons second tokens =>
      have hbare : ¬ EndsBare (bodyCode o body) := by simp [EndsBare, hdrop]
      obtain ⟨inner, hinner, hcode⟩ := becomes_returned houtline hbody hdrop hface start
      exact ⟨inner, hinner, hcode.trans (and_iff_right hbare).symm⟩

/-! ## The glue -/

/-- Glue that is revised has the expected code in each output method that is reported, if the last
statement of that is neither the bare word that returns nor hides a regular expression. -/
theorem reviseGlue_returns [Limits] {offsets : OffsetTable} {internal : String} {r : Revised}
    (h : reviseGlue t offsets internal = .ok r) :
    ∃ o edits, Script.outline t = .ok o ∧ edits = glueEdits o offsets internal ∧
      r.text = t.edited edits ∧
      r.outMethods = (membersOf o).flatMap (fun c =>
        ((revisedOutput? c.2).map fun (_, type, _) => ⟨c.1.name, c.2.name, type⟩).toList) ∧
      (KeepsMembers o → ∀ c ∈ membersOf o, ∀ body type span,
        revisedOutput? c.2 = some (body, type, span) →
          ∃ inner, t.edited edits = t.editedSpan edits 0 body.1 ++ '\x7b' :: (inner ++ ['\x7d']) ++
              t.editedSpan edits body.2 (t.length + 1) ∧
            (HasCode inner (returningCode (bodyCode o body)) ↔
              ¬ EndsBare (bodyCode o body) ∧ ¬ HidesRegex (bodyCode o body))) := by
  obtain ⟨o, houtline, hsuits, hsound, rfl⟩ := reviseGlue_eq_ok_iff.mp h
  obtain ⟨loader, body, hloader, hbody⟩ := hsuits.loader
  refine ⟨o, _, houtline, rfl, hsound.apply_eq, rfl, ?_⟩
  intro hkeeps c hc body type span houtput
  have hnested := (Script.isNested_classes_iff houtline).mpr hkeeps
  obtain ⟨hclass, hmember⟩ := mem_of_mem_membersOf hc
  have hisBody := Script.isBody_of_member houtline hclass hmember
    (Option.mem_def.mpr (revisedOutput?_eq_some_iff.mp houtput).1)
  obtain ⟨hs, -⟩ := Script.outline_eq_ok_iff.mp houtline
  obtain ⟨hab, hlt, hlength, -⟩ := hisBody.cuts hs
  obtain ⟨inner, hinner, hcode⟩ := becomes_returning houtline hisBody c.2.start
  refine ⟨inner, ?_, hcode⟩
  rw [Text.edited_eq_append (a := body.1) _ (by omega) hlength,
    editedSpan_output houtline hnested hloader (by simp [hbody]) hc houtput, hinner]

/-- Glue with output methods whose bodies return nothing behind a statement, return a regular
expression, and have no code. -/
def severalBodies : Text :=
  "class V\x7bget elements()\x7b\x7d/**@param\x7bV\x7dout@return\x7bvoid\x7d*/".toList ++
    "static x(out)\x7bf(out);return;\x7d/**@param\x7bV\x7dout@return\x7bvoid\x7d*/".toList ++
    "static y(out)\x7bf(out);return/b/g/*c*/\x7d".toList ++
    "/**@param\x7bV\x7dout@return\x7bvoid\x7d*/".toList ++
    "static z(out)\x7b//d\n\x7d\x7dfunction init()\x7b\x7d".toList

theorem reviseGlue_returns_severalBodies : ∃ r o edits,
    reviseGlue severalBodies ⟨[("V", 1)]⟩ defaultInternalName = .ok r ∧
      Script.outline severalBodies = .ok o ∧ KeepsMembers o ∧ r.text = severalBodies.edited edits ∧
      (revisedMethods o).length = 3 ∧
      ∀ c ∈ membersOf o, ∀ body type span, revisedOutput? c.2 = some (body, type, span) →
        ∃ inner, severalBodies.edited edits = severalBodies.editedSpan edits 0 body.1 ++
            '\x7b' :: (inner ++ ['\x7d']) ++
              severalBodies.editedSpan edits body.2 (severalBodies.length + 1) ∧
          HasCode inner (returningCode (bodyCode o body)) := by
  have hchecks : (Script.outline severalBodies).toOption.any (fun o => KeepsMembers o ∧
      (revisedMethods o).length = 3 ∧ ∀ c ∈ membersOf o, (revisedOutput? c.2).all (fun found =>
        ¬ EndsBare (bodyCode o found.1) ∧ ¬ HidesRegex (bodyCode o found.1))) = true := by
    decide +kernel
  obtain ⟨r, h⟩ : ∃ r, reviseGlue severalBodies ⟨[("V", 1)]⟩ defaultInternalName = .ok r :=
    exists_eq_ok_of_isOk (by decide +kernel)
  obtain ⟨o, edits, houtline, -, htext, -, hbodies⟩ := reviseGlue_returns h
  rw [houtline] at hchecks
  simp only [Except.toOption, Option.any_some, decide_eq_true_eq] at hchecks
  obtain ⟨hkeeps, hmethods, hconditions⟩ := hchecks
  refine ⟨r, o, edits, h, houtline, hkeeps, htext, hmethods, ?_⟩
  intro c hc body type span houtput
  obtain ⟨inner, hinner, hcode⟩ := hbodies hkeeps c hc body type span houtput
  have hcondition := hconditions c hc
  rw [houtput, Option.all_some, decide_eq_true_eq] at hcondition
  exact ⟨inner, hinner, hcode.mpr hcondition⟩

/-- Glue with an output method whose body is the bare word that returns. -/
def bareReturn : Text :=
  "class V\x7bget elements()\x7b\x7d/**@param\x7bV\x7dout@return\x7bvoid\x7d*/".toList ++
    "static z(out)\x7breturn\x7d\x7dfunction init()\x7b\x7d".toList

/-- Where the last statement is the bare word, it stays in front of the return. -/
theorem bareReturn_stays : ∃ r o c body inner,
    reviseGlue bareReturn ⟨[("V", 1)]⟩ defaultInternalName = .ok r ∧
      Script.outline bareReturn = .ok o ∧ c ∈ membersOf o ∧
      (revisedOutput? c.2).map Prod.fst = some body ∧
      (bodyCode o body).map Token.face = [word "return"] ∧
      returningCode (bodyCode o body) = [word "return", word "out", mark ";"] ∧
      r.text = bareReturn.editedSpan (glueEdits o ⟨[("V", 1)]⟩ defaultInternalName) 0 body.1 ++
        '\x7b' :: (inner ++ ['\x7d']) ++ bareReturn.editedSpan
          (glueEdits o ⟨[("V", 1)]⟩ defaultInternalName) body.2 (bareReturn.length + 1) ∧
      HasCode inner [word "return", mark ";", word "return", word "out", mark ";"] := by
  have hchecks : (Script.outline bareReturn).toOption.any (fun o =>
      (membersOf o).any (fun c => (revisedOutput? c.2).any (fun (body, _) =>
        (bodyCode o body).map Token.face = [word "return"] ∧
        returningCode (bodyCode o body) = [word "return", word "out", mark ";"] ∧
        body.1 ≤ body.2 ∧ body.2 ≤ bareReturn.length ∧
        bareReturn.editedSpan (glueEdits o ⟨[("V", 1)]⟩ defaultInternalName) body.1 body.2 =
          '\x7b' :: ("return;\nreturn out;".toList ++ ['\x7d'])))) = true := by
    decide +kernel
  obtain ⟨r, h⟩ : ∃ r, reviseGlue bareReturn ⟨[("V", 1)]⟩ defaultInternalName = .ok r :=
    exists_eq_ok_of_isOk (by decide +kernel)
  obtain ⟨o, houtline, -, hsound, rfl⟩ := reviseGlue_eq_ok_iff.mp h
  rw [houtline] at hchecks
  simp only [Except.toOption, Option.any_some, List.any_eq_true] at hchecks
  obtain ⟨c, hc, hfound⟩ := hchecks
  cases houtput : revisedOutput? c.2 with
  | none =>
    rw [houtput] at hfound
    cases hfound
  | some found =>
    obtain ⟨body, type, span⟩ := found
    rw [houtput, Option.any_some, decide_eq_true_eq] at hfound
    obtain ⟨hcode, hexpected, hle, hlength, hedited⟩ := hfound
    refine ⟨_, o, c, body, "return;\nreturn out;".toList, h, houtline, hc, by simp [houtput],
      hcode, hexpected, ?_, ?_⟩
    · rw [hsound.apply_eq, Text.edited_eq_append _ hle hlength, hedited]
    · decide +kernel

end WasmPackage.Bindings
