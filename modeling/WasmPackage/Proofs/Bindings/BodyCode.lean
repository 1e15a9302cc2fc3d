import WasmPackage.Bindings.Glue
import WasmPackage.Proofs.Bindings.EditPlaces
import WasmPackage.Proofs.Bindings.Statements
import WasmPackage.Proofs.Script.Cuts
import WasmPackage.Proofs.Text.Spans

/-!
# The code of a body that gets a return

The body of an output method is put together from parts of what it was and the statement that
returns the result.  Each part is read as before where it stands now, apart from a regular
expression that comes to stand behind a brace.
-/

namespace WasmPackage.Bindings

open Script (Face HasCode IsCut Source Stretch Token codeOf isWord regexBehind regexMayFollow
  runsOn)

variable {t v : Text} {s : Source} {x first second : Token} {rest tokens front : List Token}
  {flag : Bool} {a b k : Nat} {body : Nat × Nat}

/-! ## The code that ends a body -/

/-- The code of the statement that ends an output method. -/
def outCode : List Face := [word "return", word outName, mark ";"]

/-- What stands between code and a statement behind it: a semicolon, if the code does not end with
one or with a brace. -/
def separator (tokens : List Token) : List Face :=
  if tokens.getLast?.any (fun x => [";", "\x7d"].contains x.text) then [] else [mark ";"]

theorem stretch_outReturn [Limits] : Stretch v flag outReturn outCode true := by
  have htext : outReturn = "return".toList ++ ' ' :: ("out".toList ++ (";".toList ++ [])) := rfl
  have hbehind : regexBehind (regexBehind (regexBehind flag ⟨.identifier, "return", 0⟩)
      ⟨.identifier, "out", 0⟩) ⟨.punctuation, ";", 0⟩ = true := rfl
  rw [htext, outCode]
  refine .token (Script.isLexeme_of_isWord (by decide) _) rfl (.blank rfl ?_)
  refine .token (Script.isLexeme_of_isWord (by decide) _) rfl ?_
  refine .token (Script.isLexeme_of_isMark (by decide) (by decide) (by decide)) ?_ ?_
  · simp [runsOn]
  · rw [hbehind]
    exact .nil

theorem isBlank_of_mem_lineIndent {c : Char} (h : c ∈ t.lineIndent k) : isBlank c = true := by
  have hc := List.mem_takeWhile_imp h
  rw [Bool.or_eq_true, decide_eq_true_eq, decide_eq_true_eq] at hc
  rcases hc with rfl | rfl
  · rfl
  · rfl

/-- What comes behind the code of a body: a semicolon where it needs one, and the return. -/
def ending (t : Text) (tokens : List Token) (first : Token) : Text :=
  (if (tokens.getLast?).any (fun x => [";", "\x7d"].contains x.text) then [] else [';']) ++
    '\n' :: t.lineIndent first.start ++ outReturn

theorem stretch_ending [Limits] :
    Stretch v flag (ending t tokens first) (separator tokens ++ outCode) true := by
  have hline (flag : Bool) :
      Stretch v flag ('\n' :: t.lineIndent first.start ++ outReturn) outCode true :=
    .blank rfl ((Stretch.blanks fun _ => isBlank_of_mem_lineIndent).append stretch_outReturn)
  unfold ending separator
  split
  · exact hline flag
  · refine .token (w := ";") ?_ ?_ (hline _)
    · exact Script.isLexeme_of_isMark (by decide) (by decide) (by decide)
    · simp [runsOn]

/-! ## Parts of a body -/

section

variable [Limits] (hs : Source.read t = .ok s)

include hs

/-- The code up to a token is read in front of what comes behind the code of a body. -/
theorem stretch_upTo (hx : x ∈ s.code.toList) (ha : a ≤ x.start) (hcut : IsCut s.tokens a)
    (hv : v.head? = some '\n' ∨ v.head? = some ';') :
    Stretch v (regexMayFollow (s.codeBefore a)) (t.slice a x.stop) (s.facesIn a x.stop)
      (regexMayFollow (some x)) := by
  have hplace := (Source.standIn_code hs).within x hx
  have hcut' := (Source.isCut_of_code hs hx).2
  have hstretch := Source.stretch_of_read hs (by omega) hplace.2.2 hcut hcut'
  rw [Source.codeBefore_stop hs hx] at hstretch
  refine hstretch.of_last ?_ ?_
  · rw [Source.getLast?_facesIn hs hx ha]
    rintro f ⟨⟩ -
    cases v with
    | nil => simp at hv
    | cons c v =>
      rw [List.head?_cons, Option.some.injEq, Option.some.injEq] at hv
      rcases hv with rfl | rfl
      · exact Script.runsOn_newline _ _
      · exact Script.runsOn_semicolon (Source.kind_ne_of_code hs hx) _ _
  · intro hpoint
    rw [hpoint] at hv
    rcases hv with hv | hv
    · cases hv
    · cases hv

/-- The code in front of a word is read in front of anything if a semicolon or a brace ends it. -/
theorem stretch_before (hx : x ∈ s.code.toList) (hword : isWord x.text = true) (ha : a ≤ x.start)
    (hcut : IsCut s.tokens a)
    (hend : ∀ y ∈ (s.codeIn a x.start).getLast?, y.face = mark ";" ∨ y.face = mark "\x7d") :
    Stretch v (regexMayFollow (s.codeBefore a)) (t.slice a x.start) (s.facesIn a x.start)
      (regexMayFollow (s.codeBefore x.start)) := by
  have hplace := (Source.standIn_code hs).within x hx
  have hstretch := Source.stretch_of_read hs ha (by omega) hcut (Source.isCut_of_code hs hx).1
  obtain ⟨c, r, htext, hnewline⟩ : ∃ c r, x.text.toList = c :: r ∧ c ≠ '\n' := by
    unfold isWord at hword
    split at hword
    · cases hword
    · next c r htext =>
      refine ⟨c, r, htext, ?_⟩
      rintro rfl
      cases hword
  have hfirst : (t.drop x.start).head? = some c := by
    rw [Source.drop_start hs hx, htext, List.cons_append, List.head?_cons]
  -- the last token is a semicolon, a brace, or a comment that ends in front of the word
  have hlast : ∀ f ∈ (s.facesIn a x.start).getLast?,
      (f = mark ";" ∨ f = mark "\x7d") ∨ f.1 = .comment ∧ f.2 ≠ "." := by
    intro f hf
    by_cases hcomment : f.1 = .comment
    · refine .inr ⟨hcomment, ?_⟩
      obtain ⟨y, hy, rfl⟩ := List.mem_map.mp (List.mem_of_getLast? hf)
      exact Source.text_ne_of_comment hs (List.mem_of_mem_filter hy) hcomment
    · left
      have hcode := Script.getLast?_codeOf hf hcomment
      rw [Source.codeOf_facesIn hs, List.getLast?_map, Option.map_eq_some_iff] at hcode
      obtain ⟨y, hy, rfl⟩ := hcode
      exact hend y hy
  refine hstretch.of_last ?_ ?_
  · intro f hf hruns
    rcases hlast f hf with (rfl | rfl) | ⟨hcomment, -⟩
    · simp [runsOn]
    · simp [runsOn]
    · obtain ⟨kind, w⟩ := f
      simp only at hcomment
      subst hcomment
      -- a comment that runs on to the end of its line does not end in front of a word
      have hline : Text.startsWith w.toList ['/', '/'] = false := by
        simpa [runsOn, hfirst, hnewline] using hruns
      simp [runsOn, hline]
  · intro _ f hf hpoint
    rcases hlast f hf with (rfl | rfl) | ⟨-, hne⟩
    · exact absurd hpoint (by decide)
    · exact absurd hpoint (by decide)
    · exact hne hpoint

/-- A part without code is comments, which are read behind anything. -/
theorem stretch_comments (flag : Bool) (hk : k ≤ b) (hb : b ≤ t.length) (hcut : IsCut s.tokens k)
    (hcut' : IsCut s.tokens b) (hnone : s.codeIn k b = []) :
    Stretch [] flag (t.slice k b) (s.facesIn k b) flag ∧ codeOf (s.facesIn k b) = [] := by
  have hcode : codeOf (s.facesIn k b) = [] := by
    rw [Source.codeOf_facesIn hs, hnone, List.map_nil]
  exact ⟨(Source.stretch_of_read hs hk hb hcut hcut').to_end.of_comments hcode, hcode⟩

end

theorem codeOf_outCode : codeOf outCode = outCode := rfl

theorem codeOf_separator : codeOf (separator tokens ++ outCode) = separator tokens ++ outCode := by
  unfold separator
  split
  · rfl
  · rfl

theorem head?_ending (t : Text) (tokens : List Token) (first : Token) (w : Text) :
    (ending t tokens first ++ w).head? = some '\n' ∨
      (ending t tokens first ++ w).head? = some ';' := by
  unfold ending
  split
  · exact .inl rfl
  · exact .inr rfl

/-! ## Bodies and what they become -/

section

variable [Limits] (hs : Source.read t = .ok s) (hbody : s.IsBody body) {tail : Token}

include hs hbody

/-- A body with one edit is its braces with the edited text between them. -/
theorem editedSpan_body_singleton {e : Edit} (hstart : body.1 + 1 ≤ e.start)
    (hle : e.start ≤ e.stop) (hstop : e.stop ≤ body.2 - 1) :
    t.editedSpan [e] body.1 body.2 = '\x7b' :: (t.slice (body.1 + 1) e.start ++ e.replacement ++
      t.slice e.stop (body.2 - 1) ++ ['\x7d']) := by
  obtain ⟨-, -, hlast, -, -, hopen, hclose, -⟩ := hbody.cuts hs
  rw [Text.editedSpan_singleton hlast (by omega) (by omega) hle (by omega),
    ← Text.slice_append_slice (Nat.le_succ body.1) hstart, hopen,
    ← Text.slice_append_slice hstop (Nat.sub_le body.2 1), hclose]
  simp

theorem editedSpan_body_pair {e e' : Edit} (hstart : body.1 + 1 ≤ e.start) (hle : e.start ≤ e.stop)
    (hnext : e.stop ≤ e'.start) (hle' : e'.start ≤ e'.stop) (hstop : e'.stop ≤ body.2 - 1) :
    t.editedSpan [e, e'] body.1 body.2 = '\x7b' :: (t.slice (body.1 + 1) e.start ++ e.replacement ++
      (t.slice e.stop e'.start ++ e'.replacement ++ t.slice e'.stop (body.2 - 1)) ++ ['\x7d']) := by
  obtain ⟨-, -, hlast, -, -, hopen, hclose, -⟩ := hbody.cuts hs
  rw [Text.editedSpan_pair hlast (by omega) hle hnext (by omega) hle' (by omega),
    ← Text.slice_append_slice (Nat.le_succ body.1) hstart, hopen,
    ← Text.slice_append_slice hstop (Nat.sub_le body.2 1), hclose]
  simp

/-- In a body without code stands the return alone. -/
theorem hasCode_empty (outer : Text) (houter : ∀ c ∈ outer, isBlank c = true)
    (hnone : s.codeIn (body.1 + 1) (body.2 - 1) = []) :
    HasCode ('\n' :: outer ++ "    ".toList ++ (outReturn ++ ('\n' :: outer ++
      t.slice (body.1 + 1) (body.2 - 1)))) outCode := by
  obtain ⟨hab, -, hlast, hcut, hcut', -⟩ := hbody.cuts hs
  obtain ⟨hcomments, hcode⟩ := stretch_comments hs true hab (by omega) hcut hcut' hnone
  have hblank {u : Text} : Stretch u true ('\n' :: outer ++ "    ".toList) [] true := by
    apply Stretch.blanks
    intro c hc
    rw [List.cons_append, List.mem_cons, List.mem_append] at hc
    rcases hc with rfl | hc | hc
    · rfl
    · exact houter c hc
    · have hspaces : "    ".toList = List.replicate 4 ' ' := rfl
      rw [hspaces] at hc
      rw [List.eq_of_mem_replicate hc]
      rfl
  have hgap {u : Text} : Stretch u true ('\n' :: outer) [] true :=
    .blank rfl (Stretch.blanks houter)
  have hall := hblank.append_end (stretch_outReturn.append_end (hgap.append_end hcomments))
  apply HasCode.of_stretch hall
  rw [List.nil_append, List.nil_append, Script.codeOf_append, hcode, List.append_nil,
    codeOf_outCode]

section

variable (htail : (s.codeIn (body.1 + 1) (body.2 - 1)).getLast? = some tail)

include htail

/-- The return, in front of the comments that end a body. -/
theorem stretch_end (first : Token) :
    ∃ faces, Stretch [] flag (ending t (s.codeIn (body.1 + 1) (body.2 - 1)) first ++
        t.slice tail.stop (body.2 - 1)) faces true ∧
      codeOf faces = separator (s.codeIn (body.1 + 1) (body.2 - 1)) ++ outCode := by
  obtain ⟨-, -, hlength, -, hcut', -⟩ := hbody.cuts hs
  obtain ⟨front, htokens⟩ := List.getLast?_eq_some_iff.mp htail
  have hmem : tail ∈ s.codeIn (body.1 + 1) (body.2 - 1) := List.mem_of_getLast? htail
  have hplace := (Source.standIn_codeIn hs).within tail hmem
  obtain ⟨-, -, -, hbehind⟩ := Source.codeIn_of_split hs htokens
  obtain ⟨hcomments, hcode⟩ := stretch_comments hs true hplace.2.2 (by omega)
    (Source.isCut_of_code hs (Source.mem_code_of_codeIn hmem)).2 hcut' hbehind
  refine ⟨_, stretch_ending.append_end hcomments, ?_⟩
  rw [Script.codeOf_append, hcode, codeOf_separator, List.append_nil]

/-- Where nothing is taken away, the return comes behind the code. -/
theorem hasCode_kept (first : Token) :
    HasCode (t.slice (body.1 + 1) tail.stop ++
        (ending t (s.codeIn (body.1 + 1) (body.2 - 1)) first ++ t.slice tail.stop (body.2 - 1)))
      ((s.codeIn (body.1 + 1) (body.2 - 1)).map Token.face ++
        (separator (s.codeIn (body.1 + 1) (body.2 - 1)) ++ outCode)) := by
  obtain ⟨-, -, -, hcut, -, -, -, hflag⟩ := hbody.cuts hs
  obtain ⟨front, htokens⟩ := List.getLast?_eq_some_iff.mp htail
  have hmem : tail ∈ s.codeIn (body.1 + 1) (body.2 - 1) := List.mem_of_getLast? htail
  have hplace := (Source.standIn_codeIn hs).within tail hmem
  obtain ⟨-, hupTo, -, -⟩ := Source.codeIn_of_split hs htokens
  obtain ⟨faces, hend, hcode⟩ := stretch_end hs hbody htail first
  have hkept := stretch_upTo hs (Source.mem_code_of_codeIn hmem) hplace.1 hcut
    (head?_ending t (s.codeIn (body.1 + 1) (body.2 - 1)) first (t.slice tail.stop (body.2 - 1)))
  rw [hflag] at hkept
  apply HasCode.of_stretch (hkept.append_end hend)
  rw [Script.codeOf_append, Source.codeOf_facesIn hs, hupTo, hcode, ← htokens]

end

section

variable (hlast : first.text = "return")
  (hend : ∀ y ∈ front.getLast?, y.face = mark ";" ∨ y.face = mark "\x7d")

include hlast hend

/-- The code in front of the last statement is read as it was, whatever comes behind it. -/
theorem stretch_front (htokens : s.codeIn (body.1 + 1) (body.2 - 1) = front ++ first :: rest)
    (v : Text) :
    Stretch v true (t.slice (body.1 + 1) first.start) (s.facesIn (body.1 + 1) first.start)
        (regexMayFollow (s.codeBefore first.start)) ∧
      codeOf (s.facesIn (body.1 + 1) first.start) = front.map Token.face := by
  obtain ⟨-, -, -, hcut, -, -, -, hflag⟩ := hbody.cuts hs
  have hfirst : first ∈ s.codeIn (body.1 + 1) (body.2 - 1) := by simp [htokens]
  have hplace := (Source.standIn_codeIn hs).within first hfirst
  obtain ⟨hfront, -, -, -⟩ := Source.codeIn_of_split hs htokens
  have hstretch := stretch_before hs (v := v) (Source.mem_code_of_codeIn hfirst)
    (by rw [hlast]; decide) hplace.1 hcut (by rwa [hfront])
  rw [hflag] at hstretch
  exact ⟨hstretch, by rw [Source.codeOf_facesIn hs, hfront]⟩

/-- Where the last statement returns nothing, the return takes its place. -/
theorem hasCode_replaced (htokens : s.codeIn (body.1 + 1) (body.2 - 1) = front ++ [first, second]) :
    HasCode (t.slice (body.1 + 1) first.start ++ (outReturn ++ t.slice second.stop (body.2 - 1)))
      (front.map Token.face ++ outCode) := by
  obtain ⟨-, -, hlength, -, hcut', -⟩ := hbody.cuts hs
  have hsecond : second ∈ s.codeIn (body.1 + 1) (body.2 - 1) := by simp [htokens]
  have hplace := (Source.standIn_codeIn hs).within second hsecond
  obtain ⟨hkept, hfront⟩ := stretch_front hs hbody hlast hend htokens
    (outReturn ++ t.slice second.stop (body.2 - 1))
  have hlastTwo : s.codeIn (body.1 + 1) (body.2 - 1) = (front ++ [first]) ++ second :: [] := by
    simpa using htokens
  obtain ⟨-, -, -, hbehind⟩ := Source.codeIn_of_split hs hlastTwo
  obtain ⟨hcomments, hcode⟩ := stretch_comments hs true hplace.2.2 (by omega)
    (Source.isCut_of_code hs (Source.mem_code_of_codeIn hsecond)).2 hcut' hbehind
  apply HasCode.of_stretch (hkept.append_end (stretch_outReturn.append_end hcomments))
  rw [Script.codeOf_append, Script.codeOf_append, hfront, hcode, codeOf_outCode, List.append_nil]

omit hlast in
/-- A regular expression may stand where the last statement begins, but not behind a brace. -/
theorem regexMayFollow_last
    (htokens : s.codeIn (body.1 + 1) (body.2 - 1) = front ++ first :: rest) :
    regexMayFollow (s.codeBefore first.start) = !front.getLast?.any (fun y => y.text = "\x7d") := by
  obtain ⟨-, -, -, hcut, -, -, -, hflag⟩ := hbody.cuts hs
  have hplace := (Source.standIn_codeIn (a := body.1 + 1) (b := body.2 - 1) hs).within first
    (by simp [htokens])
  rw [Source.codeBefore_eq hs hplace.1 hcut, (Source.codeIn_of_split hs htokens).1]
  cases hlast' : front.getLast? with
  | none => exact hflag
  | some y =>
    obtain ⟨kind, text, start⟩ := y
    rcases hend _ hlast' with hy | hy
    · cases hy
      rfl
    · cases hy
      rfl

section

variable (htokens : s.codeIn (body.1 + 1) (body.2 - 1) = front ++ first :: second :: rest)
  (htail : (s.codeIn (body.1 + 1) (body.2 - 1)).getLast? = some tail)

include htokens htail

omit hbody hend in
/-- What is returned is read as behind the word that returns it. -/
theorem stretch_returned (hv : v.head? = some '\n' ∨ v.head? = some ';') :
    Stretch v true (t.slice second.start tail.stop) (s.facesIn second.start tail.stop)
        (regexMayFollow (some tail)) ∧
      codeOf (s.facesIn second.start tail.stop) = (second :: rest).map Token.face := by
  obtain ⟨-, -, -, hbehind⟩ := Source.codeIn_of_split hs htokens
  have hnone : s.codeIn first.stop (body.2 - 1) = [] ++ second :: rest := hbehind
  have hbehind' := Source.codeIn_of_split hs hnone
  have hstand : Script.StandIn first.stop (body.2 - 1) (second :: rest) :=
    hbehind ▸ Source.standIn_codeIn hs
  have hsecond : second ∈ s.code.toList :=
    Source.mem_code_of_codeIn (a := first.stop) (b := body.2 - 1) (by simp [hbehind])
  have hfirst : first ∈ s.codeIn (body.1 + 1) (body.2 - 1) := by simp [htokens]
  have hfirstCode := Source.mem_code_of_codeIn hfirst
  have htail' : (second :: rest).getLast? = some tail := by
    rw [htokens] at htail
    simpa [List.getLast?_append] using htail
  have hmem : tail ∈ second :: rest := List.mem_of_getLast? htail'
  have hle : second.start ≤ tail.start := by
    rcases List.mem_cons.mp hmem with rfl | hrest
    · exact Nat.le_refl _
    · have := List.rel_of_pairwise_cons hstand.ordered hrest
      have := hstand.within second List.mem_cons_self
      omega
  have htailCode : tail ∈ s.code.toList :=
    Source.mem_code_of_codeIn (a := first.stop) (b := body.2 - 1) (by rwa [hbehind])
  have hstretch := stretch_upTo hs htailCode hle (Source.isCut_of_code hs hsecond).1 hv
  have hplace := hstand.within second List.mem_cons_self
  have hword : regexMayFollow (some first) = true := by
    obtain ⟨flag, hlexeme⟩ := Source.isLexeme_of_code hs hfirstCode
    have hkind := hlexeme.kind_of_startsIdentifier (by rw [hlast]; decide)
    rw [regexMayFollow, hkind, hlast]
    rfl
  rw [Source.codeBefore_eq hs hplace.1 (Source.isCut_of_code hs hfirstCode).2, hbehind'.1,
    Source.codeBefore_stop hs hfirstCode, List.getLast?_nil, Option.none_or, hword] at hstretch
  refine ⟨hstretch, ?_⟩
  obtain ⟨front', hsplit⟩ := List.getLast?_eq_some_iff.mp htail'
  rw [Source.codeOf_facesIn hs, (Source.codeIn_of_split hs (hbehind'.2.2.1.trans hsplit)).2.1,
    hsplit]

/-- Where the last statement returned something it stays, without its first word.  A regular
expression has to stay one where it stands then. -/
theorem hasCode_taken (hregex : front.getLast?.any (fun y => y.text = "\x7d") = true →
      second.kind ≠ .regex) :
    HasCode (t.slice (body.1 + 1) first.start ++ (t.slice second.start tail.stop ++
        (ending t (s.codeIn (body.1 + 1) (body.2 - 1)) first ++ t.slice tail.stop (body.2 - 1))))
      (front.map Token.face ++ ((second :: rest).map Token.face ++
        (separator (s.codeIn (body.1 + 1) (body.2 - 1)) ++ outCode))) := by
  obtain ⟨faces, hbehind, hcode⟩ := stretch_end hs hbody htail first
  obtain ⟨hreturned, hreturnedCode⟩ := stretch_returned hs hlast htokens htail
    (head?_ending t (s.codeIn (body.1 + 1) (body.2 - 1)) first (t.slice tail.stop (body.2 - 1)))
  have hmoved : Stretch (ending t (s.codeIn (body.1 + 1) (body.2 - 1)) first ++
      t.slice tail.stop (body.2 - 1)) (regexMayFollow (s.codeBefore first.start))
      (t.slice second.start tail.stop) (s.facesIn second.start tail.stop)
      (regexMayFollow (some tail)) := by
    by_cases hmay : regexMayFollow (s.codeBefore first.start) = true
    · rwa [hmay]
    · -- behind a brace only what is no regular expression is read as before
      rw [regexMayFollow_last hs hbody hend htokens, Bool.not_eq_true', Bool.not_eq_false] at hmay
      refine hreturned.of_ne_regex ?_ (by simp [hreturnedCode])
      rw [hreturnedCode]
      rintro f ⟨⟩
      exact hregex hmay
  obtain ⟨hkept, hfront⟩ := stretch_front hs hbody hlast hend htokens
    (t.slice second.start tail.stop ++
      (ending t (s.codeIn (body.1 + 1) (body.2 - 1)) first ++ t.slice tail.stop (body.2 - 1)))
  apply HasCode.of_stretch (hkept.append_end (hmoved.append_end hbehind))
  rw [Script.codeOf_append, Script.codeOf_append, hfront, hreturnedCode, hcode]

/-- Behind a brace a regular expression is not read any more, once the word that returned it is
gone. -/
theorem not_hasCode_taken (hregex : second.kind = .regex)
    (hbrace : front.getLast?.any (fun y => y.text = "\x7d") = true) {w : Text} {code : List Face} :
    ¬ HasCode (t.slice (body.1 + 1) first.start ++ (t.slice second.start tail.stop ++ w))
      (front.map Token.face ++ second.face :: code) := by
  rintro ⟨tokens, hread, hcode⟩
  have hmem : second ∈ s.codeIn (body.1 + 1) (body.2 - 1) := by simp [htokens]
  have hsecond := Source.mem_code_of_codeIn hmem
  have hle := stop_le_getLast? (Source.standIn_codeIn hs) htail hmem
  obtain ⟨hkept, hfront⟩ := stretch_front hs hbody hlast hend htokens
    (t.slice second.start tail.stop ++ w)
  rw [regexMayFollow_last hs hbody hend htokens, hbrace] at hkept
  have hnone : regexMayFollow none = true := rfl
  obtain ⟨kept, previous, hfaces, hflag', hfirstRead⟩ := hkept.tokensFrom_append hnone 0
  -- what is returned begins with the regular expression
  have hbegins : t.slice second.start tail.stop =
      second.text.toList ++ t.slice second.stop tail.stop := by
    have hstart : second.start ≤ second.stop := Nat.le_add_right _ _
    rw [← Source.slice_of_code hs hsecond, Text.slice_append_slice hstart hle]
  rw [Script.tokensFrom_of_tokenize hread, hbegins, List.append_assoc] at hfirstRead
  obtain ⟨flag, hlexeme⟩ := Source.isLexeme_of_code hs hsecond
  cases hrest : Script.tokensFrom (0 + (t.slice (body.1 + 1) first.start).length) previous
      (second.text.toList ++ (t.slice second.stop tail.stop ++ w)) with
  | error e =>
    rw [hrest] at hfirstRead
    cases hfirstRead
  | ok others =>
    obtain ⟨behind, hslash⟩ := Script.tokensFrom_slash hlexeme hregex hflag' hrest
    rw [hrest, hslash] at hfirstRead
    cases hfirstRead
    rw [List.map_append, hfaces, Script.codeOf_append, hfront, List.append_cancel_left_eq] at hcode
    have hkind := congrArg (fun faces => faces.head?.map Prod.fst) hcode
    simp [codeOf, Token.face, hregex] at hkind

end

end

end

end WasmPackage.Bindings
