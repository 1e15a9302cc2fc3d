import WasmPackage.Proofs.Script.Enclosures
import WasmPackage.Proofs.Script.Layout
import WasmPackage.Proofs.Script.Places

/-!
# Tokens without loss

The tokens of a script stand in it one behind another, with blanks between them, and a script has no
tokens only where a literal, a comment or a substitution in it has no end.  The one other reason is
that templates and substitutions stand too deep in one another: `tokenize_isLossless_iff`.
-/

namespace WasmPackage.Script

open Construct

variable {flag flag' : Bool} {level inner : Construct} {pos : Nat} {previous : Option Token}
  {c : Char} {r t v : Text} {k n : Nat} {kind : TokenKind} {tokens : List Token}
  {fault : Fault Malformed}

/-! ## Texts and their tokens -/

/-- The tokens are not empty, follow one another, are what the text has at their places, and all
that no token covers are blanks. -/
structure IsTokenization (t : Text) (tokens : List Token) : Prop where
  within : ∀ x ∈ tokens, x.start < x.stop ∧ x.stop ≤ t.length
  ordered : tokens.Pairwise (fun x y => x.start < y.start ∧ x.stop ≤ y.start)
  texts : ∀ x ∈ tokens, x.text.toList = t.slice x.start x.stop
  blanks : ∀ i c, t[i]? = some c → (∀ x ∈ tokens, ¬ (x.start ≤ i ∧ i < x.stop)) →
    isBlank c = true

/-- The characters that no token covers are blanks. -/
theorem isBlank_of_tokensFrom [Limits] (h : tokensFrom pos previous t = .ok tokens) {i : Nat}
    (hget : t[i]? = some c) (hfree : ∀ x ∈ tokens, ¬ (x.start ≤ pos + i ∧ pos + i < x.stop)) :
    isBlank c = true := by
  rw [tokensFrom_eq_ok_iff] at h
  induction h generalizing i with
  | nil => cases hget
  | blank hblank _ ih =>
    cases i with
    | zero =>
      cases hget
      exact hblank
    | succ i =>
      apply ih hget
      intro x hx
      rw [Nat.add_assoc, Nat.add_comm 1 i]
      exact hfree x hx
  | @token pos n previous d r kind rest _ hlexes _ ih =>
    have hfirst := hfree _ List.mem_cons_self
    rw [start_tokenAt, hlexes.stop_tokenAt] at hfirst
    have hbehind : 1 + n ≤ i := by omega
    rcases Nat.exists_eq_add_of_le hbehind with ⟨j, rfl⟩
    apply ih (i := j)
    · rw [Nat.add_comm 1 n, Nat.add_assoc, Nat.add_comm 1 j, ← Nat.add_assoc,
        List.getElem?_cons_succ] at hget
      rwa [List.getElem?_drop]
    · intro x hx
      have := hfree x (List.mem_cons_of_mem _ hx)
      omega

theorem isTokenization_of_tokensFrom [Limits] (h : tokensFrom 0 none t = .ok tokens) :
    IsTokenization t tokens := by
  have hstand := standIn_tokensFrom h
  constructor
  case within =>
    intro x hx
    have := hstand.within x hx
    omega
  case ordered =>
    refine hstand.ordered.imp_of_mem ?_
    intro x y hx hy hfollows
    have := hstand.within x hx
    omega
  case texts =>
    intro x hx
    exact (slice_of_tokensFrom h (List.drop_zero) hx).symm
  case blanks =>
    intro i c hget hfree
    apply isBlank_of_tokensFrom h hget
    simpa using hfree

/-! ## Where constructs open -/

/-- In code one comes from the first text to the second one: what stands between are blanks and
tokens.  The flags say whether a regular expression may stand at the two places. -/
inductive ReadsCode [Limits] : Bool → Text → Bool → Text → Prop
  | refl {flag : Bool} {t : Text} : ReadsCode flag t flag t
  | blank {flag flag' : Bool} {c : Char} {r v : Text} :
    isBlank c = true → ReadsCode flag r flag' v → ReadsCode flag (c :: r) flag' v
  | token {flag flag' : Bool} {c : Char} {r v : Text} {kind : TokenKind} {n : Nat} :
    isBlank c = false → Lexes flag c r kind n →
      ReadsCode (regexBehind flag ⟨kind, String.ofList (c :: r.take n), 0⟩) (r.drop n) flag' v →
        ReadsCode flag (c :: r) flag' v

/-- Does the construct open in code, where its opening stands before `r`?  A line comment always
ends, and a slash begins a regular expression only in some places, and no comment. -/
def OpensInCode (flag : Bool) (level : Construct) (r : Text) : Prop :=
  match level with
  | .string _ | .blockComment | .template => True
  | .regex => flag = true ∧ r.head? ≠ some '/' ∧ r.head? ≠ some '*'
  | .lineComment | .regexClass | .substitution | .braces => False

/-- In a script, where a regular expression may stand at its front or not, opens a construct with
`v` behind its opening, in code or in other constructs.  The number says how many templates and
substitutions are then open. -/
def Opens [Limits] (flag : Bool) (t : Text) (k : Nat) (level : Construct) (v : Text) : Prop :=
  ∃ flag' outer r, ReadsCode flag t flag' (outer.opening ++ r) ∧ OpensInCode flag' outer r ∧
    Nested outer r k level v

/-- A construct of a script has no end: that which the fault is about, at the place where it
opens. -/
def HasOpenFault [Limits] (t : Text) (fault : Fault Malformed) : Prop :=
  ∃ cause offset, fault = Fault.ofOffset t cause offset ∧
    IsOpenFault (Opens true t) t.length (cause, offset)

/-- In a script stand more templates and substitutions in one another than can be open at one
place. -/
def NestsTooDeep [Limits] (t : Text) : Prop :=
  ∃ level v, Opens true t (deepest + 1) level v

theorem Opens.blank [Limits] (h : Opens flag r k level v) (hc : isBlank c = true) :
    Opens flag (c :: r) k level v := by
  rcases h with ⟨flag', outer, s, hreads, hrest⟩
  exact ⟨flag', outer, s, .blank hc hreads, hrest⟩

theorem Opens.token [Limits] (h : Opens (regexBehind flag ⟨kind, String.ofList (c :: r.take n), 0⟩)
    (r.drop n) k level v) (hc : isBlank c = false) (hlexes : Lexes flag c r kind n) :
    Opens flag (c :: r) k level v := by
  rcases h with ⟨flag', outer, s, hreads, hrest⟩
  exact ⟨flag', outer, s, .token hc hlexes hreads, hrest⟩

/-! ## Why there are no tokens -/

theorem Nested.opens [Limits] (h : Nested level r k inner v) (hopens : OpensInCode flag level r) :
    Opens flag (level.opening ++ r) k inner v :=
  ⟨flag, level, r, .refl, hopens, h⟩

/-- A construct in code has no end, and is named by its first character. -/
theorem isOpenFault_self [Limits] {cause : Malformed} (hopens : OpensInCode flag level r)
    (hno : HasNoEnd level r) (hcause : level.cause? = some cause)
    (hlead : level.lead = level.opening.length) :
    IsOpenFault (Opens flag (level.opening ++ r)) (level.opening ++ r).length (cause, 0) := by
  have hself : Nested level r level.weight level r := .self
  refine ⟨_, level, r, hself.opens hopens, hno, hcause, ?_⟩
  rw [hlead, List.length_append, Nat.zero_add]

/-- The scan of a template in code fails for a construct without an end, or for one that goes too
deep. -/
theorem closingOffset_error [Limits] {fault : Malformed × Nat}
    (h : closingOffset deepest 1 [.template 0] r = .error fault) :
    IsOpenFault (Opens flag (templateMark :: r)) (templateMark :: r).length fault ∨
      fault.1 = .tooDeep ∧ ∃ level v, Opens flag (templateMark :: r) (deepest + 1) level v := by
  have hout : Outcome deepest .template 0 [] 1 r := outcome trivial deepest_pos
  have hopens : OpensInCode flag .template r := trivial
  have hscan : closingOffset deepest 1 (opened .template 0 []) r = .error fault := h
  cases hout with
  | ends hends hpos hgoes =>
    rw [hscan, closingOffset] at hgoes
    cases hgoes
  | noEnd hno hfails =>
    rw [hscan] at hfails
    cases hfails
    exact Or.inl (isOpenFault_self hopens hno rfl rfl)
  | within hfault hfails =>
    rw [hscan] at hfails
    cases hfails
    left
    rw [Nat.add_comm] at hfault
    refine hfault.mono ?_
    intro k inner v hv
    exact ⟨_, hv.nested.opens hopens⟩
  | @tooDeep k offset inner v hv hdepth hfails =>
    rw [hscan] at hfails
    cases hfails
    have hinner := hv.nested.opens hopens
    rw [List.length_nil, Nat.zero_add] at hdepth
    rw [hdepth] at hinner
    exact Or.inr ⟨rfl, inner, v, hinner⟩

/-- A token whose reading fails begins a construct without an end, or one that goes too deep. -/
theorem Fails.isOpenFault_or_tooDeep [Limits] {fault : Malformed × Nat} (h : Fails flag c r fault) :
    IsOpenFault (Opens flag (c :: r)) (c :: r).length fault ∨
      fault.1 = .tooDeep ∧ ∃ level v, Opens flag (c :: r) (deepest + 1) level v := by
  cases h with
  | @blockComment r hlength =>
    have hopens : OpensInCode flag .blockComment r := trivial
    exact Or.inl (isOpenFault_self hopens (hasNoEnd_blockComment hlength) rfl rfl)
  | string hquote hlength =>
    obtain ⟨double, rfl⟩ : ∃ double, c = quote double := by
      rcases hquote with rfl | rfl
      · exact ⟨false, rfl⟩
      · exact ⟨true, rfl⟩
    have hopens : OpensInCode flag (.string double) r := trivial
    exact Or.inl (isOpenFault_self hopens (hasNoEnd_string hlength) rfl rfl)
  | template hscan => exact closingOffset_error hscan
  | regex hruns hfollow hlength =>
    have hopens : OpensInCode flag .regex r := by
      refine ⟨hfollow, ?_, ?_⟩
      · intro hhead
        rcases List.head?_eq_some_iff.mp hhead with ⟨s, rfl⟩
        simp [runsOn, Text.startsWith] at hruns
      · intro hhead
        rcases List.head?_eq_some_iff.mp hhead with ⟨s, rfl⟩
        simp [runsOn, Text.startsWith] at hruns
    exact Or.inl (isOpenFault_self hopens (regexHasNoEnd hlength) rfl rfl)

/-- A script without tokens has a construct without an end, or one that goes too deep. -/
theorem tokensFrom_error [Limits] {fault : Malformed × Nat}
    (h : tokensFrom pos previous t = .error fault) :
    IsOpenFault (Opens (regexMayFollow previous) t) (pos + t.length) fault ∨
      fault.1 = .tooDeep ∧ ∃ level v, Opens (regexMayFollow previous) t (deepest + 1) level v := by
  replace h := breaksOff_of_tokensFrom h
  induction h with
  | blank hblank _ ih =>
    rcases ih with hfault | ⟨hdeep, level, v, hopens⟩
    · left
      rw [Nat.add_assoc, Nat.add_comm 1] at hfault
      exact hfault.mono fun k level v hopens => ⟨k, hopens.blank hblank⟩
    · exact Or.inr ⟨hdeep, level, v, hopens.blank hblank⟩
  | fails _ hfails =>
    rcases hfails.isOpenFault_or_tooDeep with
      ⟨k, level, v, hopens, hno, hcause, hplace⟩ | hdeep
    · left
      refine ⟨k, level, v, hopens, hno, hcause, ?_⟩
      rw [← hplace]
      simp only [Nat.add_assoc]
    · exact Or.inr hdeep
  | @token pos n previous c r kind fault hblank hlexes _ ih =>
    have hlength : pos + 1 + n + (r.drop n).length = pos + (c :: r).length := by
      have := hlexes.length_le
      rw [List.length_drop, List.length_cons]
      omega
    rw [regexMayFollow_codeBehind rfl, hlength] at ih
    rcases ih with hfault | ⟨hdeep, level, v, hopens⟩
    · left
      exact hfault.mono fun k level v hopens => ⟨k, hopens.token hblank hlexes⟩
    · exact Or.inr ⟨hdeep, level, v, hopens.token hblank hlexes⟩

/-- A failure behind some code is one of the whole script. -/
theorem tokensFrom_of_readsCode [Limits] {cause : Malformed} (hreads : ReadsCode flag t flag' v)
    (hflag : regexMayFollow previous = flag)
    (hfails : ∀ pos previous, regexMayFollow previous = flag' →
      ∃ offset, tokensFrom pos previous v = .error (cause, offset)) :
    ∃ offset, tokensFrom pos previous t = .error (cause, offset) := by
  induction hreads generalizing pos previous with
  | refl => exact hfails pos previous hflag
  | blank hblank _ ih =>
    rw [tokensFrom_cons, if_pos hblank]
    exact ih hflag hfails
  | @token flag flag' c r v kind n hblank hlexes _ ih =>
    rw [← hflag] at hlexes
    have hblank' : ¬ isBlank c = true := by simp [hblank]
    rw [tokensFrom_cons, if_neg hblank', lexeme_of_lexes hlexes]
    have hbehind : regexMayFollow
        (if kind = .comment then previous else some ⟨kind, String.ofList (c :: r.take n), pos⟩) =
          regexBehind flag ⟨kind, String.ofList (c :: r.take n), 0⟩ := by
      rw [← hflag]
      simp only [regexBehind]
      split <;> rfl
    obtain ⟨offset, hrest⟩ : ∃ offset,
        tokensFrom (pos + 1 + n) _ (r.drop n) = .error (cause, offset) := ih hbehind hfails
    refine ⟨offset, ?_⟩
    simp only [hrest]
    rfl

/-- Where constructs open too deep in one another there are no tokens, for that reason. -/
theorem tokenize_of_nestsTooDeep [Limits] (h : NestsTooDeep t) :
    ∃ fault, tokenize t = .error fault ∧ fault.cause = .tooDeep := by
  rcases h with ⟨level, v, flag', outer, r, hreads, hopens, hnested⟩
  -- strings, comments and regular expressions hold nothing that counts, and there is room for them
  have htemplate : outer = .template := by
    cases outer with
    | template => rfl
    | string double => cases hnested.eq_weight nofun
    | blockComment => cases hnested.eq_weight nofun
    | regex => cases hnested.eq_weight (fun held hholds => of_decide_eq_true hholds)
    | lineComment => exact hopens.elim
    | regexClass => exact hopens.elim
    | substitution => exact hopens.elim
    | braces => exact hopens.elim
  subst htemplate
  obtain ⟨offset, hfails⟩ : ∃ offset, tokensFrom 0 none t = .error (.tooDeep, offset) := by
    apply tokensFrom_of_readsCode hreads rfl
    intro pos previous _
    obtain ⟨offset, hscan⟩ : ∃ offset,
        closingOffset deepest 1 (opened .template 0 []) r = .error (.tooDeep, offset) :=
      closingOffset_of_nested hnested trivial deepest_pos (by simp)
    have hscan' : closingOffset deepest 1 [.template 0] r = .error (.tooDeep, offset) := hscan
    have hlexeme : lexeme previous templateMark r = .error (.tooDeep, offset) := by
      simp [lexeme, templateMark, Except.map, hscan']
    have hblank : ¬ isBlank templateMark = true := by decide
    have hfront : Construct.template.opening ++ r = templateMark :: r := rfl
    refine ⟨pos + offset, ?_⟩
    rw [hfront, tokensFrom_cons, if_neg hblank, hlexeme]
  refine ⟨Fault.ofOffset t .tooDeep offset, ?_, rfl⟩
  rw [tokenize, hfails]
  rfl

/-! ## Tokens or a reason -/

theorem cause_ne_tooDeep [Limits] (h : HasOpenFault t fault) : fault.cause ≠ .tooDeep := by
  rcases h with ⟨cause, offset, rfl, k, level, v, -, -, hcause, -⟩
  rintro rfl
  cases level <;> cases hcause

/-- Where a script has tokens nothing of it is lost.  It has tokens, or a construct in it has no
end, exactly if its templates do not stand too deep in one another. -/
theorem tokenize_isLossless_iff [Limits] (t : Text) :
    (∀ tokens, tokenize t = .ok tokens → IsTokenization t tokens) ∧
      (((∃ tokens, tokenize t = .ok tokens) ∨
          ∃ fault, tokenize t = .error fault ∧ HasOpenFault t fault) ↔ ¬ NestsTooDeep t) := by
  refine ⟨fun tokens h => isTokenization_of_tokensFrom (tokensFrom_of_tokenize h), ?_, ?_⟩
  · rintro h hdeep
    rcases tokenize_of_nestsTooDeep hdeep with ⟨fault, hfails, hcause⟩
    rcases h with ⟨tokens, htokens⟩ | ⟨fault', hfails', hopen⟩
    · rw [hfails] at htokens
      cases htokens
    · rw [hfails] at hfails'
      cases hfails'
      exact cause_ne_tooDeep hopen hcause
  · intro hshallow
    cases htokens : tokensFrom 0 none t with
    | ok tokens => exact Or.inl ⟨tokens, by rw [tokenize, htokens]; rfl⟩
    | error fault =>
      right
      refine ⟨Fault.ofOffset t fault.1 fault.2, by rw [tokenize, htokens]; rfl, fault.1, fault.2,
        rfl, ?_⟩
      rcases tokensFrom_error htokens with hfault | ⟨-, hdeep⟩
      · rwa [Nat.zero_add] at hfault
      · exact (hshallow hdeep).elim

/-- A script with comments and a string in a substitution, and one that ends in a string. -/
theorem tokenize_isLossless_iff_literals :
    (∃ tokens, tokenize "f(`a$\x7b/* ` */ '\x7d'\x7d`) // `".toList = .ok tokens ∧
      IsTokenization "f(`a$\x7b/* ` */ '\x7d'\x7d`) // `".toList tokens) ∧
      ∃ fault, tokenize "f(`a$\x7b'".toList = .error fault ∧
        HasOpenFault "f(`a$\x7b'".toList fault := by
  constructor
  · obtain ⟨tokens, htokens⟩ :
        ∃ tokens, tokenize "f(`a$\x7b/* ` */ '\x7d'\x7d`) // `".toList = .ok tokens :=
      ⟨[⟨.identifier, "f", 0⟩, ⟨.punctuation, "(", 1⟩,
        ⟨.template, "`a$\x7b/* ` */ '\x7d'\x7d`", 2⟩, ⟨.punctuation, ")", 19⟩,
        ⟨.comment, "// `", 21⟩], by decide +kernel⟩
    exact ⟨tokens, htokens, (tokenize_isLossless_iff _).1 tokens htokens⟩
  · have hfails : tokenize "f(`a$\x7b'".toList = .error ⟨.openString, 6, ⟨1, 7⟩⟩ := by
      decide +kernel
    have hshallow : ¬ NestsTooDeep "f(`a$\x7b'".toList := by
      intro hdeep
      rcases tokenize_of_nestsTooDeep hdeep with ⟨fault, hfails', hcause⟩
      rw [hfails] at hfails'
      cases hfails'
      cases hcause
    rcases (tokenize_isLossless_iff _).2.mpr hshallow with ⟨tokens, htokens⟩ | hopen
    · rw [hfails] at htokens
      cases htokens
    · exact hopen

/-! ## Templates in one another -/

/-- A name in so many templates, each in the substitution of the next one. -/
def nestedTemplates : Nat → Text
  | 0 => ['x']
  | n + 1 => [templateMark, '$', '{'] ++ nestedTemplates n ++ ['}', templateMark]

theorem nestedTemplates_succ_append (n : Nat) (s : Text) :
    nestedTemplates (n + 1) ++ s = Construct.template.opening ++ (Construct.substitution.opening ++
      (nestedTemplates n ++ (Construct.substitution.closing ++
        (Construct.template.closing ++ s)))) := by
  simp [nestedTemplates, opening, closing]

theorem ordinary_name (s : Text) : Ordinary .substitution 'x' s where
  closing := by simp [closing, List.cons_prefix_cons]
  escape := nofun
  newline := nofun
  opening := by
    intro inner hholds
    cases inner with
    | string double => cases double <;> simp [opening, quote, List.cons_prefix_cons]
    | lineComment => simp [opening, List.cons_prefix_cons]
    | blockComment => simp [opening, List.cons_prefix_cons]
    | template => simp [opening, templateMark, List.cons_prefix_cons]
    | braces => simp [opening, List.cons_prefix_cons]
    | regex => cases hholds
    | regexClass => cases hholds
    | substitution => cases hholds

/-- Nested templates all end. -/
theorem reads_nestedTemplates (n : Nat) (s : Text) :
    Reads .substitution (nestedTemplates n ++ s) s := by
  induction n generalizing s with
  | zero => exact .char (ordinary_name s) .refl
  | succ n ih =>
    rw [nestedTemplates_succ_append]
    exact .nested rfl (.nested rfl (ih _) .refl) .refl

theorem ends_nestedTemplates (n : Nat) (s : Text) :
    Ends .template (Construct.substitution.opening ++ (nestedTemplates n ++
      (Construct.substitution.closing ++ (Construct.template.closing ++ s)))) s :=
  .nested rfl (reads_nestedTemplates n _) .refl

/-- Behind the beginning of so many templates twice as many constructs are open, and those that open
there. -/
theorem exists_nested_nestedTemplates {m n : Nat} (h : m ≤ n)
    (hopens : ∀ n s, ∃ v, Nested .template (Construct.substitution.opening ++
      (nestedTemplates n ++ s)) k level v) (s : Text) :
    ∃ v, Nested .template (Construct.substitution.opening ++ (nestedTemplates n ++ s))
      (2 * m + k) level v := by
  induction m generalizing n s with
  | zero =>
    rw [Nat.mul_zero, Nat.zero_add]
    exact hopens n s
  | succ m ih =>
    rcases Nat.exists_eq_add_of_le h with ⟨l, rfl⟩
    have hn : m + 1 + l = m + l + 1 := by omega
    rw [hn, nestedTemplates_succ_append]
    rcases ih (Nat.le_add_right m l) _ with ⟨v, hv⟩
    have hdepth : 2 * (m + 1) + k = Construct.template.weight +
        (Construct.substitution.weight + (2 * m + k)) := by
      simp only [weight]
      omega
    rw [hdepth]
    exact ⟨v, .inner .refl rfl (.inner .refl rfl hv)⟩

/-- So many templates stand too deep in one another, whatever the limit is, if they and their
substitutions are more. -/
theorem nestsTooDeep_nestedTemplates [Limits] {n : Nat} (h : deepest < 2 * n) :
    NestsTooDeep (nestedTemplates n) := by
  obtain ⟨n, rfl⟩ := Nat.exists_eq_add_one_of_ne_zero (show n ≠ 0 by omega)
  have hsplit := nestedTemplates_succ_append n []
  rw [List.append_nil] at hsplit
  -- the one that is too many is a template or a substitution
  obtain ⟨m, heven | hodd⟩ : ∃ m, deepest + 1 = 2 * m ∨ deepest + 1 = 2 * m + 1 :=
    ⟨(deepest + 1) / 2, by omega⟩
  · obtain ⟨m, rfl⟩ := Nat.exists_eq_add_one_of_ne_zero (show m ≠ 0 by omega)
    have hopens (n : Nat) (s : Text) : ∃ v, Nested .template
        (Construct.substitution.opening ++ (nestedTemplates n ++ s)) 2 .substitution v :=
      ⟨_, .inner .refl rfl .self⟩
    rcases exists_nested_nestedTemplates (show m ≤ n by omega) hopens
      (Construct.substitution.closing ++ (Construct.template.closing ++ [])) with ⟨v, hv⟩
    refine ⟨.substitution, v, ?_⟩
    rw [hsplit, heven]
    exact hv.opens trivial
  · have hopens (n : Nat) (s : Text) : ∃ v, Nested .template
        (Construct.substitution.opening ++ (nestedTemplates n ++ s)) 1 .template v :=
      ⟨_, .self⟩
    rcases exists_nested_nestedTemplates (show m ≤ n by omega) hopens
      (Construct.substitution.closing ++ (Construct.template.closing ++ [])) with ⟨v, hv⟩
    refine ⟨.template, v, ?_⟩
    rw [hsplit, hodd]
    exact hv.opens trivial

/-- A script that is one template may have no tokens, though it ends and nothing in it has no
end. -/
theorem not_isLossless_of_deepest_lt [Limits] {n : Nat} (h : deepest < 2 * n) :
    (∃ r, nestedTemplates n = Construct.template.opening ++ r ∧ Ends .template r []) ∧
      ¬ ((∃ tokens, tokenize (nestedTemplates n) = .ok tokens) ∨
        ∃ fault, tokenize (nestedTemplates n) = .error fault ∧
          HasOpenFault (nestedTemplates n) fault) := by
  obtain ⟨fault, hfails, hcause⟩ := tokenize_of_nestsTooDeep (nestsTooDeep_nestedTemplates h)
  obtain ⟨n, rfl⟩ := Nat.exists_eq_add_one_of_ne_zero (show n ≠ 0 by omega)
  have hsplit := nestedTemplates_succ_append n []
  rw [List.append_nil] at hsplit
  refine ⟨⟨_, hsplit, ends_nestedTemplates n []⟩, ?_⟩
  rintro (⟨tokens, htokens⟩ | ⟨fault', hfails', hopen⟩)
  · rw [hfails] at htokens
    cases htokens
  · rw [hfails] at hfails'
    cases hfails'
    exact cause_ne_tooDeep hopen hcause

theorem not_isLossless_nestedTemplates :
    (∃ r, nestedTemplates 2000 = Construct.template.opening ++ r ∧ Ends .template r []) ∧
      ¬ ((∃ tokens, tokenize (nestedTemplates 2000) = .ok tokens) ∨
        ∃ fault, tokenize (nestedTemplates 2000) = .error fault ∧
          HasOpenFault (nestedTemplates 2000) fault) :=
  not_isLossless_of_deepest_lt (by decide)

end WasmPackage.Script
