import WasmPackage.Proofs.Script.Places
import WasmPackage.Proofs.Script.Reading

/-!
# Stretches of a script

A script can be cut at any place that does not lie in a token.  What is in front of the cut has the
same tokens in front of any other text, unless its last token runs on into that; what is behind it
has the same tokens behind any other text, unless it begins with a regular expression.  So parts of
scripts can be put together, and the tokens of the whole are those of the parts.
-/

namespace WasmPackage.Script

variable {flag flag' flag'' : Bool} {u u' v v' : Text} {faces faces' : List Face} {f : Face}
  {pos k : Nat} {previous previous' : Option Token} {t : Text} {tokens : List Token} {c : Char}
  {kind : TokenKind} {w : String}

/-- The text `u`, which stands in front of `v`, is blanks and tokens with these faces.  The flags
say whether a regular expression may stand in front of `u` and behind it. -/
inductive Stretch [Limits] (v : Text) : Bool → Text → List Face → Bool → Prop
  | nil {flag : Bool} : Stretch v flag [] [] flag
  | blank {flag flag' : Bool} {c : Char} {u : Text} {faces : List Face} :
    isBlank c = true → Stretch v flag u faces flag' → Stretch v flag (c :: u) faces flag'
  | token {flag flag' : Bool} {kind : TokenKind} {w : String} {u : Text} {faces : List Face} :
    IsLexeme flag ⟨kind, w, 0⟩ → runsOn kind w.toList (u ++ v) = false →
      Stretch v (regexBehind flag ⟨kind, w, 0⟩) u faces flag' →
        Stretch v flag (w.toList ++ u) ((kind, w) :: faces) flag'

/-- The faces of code, without those of the comments in it. -/
def codeOf (faces : List Face) : List Face :=
  faces.filter (·.1 ≠ .comment)

theorem codeOf_append : codeOf (faces ++ faces') = codeOf faces ++ codeOf faces' :=
  List.filter_append ..

theorem codeOf_eq_self (h : ∀ f ∈ faces, f.1 ≠ .comment) : codeOf faces = faces := by
  rw [codeOf, List.filter_eq_self]
  intro f hf
  simpa using h f hf

/-- A last face that is no comment is the last one of the code. -/
theorem getLast?_codeOf (hf : f ∈ faces.getLast?) (hcomment : f.1 ≠ .comment) :
    (codeOf faces).getLast? = some f := by
  obtain ⟨front, rfl⟩ := List.getLast?_eq_some_iff.mp hf
  rw [codeOf_append, codeOf_eq_self (List.forall_mem_singleton.mpr hcomment), List.getLast?_concat]

theorem codeOf_map_face : codeOf (tokens.map Token.face) =
    (tokens.filter (fun x => x.kind ≠ .comment)).map Token.face := by
  rw [codeOf, List.filter_map]
  rfl

/-! ## Single tokens -/

theorem IsLexeme.ne_nil [Limits] {x : Token} (h : IsLexeme flag x) : x.text.toList ≠ [] := by
  obtain ⟨c, r, htext, -⟩ := h
  rw [htext]
  exact List.cons_ne_nil c r

/-- Where a token stands makes no difference to whether it is one. -/
theorem isLexeme_congr [Limits] (x : Token) (pos : Nat) :
    IsLexeme flag x ↔ IsLexeme flag ⟨x.kind, x.text, pos⟩ :=
  Iff.rfl

/-- Behind code it does not matter whether a regular expression could stand in front of it. -/
theorem regexBehind_of_ne {x : Token} (h : x.kind ≠ .comment) :
    regexBehind flag x = regexBehind flag' x := by
  rw [regexBehind, regexBehind, if_neg h, if_neg h]

/-- Only a slash is read in another way where no regular expression may stand. -/
theorem IsLexeme.of_ne_regex [Limits] {x : Token} (h : IsLexeme true x) (hregex : x.kind ≠ .regex) :
    IsLexeme flag x := by
  obtain ⟨c, r, htext, hblank, hlexes⟩ := h
  cases flag with
  | true => exact ⟨c, r, htext, hblank, hlexes⟩
  | false => exact ⟨c, r, htext, hblank, hlexes.plain hregex⟩

theorem IsLexeme.of_comment [Limits] {x : Token} (h : IsLexeme flag x)
    (hcomment : x.kind = .comment) :
    IsLexeme flag' x := by
  obtain ⟨c, r, htext, hblank, hlexes⟩ := h
  refine ⟨c, r, htext, hblank, ?_⟩
  rw [hcomment] at hlexes ⊢
  exact hlexes.of_comment

/-- A character that is no part of a longer token, and no slash, is a token by itself. -/
theorem isLexeme_of_isMark [Limits] (hc : isMark c = true) (hblank : isBlank c = false)
    (hslash : c ≠ '/') :
    IsLexeme flag ⟨.punctuation, String.ofList [c], pos⟩ := by
  refine ⟨c, [], String.toList_ofList, hblank, .mark hc runsOn_nil ?_⟩
  intro h
  exact absurd h hslash

/-- What begins like a name is one. -/
theorem IsLexeme.kind_of_startsIdentifier [Limits] {x : Token} (h : IsLexeme flag x)
    (hc : x.text.toList.head?.any Script.startsIdentifier = true) : x.kind = .identifier := by
  obtain ⟨c, r, htext, -, hlexes⟩ := h
  rw [htext, List.head?_cons, Option.any_some] at hc
  generalize hn : r.length = n at hlexes
  generalize x.kind = kind at hlexes ⊢
  cases hlexes with
  | identifier => rfl
  | string hquote =>
    rcases hquote with rfl | rfl
    · cases hc
    · cases hc
  | number hname =>
    rw [hname] at hc
    cases hc
  | mark hmark => simp [isMark, hc] at hmark
  | _ => cases hc

/-- A token that is a single mark is punctuation. -/
theorem IsLexeme.kind_of_isMark [Limits] {x : Token} (h : IsLexeme flag x)
    (htext : x.text.toList = [c]) (hc : isMark c = true) : x.kind = .punctuation := by
  obtain ⟨c', r, htext', -, hlexes⟩ := h
  rw [htext, List.cons.injEq] at htext'
  obtain ⟨rfl, rfl⟩ := htext'
  generalize x.kind = kind at hlexes ⊢
  generalize hn : ([] : Text).length = n at hlexes
  cases hlexes with
  | string hquote =>
    rcases hquote with rfl | rfl
    · cases hc
    · cases hc
  | template => cases hc
  | identifier hname => simp [isMark, hname] at hc
  | number hname hnumber =>
    have hdigit : isDigit c = false := by simp_all [isMark]
    simp [hdigit] at hnumber
  | regex _ _ hlength => cases hlength
  | mark => rfl

/-! ## Running on -/

/-- What stands behind two characters makes no difference, nor what stands behind one that is no
point. -/
theorem runsOn_append (w : Text) (hu : u ≠ []) (hpoint : v'.head? = some '.' → u ≠ ['.'])
    (h : runsOn kind w (u ++ v) = false) : runsOn kind w (u ++ v') = false := by
  rcases u with _ | ⟨c, _ | ⟨d, u⟩⟩
  · exact absurd rfl hu
  · cases kind with
    | punctuation =>
      by_cases hc : c = '.'
      · subst hc
        have hhead : v'.head? ≠ some '.' := fun hv => hpoint hv rfl
        cases v' with
        | nil => simp_all [runsOn, Text.startsWith, List.isPrefixOf]
        | cons d v' =>
          have hd : ('.' == d) = false := by
            rw [beq_eq_false_iff_ne]
            rintro rfl
            exact hhead rfl
          simp_all [runsOn, Text.startsWith, List.isPrefixOf]
      · have hd : ('.' == c) = false := by
          rw [beq_eq_false_iff_ne]
          exact Ne.symm hc
        simpa [runsOn, Text.startsWith, List.isPrefixOf, hd] using h
    | identifier => exact h
    | number => exact h
    | comment => exact h
    | regex => exact h
    | string => rfl
    | template => rfl
  · cases kind with
    | string => rfl
    | template => rfl
    | _ => simpa [runsOn, Text.startsWith, List.isPrefixOf] using h

/-- No code runs on into a semicolon. -/
theorem runsOn_semicolon (hkind : kind ≠ .comment) (w r : Text) :
    runsOn kind w (';' :: r) = false := by
  cases kind with
  | comment => exact absurd rfl hkind
  | identifier => rfl
  | regex => rfl
  | number => rfl
  | string => rfl
  | template => rfl
  | punctuation =>
    have hdigit : isDigit ';' = false := rfl
    simp [runsOn, Text.startsWith, List.isPrefixOf, hdigit]

/-- Nothing runs on into a newline. -/
theorem runsOn_newline (w r : Text) : runsOn kind w ('\n' :: r) = false := by
  cases kind with
  | comment => simp [runsOn]
  | identifier => rfl
  | regex => rfl
  | number => rfl
  | string => rfl
  | template => rfl
  | punctuation =>
    have hdigit : isDigit '\n' = false := rfl
    simp [runsOn, Text.startsWith, List.isPrefixOf, hdigit]

/-! ## Putting stretches together -/

theorem Stretch.append [Limits] (h : Stretch (u' ++ v) flag u faces flag')
    (h' : Stretch v flag' u' faces' flag'') :
    Stretch v flag (u ++ u') (faces ++ faces') flag'' := by
  induction h with
  | nil => exact h'
  | blank hc _ ih => exact .blank hc (ih h')
  | token hlexeme hruns _ ih =>
    rw [List.append_assoc, List.cons_append]
    exact .token hlexeme (by rwa [List.append_assoc]) (ih h')

theorem Stretch.append_end [Limits] (h : Stretch u' flag u faces flag')
    (h' : Stretch [] flag' u' faces' flag'') :
    Stretch [] flag (u ++ u') (faces ++ faces') flag'' :=
  Stretch.append (by rwa [List.append_nil]) h'

theorem Stretch.blanks [Limits] (hu : ∀ c ∈ u, isBlank c = true) : Stretch v flag u [] flag := by
  induction u with
  | nil => exact .nil
  | cons c u ih =>
    rw [List.forall_mem_cons] at hu
    exact .blank hu.1 (ih hu.2)

/-- A text without characters has no tokens. -/
theorem Stretch.eq_of_nil [Limits]
    (h : Stretch v flag [] faces flag') : faces = [] ∧ flag' = flag := by
  generalize hu : ([] : Text) = u at h
  cases h with
  | nil => exact ⟨rfl, rfl⟩
  | blank => cases hu
  | token hlexeme =>
    have hnil := (List.append_eq_nil_iff.mp hu.symm).1
    exact absurd hnil hlexeme.ne_nil

/-- A point that is no part of a longer token is a token by itself. -/
theorem Stretch.eq_of_point [Limits] (h : Stretch v flag ['.'] faces flag') :
    ∃ kind, faces = [(kind, ".")] := by
  generalize hu : ['.'] = u at h
  cases h with
  | nil => cases hu
  | blank hc =>
    cases hu
    cases hc
  | @token _ _ kind w u faces hlexeme _ hrest =>
    obtain ⟨c, r, htext, -⟩ := hlexeme
    simp only at htext
    rw [htext, List.cons_append, List.cons.injEq] at hu
    obtain ⟨rfl, hnil⟩ := hu
    obtain ⟨rfl, rfl⟩ := List.append_eq_nil_iff.mp hnil.symm
    obtain ⟨rfl, -⟩ := hrest.eq_of_nil
    refine ⟨kind, ?_⟩
    rw [← String.ofList_toList (s := w), htext]

/-- A stretch has the same tokens in front of another text if its last token does not run on into
that either. -/
theorem Stretch.of_last [Limits] (h : Stretch v flag u faces flag')
    (hlast : ∀ f ∈ faces.getLast?, runsOn f.1 f.2.toList v = false →
      runsOn f.1 f.2.toList v' = false)
    (hpoint : v'.head? = some '.' → ∀ f ∈ faces.getLast?, f.2 ≠ ".") :
    Stretch v' flag u faces flag' := by
  induction h with
  | nil => exact .nil
  | blank hc _ ih => exact .blank hc (ih hlast hpoint)
  | @token flag flag' kind w u faces hlexeme hruns hu ih =>
    cases u with
    | nil =>
      -- the last token ends where the stretch does
      obtain ⟨rfl, rfl⟩ := hu.eq_of_nil
      exact .token hlexeme (hlast (kind, w) rfl hruns) .nil
    | cons d u =>
      have hbehind : ∀ f ∈ faces.getLast?, f ∈ ((kind, w) :: faces).getLast? := by
        intro f hf
        cases faces with
        | nil => cases hf
        | cons g faces => rwa [List.getLast?_cons_cons]
      refine .token hlexeme (runsOn_append _ (List.cons_ne_nil d u) ?_ hruns) (ih ?_ ?_)
      · intro hv hu'
        rw [hu'] at hu
        obtain ⟨kind', rfl⟩ := hu.eq_of_point
        exact hpoint hv (kind', ".") rfl rfl
      · exact fun f hf => hlast f (hbehind f hf)
      · exact fun hv f hf => hpoint hv f (hbehind f hf)

/-- What stands in front of a name stands in front of any other one too, if it is no point. -/
theorem Stretch.of_name [Limits] (h : Stretch v flag u faces flag')
    (hv : v.head?.any startsIdentifier = true) (hv' : v'.head?.any startsIdentifier = true)
    (hpoint : ∀ f ∈ faces.getLast?, f ≠ (.punctuation, ".")) : Stretch v' flag u faces flag' := by
  cases v with
  | nil => cases hv
  | cons c v =>
  cases v' with
  | nil => cases hv'
  | cons c' v' =>
  rw [List.head?_cons, Option.any_some] at hv hv'
  have hname := continuesIdentifier_of_startsIdentifier hv
  refine h.of_last ?_ ?_
  · rintro ⟨kind, w⟩ hf hruns
    cases kind with
    | identifier => simp [runsOn, hname] at hruns
    | regex => simp [runsOn, hname] at hruns
    | number => simp [runsOn, hname] at hruns
    | string => rfl
    | template => rfl
    | comment =>
      have hnewline : c ≠ '\n' := by
        rintro rfl
        cases hv
      have hline : Text.startsWith w.toList ['/', '/'] = false := by
        simpa [runsOn, hnewline] using hruns
      simp [runsOn, hline]
    | punctuation =>
      -- no name goes on with a character that a mark could be continued by
      have hne : c' ≠ '/' ∧ c' ≠ '*' ∧ c' ≠ '>' := by
        refine ⟨?_, ?_, ?_⟩ <;>
        · rintro rfl
          cases hv'
      have hw : w.toList ≠ ['.'] := by
        intro hw
        refine hpoint _ hf ?_
        rw [← String.ofList_toList (s := w), hw]
      simp [runsOn, Text.startsWith, List.isPrefixOf, hw, hne.1.symm, hne.2.1.symm, hne.2.2.symm]
  · intro hhead
    rw [List.head?_cons, Option.some.injEq] at hhead
    subst hhead
    cases hv'

theorem Stretch.to_end [Limits]
    (h : Stretch v flag u faces flag') : Stretch [] flag u faces flag' :=
  h.of_last (fun _ _ _ => runsOn_nil) nofun

/-- What does not begin with a regular expression is read behind any code. -/
theorem Stretch.of_ne_regex [Limits] (h : Stretch v true u faces flag')
    (hfirst : ∀ f ∈ (codeOf faces).head?, f.1 ≠ .regex) (hcode : codeOf faces ≠ []) :
    Stretch v flag u faces flag' := by
  generalize htrue : true = flag₀ at h
  induction h with
  | nil => exact absurd rfl hcode
  | blank hc _ ih => exact .blank hc (ih hfirst hcode htrue)
  | @token flag₀ flag' kind w u faces hlexeme hruns _ ih =>
    subst htrue
    by_cases hcomment : kind = .comment
    · subst hcomment
      exact .token (hlexeme.of_comment rfl) hruns (ih hfirst hcode rfl)
    · have hregex : kind ≠ .regex := hfirst (kind, w) (by simp [codeOf, hcomment])
      refine .token (hlexeme.of_ne_regex hregex) hruns ?_
      rwa [regexBehind_of_ne hcomment]

/-- Comments are read behind any code. -/
theorem Stretch.of_comments [Limits] (h : Stretch v flag u faces flag')
    (hcode : codeOf faces = []) :
    Stretch v flag'' u faces flag'' := by
  induction h with
  | nil => exact .nil
  | blank hc _ ih => exact .blank hc (ih hcode)
  | @token flag flag' kind w u faces hlexeme hruns _ ih =>
    have hcomment : kind = .comment := by
      by_contra hne
      simp [codeOf, hne] at hcode
    subst hcomment
    exact .token (hlexeme.of_comment rfl) hruns (ih (by simpa [codeOf] using hcode))

/-! ## Reading stretches -/

/-- The tokens of a stretch are read first, and then what stands behind it. -/
theorem Stretch.tokensFrom_append [Limits] (h : Stretch v flag u faces flag')
    (hflag : regexMayFollow previous = flag) (pos : Nat) :
    ∃ front previous', front.map Token.face = faces ∧ regexMayFollow previous' = flag' ∧
      tokensFrom pos previous (u ++ v) =
        (tokensFrom (pos + u.length) previous' v).map (front ++ ·) := by
  induction h generalizing pos previous with
  | nil =>
    refine ⟨[], previous, rfl, hflag, ?_⟩
    rw [List.nil_append, List.length_nil, Nat.add_zero]
    cases tokensFrom pos previous v <;> rfl
  | @blank flag flag' c u faces hc _ ih =>
    obtain ⟨front, previous', hfaces, hflag', hread⟩ := ih hflag (pos + 1)
    refine ⟨front, previous', hfaces, hflag', ?_⟩
    rw [List.cons_append, tokensFrom_cons, if_pos hc, hread, List.length_cons, Nat.add_assoc,
      Nat.add_comm 1]
  | @token flag flag' kind w u faces hlexeme hruns _ ih =>
    subst hflag
    rw [isLexeme_congr _ pos] at hlexeme
    have hfirst : tokensFrom pos previous (w.toList ++ (u ++ v)) =
        (tokensFrom (pos + w.length) (codeBehind previous ⟨kind, w, pos⟩) (u ++ v)).map
          (⟨kind, w, pos⟩ :: ·) :=
      tokensFrom_append_of_isLexeme hlexeme hruns
    have hflag : regexMayFollow (codeBehind previous ⟨kind, w, pos⟩) =
        regexBehind (regexMayFollow previous) ⟨kind, w, 0⟩ := regexMayFollow_codeBehind rfl
    obtain ⟨front, previous', hfaces, hflag', hread⟩ := ih hflag (pos + w.length)
    refine ⟨⟨kind, w, pos⟩ :: front, previous', by rw [List.map_cons, hfaces]; rfl, hflag', ?_⟩
    rw [List.append_assoc, hfirst, hread, List.length_append, String.length_toList, Nat.add_assoc]
    cases tokensFrom (pos + (w.length + u.length)) previous' v <;> rfl

/-- A script that is one stretch has its tokens. -/
theorem Stretch.tokenize_eq_ok [Limits] (h : Stretch [] true t faces flag') :
    ∃ tokens, tokenize t = .ok tokens ∧ tokens.map Token.face = faces := by
  have hnone : regexMayFollow none = true := rfl
  obtain ⟨front, previous', hfaces, -, hread⟩ := h.tokensFrom_append hnone 0
  rw [List.append_nil, tokensFrom_nil] at hread
  refine ⟨front, ?_, hfaces⟩
  rw [tokenize, hread]
  simp [Except.map, Except.mapError]

/-- The text is read as this code, apart from comments. -/
def HasCode [Limits] (u : Text) (code : List Face) : Prop :=
  ∃ tokens, tokenize u = .ok tokens ∧ codeOf (tokens.map Token.face) = code

instance [Limits] (u : Text) (code : List Face) : Decidable (HasCode u code) :=
  decidable_of_iff ((tokenize u).toOption.any
      (fun tokens => codeOf (tokens.map Token.face) = code) = true) (by
    unfold HasCode
    cases tokenize u <;> simp [Except.toOption])

theorem HasCode.of_stretch [Limits] {code : List Face}
    (h : Stretch [] true u faces flag') (hcode : codeOf faces = code) : HasCode u code := by
  obtain ⟨tokens, hread, hfaces⟩ := h.tokenize_eq_ok
  exact ⟨tokens, hread, by rw [hfaces, hcode]⟩

/-- A text is read in one way. -/
theorem HasCode.unique [Limits] {code code' : List Face} (h : HasCode u code)
    (h' : HasCode u code') : code = code' := by
  obtain ⟨tokens, hread, rfl⟩ := h
  obtain ⟨tokens', hread', rfl⟩ := h'
  rw [hread, Except.ok.injEq] at hread'
  rw [hread']

/-- A word does not run on into what stands behind it. -/
theorem Stretch.word_ends [Limits] (h : Stretch v flag w.toList faces flag')
    (hw : isWord w = true) :
    v.head?.any continuesIdentifier = false := by
  have hchars := continuesIdentifier_of_isWord hw
  unfold isWord at hw
  generalize w.toList = u at h hw hchars
  cases h with
  | nil => cases hw
  | blank hblank =>
    have := hchars _ List.mem_cons_self
    rw [continuesIdentifier_of_isBlank hblank] at this
    cases this
  | @token _ _ kind w' u _ hlexeme hruns =>
    have hkind : kind = .identifier := by
      apply hlexeme.kind_of_startsIdentifier
      obtain ⟨c, r, htext, -⟩ := hlexeme
      simp only at htext
      rw [htext, List.cons_append] at hw
      simp only [Bool.and_eq_true] at hw
      simp [htext, hw.1]
    subst hkind
    cases u with
    | nil => exact hruns
    | cons d u =>
      have hd := hchars d (by simp)
      simp [runsOn, hd] at hruns

/-- Where no regular expression may stand, the slash that begins one is a token by itself. -/
theorem tokensFrom_slash [Limits] {x : Token} (h : IsLexeme flag x) (hkind : x.kind = .regex)
    (hflag : regexMayFollow previous = false)
    (hread : tokensFrom pos previous (x.text.toList ++ v) = .ok tokens) :
    ∃ rest, tokens = ⟨.punctuation, "/", pos⟩ :: rest := by
  obtain ⟨c, r, htext, hblank, hlexes⟩ := h
  rw [hkind] at hlexes
  generalize hn : r.length = n at hlexes
  cases hlexes with
  | regex hruns _ hlength =>
    have hne : r ≠ [] := by
      rintro rfl
      cases hlength
    have hruns' : runsOn .punctuation ['/'] (r ++ v) = false := by
      rw [← List.append_nil r] at hruns
      refine runsOn_append _ hne ?_ hruns
      rintro - rfl
      simp [regexLength?] at hlength
    have hmark : Lexes (regexMayFollow previous) '/' (r ++ v) .punctuation 0 :=
      .mark (by decide) hruns' (fun _ => hflag)
    rw [htext, List.cons_append, tokensFrom_cons, hblank] at hread
    simp only [Bool.false_eq_true, if_false, lexeme_of_lexes hmark, List.take_zero] at hread
    cases hrest : tokensFrom (pos + 1 + 0)
        (if TokenKind.punctuation = .comment then previous else
          some ⟨.punctuation, String.ofList ['/'], pos⟩) ((r ++ v).drop 0) with
    | error e =>
      rw [hrest] at hread
      cases hread
    | ok rest =>
      rw [hrest] at hread
      cases hread
      exact ⟨rest, rfl⟩

/-! ## Cutting a script -/

/-- The last code token among these, or else that before them. -/
def lastCode (previous : Option Token) (tokens : List Token) : Option Token :=
  (tokens.filter (fun x => x.kind ≠ .comment)).getLast?.or previous

theorem lastCode_cons (x : Token) :
    lastCode previous (x :: tokens) = lastCode (codeBehind previous x) tokens := by
  unfold lastCode codeBehind
  by_cases hcomment : x.kind = .comment
  · simp [hcomment]
  · rw [if_neg hcomment, List.filter_cons_of_pos (by simpa using hcomment), List.getLast?_cons]
    cases (tokens.filter (fun x => x.kind ≠ .comment)).getLast? <;> rfl

/-- The place does not lie in a token. -/
def IsCut (tokens : List Token) (k : Nat) : Prop :=
  ∀ x ∈ tokens, x.stop ≤ k ∨ k ≤ x.start

/-- In front of its tokens a script can be cut. -/
theorem stretch_of_front [Limits] (h : tokensFrom pos previous t = .ok tokens) :
    Stretch (t.drop (pos - pos)) (regexMayFollow previous) (t.take (pos - pos))
        ((tokens.filter (·.stop ≤ pos)).map Token.face)
        (regexMayFollow (lastCode previous (tokens.filter (·.stop ≤ pos)))) ∧
      tokensFrom pos (lastCode previous (tokens.filter (·.stop ≤ pos))) (t.drop (pos - pos)) =
        .ok (tokens.filter (pos ≤ ·.start)) := by
  have hstand := (standIn_tokensFrom h).within
  have hfront : tokens.filter (·.stop ≤ pos) = [] := by
    rw [List.filter_eq_nil_iff]
    intro x hx
    have := hstand x hx
    rw [decide_eq_true_eq]
    omega
  have hback : tokens.filter (pos ≤ ·.start) = tokens := by
    rw [List.filter_eq_self]
    intro x hx
    have := hstand x hx
    rw [decide_eq_true_eq]
    omega
  rw [Nat.sub_self, hfront, hback]
  exact ⟨.nil, h⟩

/-- A script that has tokens can be cut at any place that does not lie in one of them. -/
theorem stretch_of_tokensFrom [Limits] (h : tokensFrom pos previous t = .ok tokens) (hpos : pos ≤ k)
    (hk : k ≤ pos + t.length) (hcut : IsCut tokens k) :
    Stretch (t.drop (k - pos)) (regexMayFollow previous) (t.take (k - pos))
        ((tokens.filter (·.stop ≤ k)).map Token.face)
        (regexMayFollow (lastCode previous (tokens.filter (·.stop ≤ k)))) ∧
      tokensFrom k (lastCode previous (tokens.filter (·.stop ≤ k))) (t.drop (k - pos)) =
        .ok (tokens.filter (k ≤ ·.start)) := by
  rw [tokensFrom_eq_ok_iff] at h
  induction h with
  | @nil pos previous =>
    obtain rfl : pos = k := by
      rw [List.length_nil] at hk
      omega
    exact stretch_of_front (tokensFrom_nil pos previous)
  | @blank pos previous c r tokens hblank hrest ih =>
    rcases Nat.eq_or_lt_of_le hpos with rfl | hlt
    · exact stretch_of_front (tokensFrom_of_splitsInto (.blank hblank hrest))
    · rw [List.length_cons] at hk
      obtain ⟨hstretch, hread⟩ := ih hlt (by omega) hcut
      have hshift : k - pos = k - (pos + 1) + 1 := by omega
      rw [hshift, List.take_succ_cons, List.drop_succ_cons]
      exact ⟨.blank hblank hstretch, hread⟩
  | @token pos n previous c r kind rest hblank hlexes hrest ih =>
    rcases Nat.eq_or_lt_of_le hpos with rfl | hlt
    · exact stretch_of_front (tokensFrom_of_splitsInto (.token hblank hlexes hrest))
    · have hn := hlexes.length_le
      have hstop := hlexes.stop_tokenAt pos
      obtain ⟨hfirst, hcutRest⟩ := List.forall_mem_cons.mp hcut
      rw [hstop, start_tokenAt] at hfirst
      have hle : pos + 1 + n ≤ k := by omega
      rw [List.length_cons] at hk
      obtain ⟨hstretch, hread⟩ := ih hle (by rw [List.length_drop]; omega) hcutRest
      obtain ⟨m, hm⟩ : ∃ m, k - pos = n + m + 1 := ⟨k - (pos + 1 + n), by omega⟩
      have hm' : k - (pos + 1 + n) = m := by omega
      have htake : (r.take (n + m)) = r.take n ++ (r.drop n).take m := List.take_add
      -- the first token stands in front of the cut
      have hfront : (tokenAt pos c r kind n :: rest).filter (·.stop ≤ k) =
          tokenAt pos c r kind n :: rest.filter (·.stop ≤ k) :=
        List.filter_cons_of_pos (decide_eq_true (hstop ▸ hle))
      have hback : (tokenAt pos c r kind n :: rest).filter (k ≤ ·.start) =
          rest.filter (k ≤ ·.start) :=
        List.filter_cons_of_neg (mt of_decide_eq_true (Nat.not_le.mpr hlt))
      rw [hm', List.drop_drop] at hstretch hread
      rw [hm, List.take_succ_cons, List.drop_succ_cons, hfront, hback, htake, List.map_cons,
        lastCode_cons]
      refine ⟨?_, hread⟩
      have hfree : runsOn kind (String.ofList (c :: r.take n)).toList
          ((r.drop n).take m ++ r.drop (n + m)) = false := by
        rw [String.toList_ofList, ← List.drop_drop, List.take_append_drop]
        exact hlexes.not_runsOn
      rw [regexMayFollow_codeBehind rfl] at hstretch
      have hall := Stretch.token (hlexes.isLexeme hblank) hfree hstretch
      rwa [String.toList_ofList] at hall

end WasmPackage.Script
