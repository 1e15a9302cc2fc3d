import Mathlib.Algebra.Ring.Int.Defs
import Mathlib.Data.List.Infix
import WasmPackage.Proofs.Script.Lexemes
import WasmPackage.Proofs.Script.Places

/-!
# Code inside substitutions

A substitution of a template is scanned without tokens, by its quotes, comments and braces alone.
That scan agrees with the tokens wherever no regular expression stands: a text whose braces balance
can be put into a substitution, and the template around it ends behind it.
-/

namespace WasmPackage.Script

variable {limit pos d d' e start n : Nat} {regexes : Bool} {c : Char} {r s t u v w : Text}
  {kind : TokenKind} {outer : List Enclosure} {tokens : List Token} {previous : Option Token}

/-! ## Braces -/

/-- What a token does to the number of open braces. -/
def braceStep (kind : TokenKind) (w : Text) : Int :=
  if kind = .punctuation then if w = ['{'] then 1 else if w = ['}'] then -1 else 0 else 0

/-- How many more braces the tokens open than they close. -/
def braceNet (tokens : List Token) : Int :=
  (tokens.map (fun t => braceStep t.kind t.text.toList)).sum

@[simp] theorem braceNet_nil : braceNet [] = 0 := rfl

@[simp] theorem braceNet_cons (t : Token) (tokens : List Token) :
    braceNet (t :: tokens) = braceStep t.kind t.text.toList + braceNet tokens := by
  simp [braceNet]

theorem braceNet_tokenAt : braceNet (tokenAt pos c r kind n :: tokens) =
    braceStep kind (c :: r.take n) + braceNet tokens := by
  simp

/-- No beginning of the tokens closes more braces than it opens, and all of them together close as
many as they open. -/
structure BracesBalance (tokens : List Token) : Prop where
  nonneg : ∀ p, p <+: tokens → 0 ≤ braceNet p
  settled : braceNet tokens = 0

instance (tokens : List Token) : Decidable (BracesBalance tokens) :=
  decidable_of_iff ((∀ p ∈ tokens.inits, 0 ≤ braceNet p) ∧ braceNet tokens = 0)
    ⟨fun h => ⟨fun p hp => h.1 p ((List.mem_inits p tokens).mpr hp), h.2⟩,
      fun h => ⟨fun p hp => h.nonneg p ((List.mem_inits p tokens).mp hp), h.settled⟩⟩

/-! ## Single characters -/

/-- Is this a character that a substitution passes over, whatever stands behind it? -/
def isPlain (c : Char) : Bool :=
  c ≠ '/' && c ≠ '\'' && c ≠ '"' && c ≠ templateMark && c ≠ '{' && c ≠ '}'

theorem closingOffset_plain (hw : ∀ c ∈ w, isPlain c = true) :
    closingOffset limit pos (.substitution start d :: outer) (w ++ v) =
      closingOffset limit (pos + w.length) (.substitution start d :: outer) v := by
  induction w generalizing pos with
  | nil => rfl
  | cons c w ih =>
    rcases List.forall_mem_cons.mp hw with ⟨hc, hrest⟩
    simp only [isPlain, Bool.and_eq_true, decide_eq_true_eq] at hc
    rcases hc with ⟨⟨⟨⟨⟨hslash, hsingle⟩, hdouble⟩, htemplate⟩, hopen⟩, hclose⟩
    have hstep : closingOffset limit pos (.substitution start d :: outer) (c :: (w ++ v)) =
        closingOffset limit (pos + 1) (.substitution start d :: outer) (w ++ v) := by
      simp [closingOffset, hslash, hsingle, hdouble, htemplate, hopen, hclose]
    rw [List.cons_append, hstep, ih hrest, List.length_cons]
    congr 1
    omega

/-- A token of plain characters leaves everything open that was open. -/
theorem closingOffset_plain_take (hn : n ≤ r.length) (hw : ∀ x ∈ c :: r.take n, isPlain x = true) :
    closingOffset limit pos (.substitution start d :: outer) (c :: r) =
      closingOffset limit (pos + 1 + n) (.substitution start d :: outer) (r.drop n) := by
  have hrest : closingOffset limit pos (.substitution start d :: outer)
      ((c :: r.take n) ++ r.drop n) = closingOffset limit (pos + (c :: r.take n).length)
        (.substitution start d :: outer) (r.drop n) := closingOffset_plain hw
  rw [List.cons_append, List.take_append_drop, List.length_cons, List.length_take,
    Nat.min_eq_left hn] at hrest
  rw [hrest]
  congr 1
  omega

theorem isPlain_of_continuesIdentifier (h : continuesIdentifier c = true) : isPlain c = true := by
  have hne : c ≠ '/' ∧ c ≠ '\'' ∧ c ≠ '"' ∧ c ≠ templateMark ∧ c ≠ '{' ∧ c ≠ '}' := by
    refine ⟨?_, ?_, ?_, ?_, ?_, ?_⟩ <;> rintro rfl <;> cases h
  simp [isPlain, hne]

theorem isPlain_of_startsIdentifier (h : startsIdentifier c = true) : isPlain c = true :=
  isPlain_of_continuesIdentifier (continuesIdentifier_of_startsIdentifier h)

theorem isPlain_of_isBlank (h : isBlank c = true) : isPlain c = true := by
  have hne : c ≠ '/' ∧ c ≠ '\'' ∧ c ≠ '"' ∧ c ≠ templateMark ∧ c ≠ '{' ∧ c ≠ '}' := by
    refine ⟨?_, ?_, ?_, ?_, ?_, ?_⟩ <;> rintro rfl <;> cases h
  simp [isPlain, hne]

/-! ## Single tokens -/

/-- Do the templates and substitutions in a template stand at most `limit` deep in one another? -/
def nestsWithin (limit : Nat) (w : Text) : Bool :=
  (closingOffset limit 1 [.template 0] (w.drop 1)).toOption.isSome

/-- A template that nests within a limit is read with that limit as without it. -/
theorem closingOffset_of_nestsWithin [Limits] {stop : Nat} (hlimit : limit ≤ deepest)
    (h : closingOffset deepest 1 [.template 0] r = .ok stop)
    (hnests : nestsWithin limit (c :: r.take (stop - 1)) = true) :
    closingOffset limit 1 [.template 0] r = .ok stop := by
  rcases closingOffset_template h with ⟨hone, hle, hleads⟩
  rw [nestsWithin, List.drop_succ_cons, List.drop_zero] at hnests
  cases hinner : closingOffset limit 1 [.template 0] (r.take (stop - 1)) with
  | error e => simp [hinner, Except.toOption] at hnests
  | ok stop' =>
    rcases closingOffset_template hinner with ⟨-, -, hinnerLeads⟩
    -- both limits read the template alone, and so find the same end
    have hboth := hinnerLeads deepest 0 [] ((r.take (stop - 1)).drop (stop' - 1)) hlimit
    rw [List.take_append_drop] at hboth
    have halone := hleads deepest 0 [] [] (Nat.le_refl _)
    rw [List.append_nil, hboth] at halone
    simp only [closingOffset, Except.ok.injEq, Nat.zero_add] at halone
    subst halone
    have hbehind := hinnerLeads limit 0 [] (r.drop (stop' - 1)) (Nat.le_refl _)
    rw [List.take_take, Nat.min_self, List.take_append_drop] at hbehind
    simpa [closingOffset] using hbehind

/-- A substitution passes over a comment that its line ends. -/
theorem closingOffset_passes_lineComment [Limits]
    (hbehind : r.drop (r.takeWhile (· ≠ '\n')).length ≠ []) :
    closingOffset deepest pos (.substitution start d :: outer) ('/' :: '/' :: r) =
      closingOffset deepest (pos + 2 + (r.takeWhile (· ≠ '\n')).length)
        (.substitution start d :: outer) (r.drop (r.takeWhile (· ≠ '\n')).length) := by
  have hcomment : ∀ x ∈ r.takeWhile (· ≠ '\n'), x ≠ '\n' := by
    intro x hx
    simpa using List.mem_takeWhile_imp hx
  have hend := any_head?_drop_takeWhile (· ≠ '\n') r
  have hsplit := List.take_append_drop (r.takeWhile (· ≠ '\n')).length r
  rw [take_takeWhile] at hsplit
  -- there is a newline behind the comment
  cases hdrop : r.drop (r.takeWhile (· ≠ '\n')).length with
  | nil => exact (hbehind hdrop).elim
  | cons x v =>
    rw [hdrop] at hend hsplit
    have hx : x = '\n' := by simpa using hend
    subst hx
    have hnewline (k : Nat) : closingOffset deepest k (.substitution start d :: outer)
        ('\n' :: v) = closingOffset deepest (k + 1) (.substitution start d :: outer) v :=
      closingOffset_plain (w := ['\n']) (List.forall_mem_singleton.mpr rfl)
    rw [closingOffset, ← hsplit, closingOffset_lineComment hcomment, hsplit, hnewline]

/-- A substitution passes over a template that nests within the limit. -/
theorem closingOffset_passes_template [Limits] {stop : Nat}
    (hlimit : limit + (outer.length + 1) ≤ deepest) (hpos : 0 < limit)
    (hstop : closingOffset deepest 1 [.template 0] r = .ok stop)
    (hnests : nestsWithin limit (templateMark :: r.take (stop - 1)) = true) :
    closingOffset deepest pos (.substitution start d :: outer) (templateMark :: r) =
      closingOffset deepest (pos + stop) (.substitution start d :: outer) (r.drop (stop - 1)) := by
  have hroom : ¬ deepest ≤ outer.length + 1 := by omega
  have hstep : closingOffset deepest pos (.substitution start d :: outer) (templateMark :: r) =
      closingOffset deepest (pos + 1) (.template pos :: .substitution start d :: outer) r := by
    simp [closingOffset, templateMark, hroom]
  have hinner := closingOffset_of_nestsWithin (by omega) hstop hnests
  rcases closingOffset_template hinner with ⟨hone, -, hleads⟩
  have hrest := hleads deepest pos (.substitution start d :: outer) (r.drop (stop - 1))
    (by simpa using hlimit)
  rw [List.take_append_drop] at hrest
  rw [hstep, hrest]

/-- A substitution counts a mark that is a brace, and passes over any other one. -/
theorem closingOffset_passes_mark [Limits] (hmark : isMark c = true)
    (hruns : runsOn .punctuation [c] r = false) (hbehind : r ≠ [])
    (hbraces : (e : Int) = d + braceStep .punctuation [c]) :
    closingOffset deepest pos (.substitution start (d + 1) :: outer) (c :: r) =
      closingOffset deepest (pos + 1) (.substitution start (e + 1) :: outer) r := by
  simp only [isMark, Bool.and_eq_true, decide_eq_true_eq] at hmark
  rcases hmark with ⟨⟨⟨⟨hsingle, hdouble⟩, htemplate⟩, -⟩, -⟩
  by_cases hopen : c = '{'
  · subst hopen
    have hstep : braceStep .punctuation ['{'] = 1 := rfl
    have he : e = d + 1 := by omega
    subst he
    simp [closingOffset, templateMark]
  by_cases hclose : c = '}'
  · subst hclose
    have hstep : braceStep .punctuation ['}'] = -1 := rfl
    have hd : d = e + 1 := by omega
    subst hd
    simp [closingOffset, templateMark]
  have hstep : braceStep .punctuation [c] = 0 := by simp [braceStep, hopen, hclose]
  have he : e = d := by omega
  subst he
  by_cases hslash : c = '/'
  · subst hslash
    -- it begins no comment, as it would run on into the next character
    rcases List.exists_cons_of_ne_nil hbehind with ⟨x, r, rfl⟩
    have hline : x ≠ '/' := by
      rintro rfl
      simp [runsOn, Text.startsWith] at hruns
    have hblock : x ≠ '*' := by
      rintro rfl
      simp [runsOn, Text.startsWith] at hruns
    simp [closingOffset, hline, hblock, templateMark]
  · exact closingOffset_plain_take (Nat.zero_le _)
      (by simp [isPlain, hsingle, hdouble, htemplate, hopen, hclose, hslash])

/-- A substitution passes over a token as the lexer does, if it is no regular expression. -/
theorem closingOffset_lexes [Limits] (hlimit : limit + (outer.length + 1) ≤ deepest)
    (hpos : 0 < limit) (h : Lexes false c r kind n) (hbehind : r.drop n ≠ [])
    (hnests : kind = .template → nestsWithin limit (c :: r.take n) = true)
    (hbraces : (e : Int) = d + braceStep kind (c :: r.take n)) :
    closingOffset deepest pos (.substitution start (d + 1) :: outer) (c :: r) =
      closingOffset deepest (pos + 1 + n) (.substitution start (e + 1) :: outer) (r.drop n) := by
  have hsame : braceStep kind (c :: r.take n) = 0 → e = d := by omega
  cases h with
  | @lineComment r =>
    have he : e = d := hsame rfl
    subst he
    have hfront : ('/' :: r).takeWhile (· ≠ '\n') = '/' :: r.takeWhile (· ≠ '\n') := by simp
    rw [hfront, List.length_cons, List.drop_succ_cons] at hbehind ⊢
    rw [closingOffset_passes_lineComment hbehind]
    congr 1
    omega
  | @blockComment r n hlength =>
    have he : e = d := hsame rfl
    subst he
    rw [closingOffset, closingOffset_blockComment hlength, List.drop_succ_cons]
    congr 1
    omega
  | string hquote hlength =>
    have he : e = d := hsame rfl
    subst he
    have hroom : ¬ deepest ≤ outer.length + 1 := by omega
    have hstep : closingOffset deepest pos (.substitution start (e + 1) :: outer) (c :: r) =
        closingOffset deepest (pos + 1)
          (.string c pos :: .substitution start (e + 1) :: outer) r := by
      rcases hquote with rfl | rfl <;> simp [closingOffset, hroom]
    rw [hstep, closingOffset_string hlength]
  | @template r stop hstop =>
    have he : e = d := hsame rfl
    subst he
    have hone := (closingOffset_template hstop).1
    rw [closingOffset_passes_template hlimit hpos hstop (hnests rfl)]
    congr 1
    omega
  | identifier hname =>
    have he : e = d := hsame rfl
    subst he
    apply closingOffset_plain_take (List.takeWhile_prefix _).length_le
    rw [take_takeWhile]
    refine List.forall_mem_cons.mpr ⟨isPlain_of_startsIdentifier hname, ?_⟩
    intro x hx
    exact isPlain_of_continuesIdentifier (List.mem_takeWhile_imp hx)
  | number _ hnumber =>
    have he : e = d := hsame rfl
    subst he
    apply closingOffset_plain_take (List.takeWhile_prefix _).length_le
    rw [take_takeWhile]
    refine List.forall_mem_cons.mpr ⟨?_, ?_⟩
    · rw [Bool.or_eq_true, Bool.and_eq_true, decide_eq_true_eq] at hnumber
      rcases hnumber with hdigit | ⟨rfl, -⟩
      · exact isPlain_of_continuesIdentifier (continuesIdentifier_of_isDigit hdigit)
      · rfl
    · intro x hx
      have hx' := List.mem_takeWhile_imp hx
      rw [Bool.or_eq_true, decide_eq_true_eq] at hx'
      rcases hx' with hname | rfl
      · exact isPlain_of_continuesIdentifier hname
      · rfl
  | regex _ hregex => cases hregex
  | @spread r =>
    have he : e = d := hsame rfl
    subst he
    exact closingOffset_plain_take (by simp) (by simp [isPlain, templateMark])
  | @arrow r =>
    have he : e = d := hsame rfl
    subst he
    exact closingOffset_plain_take (by simp) (by simp [isPlain, templateMark])
  | mark hmark hruns _ => exact closingOffset_passes_mark hmark hruns hbehind hbraces

/-! ## Runs of tokens -/

/-- Reading code without regular expressions, with templates that nest within a limit, comes from
the text `t` with `d` braces open to the text `v` with `d'` open. -/
inductive ReadsPlain [Limits] (limit : Nat) : Nat → Text → Nat → Text → Prop
  | refl {d : Nat} {t : Text} : ReadsPlain limit d t d t
  | blank {d d' : Nat} {c : Char} {r v : Text} :
    isBlank c = true → ReadsPlain limit d r d' v → ReadsPlain limit d (c :: r) d' v
  | token {d e d' n : Nat} {c : Char} {r v : Text} {kind : TokenKind} :
    Lexes false c r kind n → (kind = .template → nestsWithin limit (c :: r.take n) = true) →
      (e : Int) = d + braceStep kind (c :: r.take n) → ReadsPlain limit e (r.drop n) d' v →
      ReadsPlain limit d (c :: r) d' v

namespace ReadsPlain

theorem trans [Limits] (h : ReadsPlain limit d t e u) (h' : ReadsPlain limit e u d' v) :
    ReadsPlain limit d t d' v := by
  induction h with
  | refl => exact h'
  | blank hblank _ ih => exact .blank hblank (ih h')
  | token hlexes hnests hbraces _ ih => exact .token hlexes hnests hbraces (ih h')

/-- Braces that are open around the code stay open. -/
theorem add [Limits] (h : ReadsPlain limit d t d' v) : ReadsPlain limit (d + n) t (d' + n) v := by
  induction h with
  | refl => exact .refl
  | blank hblank _ ih => exact .blank hblank ih
  | token hlexes hnests hbraces _ ih =>
    refine .token hlexes hnests ?_ ih
    push_cast
    omega

theorem isSuffix [Limits] (h : ReadsPlain limit d t d' v) : v <:+ t := by
  induction h with
  | refl => exact List.suffix_refl _
  | blank _ _ ih => exact ih.trans (List.suffix_cons _ _)
  | token _ _ _ _ ih => exact ih.trans ((List.drop_suffix _ _).trans (List.suffix_cons _ _))

/-- A substitution passes over plain code, with as many braces open behind it as the code leaves
open. -/
theorem closingOffset_eq [Limits] (hlimit : limit + (outer.length + 1) ≤ deepest) (hpos : 0 < limit)
    (h : ReadsPlain limit d t d' v) (hv : v ≠ []) :
    closingOffset deepest pos (.substitution start (d + 1) :: outer) t =
      closingOffset deepest (pos + (t.length - v.length))
        (.substitution start (d' + 1) :: outer) v := by
  induction h generalizing pos with
  | refl => simp
  | @blank d d' c r v hblank hrest ih =>
    have hstep : closingOffset deepest pos (.substitution start (d + 1) :: outer) (c :: r) =
        closingOffset deepest (pos + 1 + 0) (.substitution start (d + 1) :: outer) (r.drop 0) :=
      closingOffset_plain_take (Nat.zero_le r.length)
        (List.forall_mem_singleton.mpr (isPlain_of_isBlank hblank))
    have hle := hrest.isSuffix.length_le
    rw [List.drop_zero] at hstep
    rw [hstep, ih hv, List.length_cons]
    congr 1
    omega
  | @token d e d' n c r v kind hlexes hnests hbraces hrest ih =>
    have hle := hrest.isSuffix.length_le
    have hbehind : r.drop n ≠ [] := by
      intro hnil
      have hsuffix := hrest.isSuffix
      rw [hnil, List.suffix_nil] at hsuffix
      exact hv hsuffix
    have hn := hlexes.length_le
    rw [List.length_drop] at hle
    rw [closingOffset_lexes hlimit hpos hlexes hbehind hnests hbraces, ih hv, List.length_cons,
      List.length_drop]
    congr 1
    omega

end ReadsPlain

/-- A token that does not run on into a text does not do so when a line is added to that. -/
theorem runsOn_append_newline (h : runsOn kind w u = false) :
    runsOn kind w (u ++ '\n' :: v) = false := by
  have hname : continuesIdentifier '\n' = false := continuesIdentifier_of_isBlank rfl
  have hdigit : isDigit '\n' = false := rfl
  cases u with
  | nil => cases kind <;> simp [runsOn, Text.startsWith, List.isPrefixOf, hname, hdigit]
  | cons x u =>
    cases kind with
    | punctuation =>
      cases u with
      | nil => simpa [runsOn, Text.startsWith, List.isPrefixOf] using h
      | cons y u => simpa [runsOn, Text.startsWith, List.isPrefixOf] using h
    | _ => exact h

/-- Any other token than a regular expression is read as plain code, in front of a line too. -/
theorem ReadsPlain.lexed [Limits] (hrest : ReadsPlain limit e (r.drop n ++ '\n' :: v) d' u)
    (h : Lexes regexes c r kind n) (hkind : kind ≠ .regex)
    (hnests : kind = .template → nestsWithin limit (c :: r.take n) = true)
    (hbraces : (e : Int) = d + braceStep kind (c :: r.take n)) :
    ReadsPlain limit d (c :: r ++ '\n' :: v) d' u := by
  have hn := h.length_le
  have htake : (r ++ '\n' :: v).take n = r.take n := List.take_append_of_le_length hn
  have hdrop : (r ++ '\n' :: v).drop n = r.drop n ++ '\n' :: v :=
    List.drop_append_of_le_length hn
  have hstable := (h.plain hkind).stable (runsOn_append_newline (v := v) h.not_runsOn)
  rw [← List.append_assoc, List.take_append_drop] at hstable
  rw [← htake] at hnests hbraces
  rw [← hdrop] at hrest
  exact .token hstable hnests hbraces hrest

/-- Code that was split into tokens is read as plain code, if its regular expressions are. -/
theorem readsPlain_of_tokensFrom [Limits] {whole : Text}
    (h : tokensFrom pos previous t = .ok tokens) (hwhole : whole.drop pos = t ++ '\n' :: v)
    (hregex : ∀ x ∈ tokens, x.kind = .regex →
      ReadsPlain limit 0 (whole.drop x.start) 0 (whole.drop x.stop))
    (hnests : ∀ x ∈ tokens, x.kind = .template → nestsWithin limit x.text.toList = true)
    (hbraces : ∀ p, p <+: tokens → 0 ≤ d + braceNet p)
    (hnet : (d' : Int) = d + braceNet tokens) :
    ReadsPlain limit d (t ++ '\n' :: v) d' ('\n' :: v) := by
  rw [tokensFrom_eq_ok_iff] at h
  induction h generalizing d with
  | nil =>
    rw [braceNet_nil] at hnet
    have hd : d' = d := by omega
    subst hd
    exact .refl
  | blank hblank _ ih =>
    refine .blank hblank (ih ?_ hregex hnests hbraces hnet)
    rw [← List.drop_drop, hwhole]
    rfl
  | @token pos n previous c r kind rest _ hlexes _ ih =>
    have hbehind : whole.drop (pos + 1 + n) = r.drop n ++ '\n' :: v := by
      rw [Nat.add_assoc, ← List.drop_drop, hwhole, List.cons_append, Nat.add_comm 1 n,
        List.drop_succ_cons, List.drop_append_of_le_length hlexes.length_le]
    -- so many braces are open behind the first token
    obtain ⟨e, he⟩ : ∃ e : Nat, (e : Int) = d + braceStep kind (c :: r.take n) := by
      have hfirst := hbraces [tokenAt pos c r kind n] (by simp)
      rw [braceNet_tokenAt, braceNet_nil, Int.add_zero] at hfirst
      exact ⟨_, Int.toNat_of_nonneg hfirst⟩
    have hrest : ReadsPlain limit e (r.drop n ++ '\n' :: v) d' ('\n' :: v) := by
      apply ih hbehind
      · intro x hx
        exact hregex x (List.mem_cons_of_mem _ hx)
      · intro x hx
        exact hnests x (List.mem_cons_of_mem _ hx)
      · intro p hp
        have hprefix := hbraces (tokenAt pos c r kind n :: p) (by simpa using hp)
        rw [braceNet_tokenAt] at hprefix
        rw [he]
        exact Int.add_assoc _ _ _ ▸ hprefix
      · rw [braceNet_tokenAt] at hnet
        rw [he, hnet]
        exact (Int.add_assoc _ _ _).symm
    by_cases hkind : kind = .regex
    · have hstep : braceStep kind (c :: r.take n) = 0 := by simp [braceStep, hkind]
      have hd : e = d := by omega
      subst hd
      have hread := (hregex _ List.mem_cons_self hkind).add (n := e)
      rw [start_tokenAt, hlexes.stop_tokenAt, hwhole, hbehind, Nat.zero_add] at hread
      exact hread.trans hrest
    · refine hrest.lexed hlexes hkind ?_ he
      intro htemplate
      have htext := hnests _ List.mem_cons_self htemplate
      rwa [toList_text_tokenAt] at htext

/-! ## Substitutions -/

/-- A template that holds nothing but a substitution with this code. -/
def inSubstitution (s : Text) : Text :=
  templateMark :: '$' :: '{' :: (s ++ ['}', templateMark])

/-- Does this regular expression of a script, which stands in a substitution, read as plain code
whose braces balance? -/
def ReadsAsCode [Limits] (s : Text) (x : Token) : Prop :=
  let text := s ++ ['\n', '}', templateMark]
  ReadsPlain (deepest - 2) 0 (text.drop x.start) 0 (text.drop x.stop)

theorem closingOffset_inSubstitution [Limits] (hroom : 2 < deepest) (h : tokenize s = .ok tokens)
    (hbalance : BracesBalance tokens)
    (hnests : ∀ x ∈ tokens, x.kind = .template → nestsWithin (deepest - 2) x.text.toList = true)
    (hregex : ∀ x ∈ tokens, x.kind = .regex → ReadsAsCode s x) :
    closingOffset deepest 1 [.template 0] ('$' :: '{' :: (s ++ ['\n', '}', templateMark])) =
      .ok (s.length + 6) := by
  have htokens := tokensFrom_of_tokenize h
  have hread : ReadsPlain (deepest - 2) 0 (s ++ ['\n', '}', templateMark]) 0
      ['\n', '}', templateMark] := by
    refine readsPlain_of_tokensFrom htokens (List.drop_zero) hregex hnests ?_ ?_
    · intro p hp
      simpa using hbalance.nonneg p hp
    · simpa using hbalance.settled.symm
  have hpass : closingOffset deepest 3 [.substitution 3 1, .template 0]
      (s ++ ['\n', '}', templateMark]) = closingOffset deepest
        (3 + ((s ++ ['\n', '}', templateMark]).length - ['\n', '}', templateMark].length))
        [.substitution 3 1, .template 0] ['\n', '}', templateMark] :=
    hread.closingOffset_eq (by simp; omega) (by omega) (by simp)
  have henter : closingOffset deepest 1 [.template 0]
      ('$' :: '{' :: (s ++ ['\n', '}', templateMark])) =
      closingOffset deepest 3 [.substitution 3 1, .template 0]
        (s ++ ['\n', '}', templateMark]) := by
    have henough : ¬ deepest ≤ 1 := by omega
    simp [closingOffset, henough]
  rw [henter, hpass]
  simp [closingOffset, templateMark]
  omega

/-- Where a literal may stand in a substitution at all, code with balanced braces can be put into
the substitution of a template: the template is one token, which ends behind it. -/
theorem tokenize_inSubstitution [Limits] (hroom : 2 < deepest) (h : tokenize s = .ok tokens)
    (hbalance : BracesBalance tokens)
    (hnests : ∀ x ∈ tokens, x.kind = .template → nestsWithin (deepest - 2) x.text.toList = true)
    (hregex : ∀ x ∈ tokens, x.kind = .regex → ReadsAsCode s x) :
    tokenize (inSubstitution (s ++ ['\n'])) =
      .ok [⟨.template, String.ofList (inSubstitution (s ++ ['\n'])), 0⟩] := by
  have hclose := closingOffset_inSubstitution hroom h hbalance hnests hregex
  have htext : inSubstitution (s ++ ['\n']) =
      templateMark :: '$' :: '{' :: (s ++ ['\n', '}', templateMark]) := by
    simp [inSubstitution]
  rw [htext]
  have hlexes : Lexes (regexMayFollow none) templateMark
      ('$' :: '{' :: (s ++ ['\n', '}', templateMark])) .template _ := .template hclose
  have hlexeme := lexeme_of_lexes hlexes
  have hall : ('$' :: '{' :: (s ++ ['\n', '}', templateMark])).length ≤ s.length + 6 - 1 := by
    simp
  have hblank : isBlank templateMark = false := rfl
  rw [tokenize, tokensFrom_cons]
  simp only [hblank, Bool.false_eq_true, if_false, hlexeme, List.take_of_length_le hall,
    List.drop_eq_nil_of_le hall]
  simp [tokensFrom_nil, Except.map, Except.mapError]

/-- Strings, comments, templates and regular expressions may hold braces and quotes. -/
theorem tokenize_inSubstitution_of_literals :
    ∃ s tokens, s = "\x7b f('\x7d', `a$\x7bb\x7d`, /c\x7b2\x7d/) \x7d // \x7b".toList ∧
      2 < deepest ∧ tokenize s = .ok tokens ∧ BracesBalance tokens ∧
      (∀ x ∈ tokens, x.kind = .template → nestsWithin (deepest - 2) x.text.toList = true) ∧
      (∀ x ∈ tokens, x.kind = .regex → ReadsAsCode s x) ∧
      tokenize (inSubstitution (s ++ ['\n'])) =
        .ok [⟨.template, String.ofList (inSubstitution (s ++ ['\n'])), 0⟩] := by
  let s := "\x7b f('\x7d', `a$\x7bb\x7d`, /c\x7b2\x7d/) \x7d // \x7b".toList
  obtain ⟨tokens, htokens, hbalance, hnests, honly⟩ :
      ∃ tokens, tokenize s = .ok tokens ∧ BracesBalance tokens ∧
        (∀ x ∈ tokens, x.kind = .template → nestsWithin (deepest - 2) x.text.toList = true) ∧
        ∀ x ∈ tokens, x.kind = .regex → x = ⟨.regex, "/c\x7b2\x7d/", 18⟩ :=
    ⟨[⟨.punctuation, "\x7b", 0⟩, ⟨.identifier, "f", 2⟩, ⟨.punctuation, "(", 3⟩,
      ⟨.string, "'\x7d'", 4⟩, ⟨.punctuation, ",", 7⟩, ⟨.template, "`a$\x7bb\x7d`", 9⟩,
      ⟨.punctuation, ",", 16⟩, ⟨.regex, "/c\x7b2\x7d/", 18⟩, ⟨.punctuation, ")", 24⟩,
      ⟨.punctuation, "\x7d", 26⟩, ⟨.comment, "// \x7b", 28⟩], by decide +kernel⟩
  have hread : ReadsAsCode s ⟨.regex, "/c\x7b2\x7d/", 18⟩ := by
    have hfront : (s ++ ['\n', '}', templateMark]).drop 18 =
        '/' :: 'c' :: '{' :: '2' :: '}' :: '/' :: ')' ::
          (s ++ ['\n', '}', templateMark]).drop 25 := by
      decide +kernel
    have hbehind : (s ++ ['\n', '}', templateMark]).drop 24 =
        ')' :: (s ++ ['\n', '}', templateMark]).drop 25 := by
      decide +kernel
    unfold ReadsAsCode
    simp only [show (⟨.regex, "/c\x7b2\x7d/", 18⟩ : Token).stop = 24 by decide +kernel]
    rw [hfront, hbehind]
    generalize (s ++ ['\n', '}', templateMark]).drop 25 = w
    -- a slash, a name, a number in braces, and a slash
    refine .token (e := 0) (.mark (by decide) rfl (fun _ => rfl)) nofun rfl ?_
    refine .token (e := 0) (.identifier (by decide)) nofun rfl ?_
    refine .token (e := 1) (.mark (by decide) rfl (fun _ => rfl)) nofun rfl ?_
    refine .token (e := 1) (.number (by decide) rfl) nofun rfl ?_
    refine .token (e := 0) (.mark (by decide) rfl (fun _ => rfl)) nofun rfl ?_
    refine .token (e := 0) (.mark (by decide) rfl (fun _ => rfl)) nofun rfl ?_
    exact .refl
  have hregex : ∀ x ∈ tokens, x.kind = .regex → ReadsAsCode s x :=
    fun x hx hkind => honly x hx hkind ▸ hread
  exact ⟨s, tokens, rfl, by decide, htokens, hbalance, hnests, hregex,
    tokenize_inSubstitution (by decide) htokens hbalance hnests hregex⟩

/-- A quote in a regular expression opens a string where that stands in a substitution. -/
theorem tokenize_inSubstitution_of_quote :
    tokenize "/'/".toList = .ok [⟨.regex, "/'/", 0⟩] ∧ BracesBalance [⟨.regex, "/'/", 0⟩] ∧
      tokenize (inSubstitution ("/'/".toList ++ ['\n'])) = .error ⟨.openString, 4, ⟨1, 5⟩⟩ := by
  decide +kernel

end WasmPackage.Script
