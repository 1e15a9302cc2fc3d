import WasmPackage.Proofs.Script.Constructs

/-!
# Scanning constructs

How the scan of a template goes through the constructs in it.  The scan keeps the open constructs on
a stack and looks at the innermost one; each of its steps is that of the grammar, except where the
stack is full.
-/

namespace WasmPackage.Script

open Construct

variable {level inner : Construct} {limit p pos : Nat} {stack : List Enclosure} {c : Char}
  {r s t v w : Text} {k : Nat}

/-- The open constructs when one more opens at an offset.  Braces are counted in their
substitution. -/
def opened (level : Construct) (pos : Nat) (stack : List Enclosure) : List Enclosure :=
  match level, stack with
  | .string double, _ => .string (quote double) pos :: stack
  | .lineComment, _ => .lineComment :: stack
  | .blockComment, _ => .blockComment pos :: stack
  | .template, _ => .template pos :: stack
  | .substitution, _ => .substitution (pos + 2) 1 :: stack
  | .braces, .substitution start count :: outer => .substitution start (count + 1) :: outer
  | _, _ => stack

/-- Can the construct open inside of these?  Braces open only in a substitution, and regular
expressions are not scanned with a stack. -/
def Fits : Construct → List Enclosure → Prop
  | .braces, stack => ∃ start count outer, stack = .substitution start (count + 1) :: outer
  | .regex, _ => False
  | .regexClass, _ => False
  | _, _ => True

/-- What an open construct holds can open in it. -/
theorem Fits.held (h : Fits level stack) (hholds : level.holds inner = true) :
    Fits inner (opened level p stack) := by
  cases level with
  | template =>
    rw [of_decide_eq_true hholds]
    trivial
  | substitution =>
    cases inner <;> first | trivial | exact ⟨_, _, _, rfl⟩
  | braces =>
    rcases h with ⟨start, count, outer, rfl⟩
    cases inner <;> first | trivial | exact ⟨_, _, _, rfl⟩
  | regex => exact h.elim
  | regexClass => exact h.elim
  | string double => cases hholds
  | lineComment => cases hholds
  | blockComment => cases hholds

theorem opened_ne_nil (h : Fits level stack) : opened level p stack ≠ [] := by
  cases level with
  | string double => simp [opened]
  | lineComment => simp [opened]
  | blockComment => simp [opened]
  | template => simp [opened]
  | substitution => simp [opened]
  | braces =>
    rcases h with ⟨start, count, outer, rfl⟩
    simp [opened]
  | regex => exact h.elim
  | regexClass => exact h.elim

/-- What counts makes the stack higher. -/
theorem length_opened (h : Fits level stack) (hholds : level.holds inner = true) :
    (opened level p stack).length = stack.length + level.weight := by
  cases level with
  | template => rfl
  | substitution => rfl
  | braces =>
    rcases h with ⟨start, count, outer, rfl⟩
    rfl
  | regex => exact h.elim
  | regexClass => exact h.elim
  | string double => cases hholds
  | lineComment => cases hholds
  | blockComment => cases hholds

/-! ## Steps of the scan -/

/-- A construct that may stand in code does not begin with an ordinary character of it. -/
theorem Ordinary.not_opening (hc : Ordinary level c r)
    (hlevel : level = .substitution ∨ level = .braces) (inner : Construct)
    (hinner : inner.isInCode = true) : ¬ inner.opening <+: c :: r := by
  rcases hlevel with rfl | rfl
  · exact hc.opening inner hinner
  · exact hc.opening inner hinner

/-- In code a substitution passes over ordinary characters, however many braces are open. -/
theorem closingOffset_substitution_char {start count : Nat}
    (hc : Ordinary level c r) (hlevel : level = .substitution ∨ level = .braces) :
    closingOffset limit pos (.substitution start count :: stack) (c :: r) =
      closingOffset limit (pos + 1) (.substitution start count :: stack) r := by
  have hdouble : c ≠ '"' := by
    rintro rfl
    exact hc.not_opening hlevel (.string true) rfl ⟨r, rfl⟩
  have hsingle : c ≠ '\'' := by
    rintro rfl
    exact hc.not_opening hlevel (.string false) rfl ⟨r, rfl⟩
  have hmark : c ≠ templateMark := by
    rintro rfl
    exact hc.not_opening hlevel .template rfl ⟨r, rfl⟩
  have hopen : c ≠ '{' := by
    rintro rfl
    exact hc.not_opening hlevel .braces rfl ⟨r, rfl⟩
  have hclose : c ≠ '}' := by
    rintro rfl
    rcases hlevel with rfl | rfl
    · exact hc.closing ⟨r, rfl⟩
    · exact hc.closing ⟨r, rfl⟩
  have hline : ∀ s, c = '/' → r = '/' :: s → False := by
    rintro s rfl rfl
    exact hc.not_opening hlevel .lineComment rfl ⟨s, rfl⟩
  have hblock : ∀ s, c = '/' → r = '*' :: s → False := by
    rintro s rfl rfl
    exact hc.not_opening hlevel .blockComment rfl ⟨s, rfl⟩
  rw [closingOffset]
  · simp [hsingle, hdouble, hmark, hopen, hclose]
  · exact hline
  · exact hblock

/-- An ordinary character leaves everything open that is open. -/
theorem closingOffset_char (h : Fits level stack) (hc : Ordinary level c r) :
    closingOffset limit pos (opened level p stack) (c :: r) =
      closingOffset limit (pos + 1) (opened level p stack) r := by
  cases level with
  | string double =>
    have hmark : c ≠ quote double := fun hmark => hc.closing ⟨r, by rw [hmark]; rfl⟩
    have hnewline : c ≠ '\n' := hc.newline rfl
    rw [opened, closingOffset, if_neg hmark, if_neg hnewline]
    exact hc.escape rfl
  | lineComment =>
    have hnewline : c ≠ '\n' := fun hnewline => hc.closing ⟨r, by rw [hnewline]; rfl⟩
    rw [opened, closingOffset, if_neg hnewline]
  | blockComment =>
    rw [opened, closingOffset]
    rintro s rfl rfl
    exact hc.closing ⟨s, rfl⟩
  | template =>
    have hmark : c ≠ templateMark := fun hmark => hc.closing ⟨r, by rw [hmark]; rfl⟩
    rw [opened, closingOffset, if_neg hmark]
    · exact hc.escape rfl
    · rintro s rfl rfl
      exact hc.opening .substitution rfl ⟨s, rfl⟩
  | substitution => exact closingOffset_substitution_char hc (Or.inl rfl)
  | braces =>
    rcases h with ⟨start, count, outer, rfl⟩
    exact closingOffset_substitution_char hc (Or.inr rfl)
  | regex => exact h.elim
  | regexClass => exact h.elim

theorem closingOffset_escape (h : Fits level stack) (hescapes : level.escapes = true) :
    closingOffset limit pos (opened level p stack) ('\\' :: c :: r) =
      closingOffset limit (pos + 2) (opened level p stack) r := by
  cases level with
  | string double => simp [opened, closingOffset]
  | template => simp [opened, closingOffset]
  | regex => exact h.elim
  | regexClass => exact h.elim
  | lineComment => cases hescapes
  | blockComment => cases hescapes
  | substitution => cases hescapes
  | braces => cases hescapes

/-- With its closing a construct is no longer open. -/
theorem closingOffset_closing (h : Fits level stack) :
    closingOffset limit pos (opened level p stack) (level.closing ++ w) =
      closingOffset limit (pos + level.closing.length) stack w := by
  cases level with
  | string double => cases double <;> simp [opened, closing, closingOffset, quote]
  | lineComment => simp [opened, closing, closingOffset]
  | blockComment => simp [opened, closing, closingOffset]
  | template => simp [opened, closing, closingOffset, templateMark]
  | substitution => simp [opened, closing, closingOffset, templateMark]
  | braces =>
    rcases h with ⟨start, count, outer, rfl⟩
    simp [opened, closing, closingOffset, templateMark]
  | regex => exact h.elim
  | regexClass => exact h.elim

/-- What opens in code is open in addition, if there is room. -/
theorem closingOffset_substitution_opening {start count : Nat} (hinner : inner.isInCode = true) :
    closingOffset limit pos (.substitution start count :: stack) (inner.opening ++ r) =
      if inner.weight = 1 ∧ limit ≤ (Enclosure.substitution start count :: stack).length then
        .error (.tooDeep, pos)
      else closingOffset limit (pos + inner.opening.length)
        (opened inner pos (.substitution start count :: stack)) r := by
  cases inner with
  | string double => cases double <;> simp [opening, opened, closingOffset, quote, weight]
  | lineComment => simp [opening, opened, closingOffset, weight]
  | blockComment => simp [opening, opened, closingOffset, weight]
  | template => simp [opening, opened, closingOffset, templateMark, weight]
  | braces => simp [opening, opened, closingOffset, templateMark, weight]
  | regex => cases hinner
  | regexClass => cases hinner
  | substitution => cases hinner

/-- What opens in a construct is open in addition, if there is room. -/
theorem closingOffset_opening (h : Fits level stack) (hholds : level.holds inner = true) :
    closingOffset limit pos (opened level p stack) (inner.opening ++ r) =
      if inner.weight = 1 ∧ limit ≤ (opened level p stack).length then .error (.tooDeep, pos)
      else closingOffset limit (pos + inner.opening.length)
        (opened inner pos (opened level p stack)) r := by
  cases level with
  | template =>
    rw [of_decide_eq_true hholds]
    simp [opened, opening, closingOffset, weight]
  | substitution => exact closingOffset_substitution_opening hholds
  | braces =>
    rcases h with ⟨start, count, outer, rfl⟩
    exact closingOffset_substitution_opening hholds
  | regex => exact h.elim
  | regexClass => exact h.elim
  | string double => cases hholds
  | lineComment => cases hholds
  | blockComment => cases hholds

/-- The scan fails at the end of the text, at a backslash that has nothing behind it, and at a
newline in a string. -/
theorem closingOffset_nil (hstack : stack ≠ []) :
    closingOffset limit pos stack [] = .error (openFault stack) := by
  cases stack with
  | nil => exact (hstack rfl).elim
  | cons e outer => cases e <;> simp [closingOffset]

theorem closingOffset_lone (h : Fits level stack) (hescapes : level.escapes = true) :
    closingOffset limit pos (opened level p stack) ['\\'] =
      .error (openFault (opened level p stack)) := by
  cases level with
  | string double => simp [opened, closingOffset, openFault]
  | template => simp [opened, closingOffset, openFault]
  | regex => exact h.elim
  | regexClass => exact h.elim
  | lineComment => cases hescapes
  | blockComment => cases hescapes
  | substitution => cases hescapes
  | braces => cases hescapes

theorem closingOffset_newline (h : Fits level stack) (hline : level.isOneLine = true) :
    closingOffset limit pos (opened level p stack) ('\n' :: r) =
      .error (openFault (opened level p stack)) := by
  cases level with
  | string double => cases double <;> simp [opened, closingOffset, openFault, quote]
  | regex => exact h.elim
  | regexClass => exact h.elim
  | lineComment => cases hline
  | blockComment => cases hline
  | template => cases hline
  | substitution => cases hline
  | braces => cases hline

theorem deepest_pos [Limits] : 0 < deepest :=
  Nat.succ_pos _

/-! ## What comes of a scan -/

/-- What is said of a construct without an end; a line comment, braces or a class are not named, but
what stands around them. -/
def Construct.cause? : Construct → Option Malformed
  | .string _ => some .openString
  | .blockComment => some .openComment
  | .regex => some .openRegex
  | .template => some .openTemplate
  | .substitution => some .openSubstitution
  | .lineComment | .regexClass | .braces => none

/-- How far the text of a construct begins behind the place that is named for it: a substitution is
named by the place behind its opening. -/
def Construct.lead : Construct → Nat
  | .substitution => 0
  | level => level.opening.length

/-- A fault names a construct without an end, which is one of those that open in a text.  The text
ends at offset `stop`. -/
def IsOpenFault (opens : Nat → Construct → Text → Prop) (stop : Nat) (fault : Malformed × Nat) :
    Prop :=
  ∃ k level v, opens k level v ∧ HasNoEnd level v ∧ level.cause? = some fault.1 ∧
    fault.2 + level.lead + v.length = stop

theorem IsOpenFault.mono {opens opens' : Nat → Construct → Text → Prop} {stop : Nat}
    {fault : Malformed × Nat} (h : IsOpenFault opens stop fault)
    (hopens : ∀ k level v, opens k level v → ∃ k', opens' k' level v) :
    IsOpenFault opens' stop fault := by
  rcases h with ⟨k, level, v, hopen, hrest⟩
  rcases hopens k level v hopen with ⟨k', hopen'⟩
  exact ⟨k', level, v, hopen', hrest⟩

/-- What comes of scanning a construct that is open on top of a stack, from offset `pos` on: it ends
and the scan goes on behind it, or it does not end, or one in it does not end, or one in it opens
when the stack is full. -/
inductive Outcome (limit : Nat) (level : Construct) (p : Nat) (stack : List Enclosure) (pos : Nat)
    (r : Text) : Prop
  | ends {w : Text} {pos' : Nat} : Ends level r w → pos' + w.length = pos + r.length →
    closingOffset limit pos (opened level p stack) r = closingOffset limit pos' stack w →
      Outcome limit level p stack pos r
  | noEnd : HasNoEnd level r →
    closingOffset limit pos (opened level p stack) r =
      .error (openFault (opened level p stack)) → Outcome limit level p stack pos r
  | within {fault : Malformed × Nat} : IsOpenFault (Within level r) (pos + r.length) fault →
    closingOffset limit pos (opened level p stack) r = .error fault →
      Outcome limit level p stack pos r
  | tooDeep {k offset : Nat} {inner : Construct} {v : Text} : Within level r k inner v →
    stack.length + level.weight + k = limit + 1 →
    closingOffset limit pos (opened level p stack) r = .error (.tooDeep, offset) →
      Outcome limit level p stack pos r

/-- What comes of a scan behind the beginning of a construct comes of the whole scan. -/
theorem Outcome.prepend {pos' : Nat} (h : Outcome limit level p stack pos' s)
    (hreads : Reads level r s) (hends : ∀ w, Ends level r w ↔ Ends level s w)
    (hpos : pos' + s.length = pos + r.length)
    (hsame : closingOffset limit pos (opened level p stack) r =
      closingOffset limit pos' (opened level p stack) s) :
    Outcome limit level p stack pos r := by
  cases h with
  | ends hs hlength hscan =>
    exact .ends ((hends _).mpr hs) (hlength.trans hpos) (hsame.trans hscan)
  | noEnd hs hscan => exact .noEnd (fun w hw => hs w ((hends w).mp hw)) (hsame.trans hscan)
  | within hfault hscan =>
    rw [hpos] at hfault
    exact .within (hfault.mono fun k inner v hv => ⟨k, hv.prepend hreads⟩) (hsame.trans hscan)
  | tooDeep hs hdepth hscan => exact .tooDeep (hs.prepend hreads) hdepth (hsame.trans hscan)

/-- What is said of a construct that opened at an offset and does not end. -/
theorem openFault_opened (h : Fits inner stack) :
    (inner.cause? = none ∧ openFault (opened inner p stack) = openFault stack) ∨
      ∃ cause offset, inner.cause? = some cause ∧
        openFault (opened inner p stack) = (cause, offset) ∧
          offset + inner.lead = p + inner.opening.length := by
  cases inner with
  | string double => exact Or.inr ⟨_, _, rfl, rfl, rfl⟩
  | blockComment => exact Or.inr ⟨_, _, rfl, rfl, rfl⟩
  | template => exact Or.inr ⟨_, _, rfl, rfl, rfl⟩
  | substitution => exact Or.inr ⟨_, _, rfl, rfl, rfl⟩
  | lineComment => exact Or.inl ⟨rfl, rfl⟩
  | braces =>
    rcases h with ⟨start, count, outer, rfl⟩
    exact Or.inl ⟨rfl, rfl⟩
  | regex => exact h.elim
  | regexClass => exact h.elim

/-- What comes of a scan that begins with a construct in the scanned one. -/
theorem Outcome.nested (h : Fits level stack) (hholds : level.holds inner = true)
    (hstep : closingOffset limit pos (opened level p stack) (inner.opening ++ s) =
      closingOffset limit (pos + inner.opening.length) (opened inner pos (opened level p stack)) s)
    (hinner : Outcome limit inner pos (opened level p stack) (pos + inner.opening.length) s)
    (hrest : ∀ w pos', w.length < s.length → Outcome limit level p stack pos' w) :
    Outcome limit level p stack pos (inner.opening ++ s) := by
  have hlength : pos + (inner.opening ++ s).length = pos + inner.opening.length + s.length := by
    rw [List.length_append, Nat.add_assoc]
  cases hinner with
  | @ends w pos' hends hpos hscan =>
    apply (hrest w pos' hends.length_lt).prepend (.nested hholds hends .refl)
    · intro v
      rw [Ends.nested_iff hholds]
      constructor
      · rintro ⟨x, hx, hv⟩
        rwa [hends.unique hx]
      · intro hv
        exact ⟨w, hends, hv⟩
    · rw [hlength, hpos]
    · exact hstep.trans hscan
  | noEnd hno hscan =>
    rcases openFault_opened (h.held hholds)
      with ⟨-, houter⟩ | ⟨cause, offset, hcause, hfault, hlead⟩
    · -- nothing is said of this construct, but of the one around it, which does not end either
      rw [houter] at hscan
      refine .noEnd ?_ (hstep.trans hscan)
      intro w hw
      rcases (Ends.nested_iff hholds).mp hw with ⟨v, hv, -⟩
      exact hno v hv
    · rw [hfault] at hscan
      refine .within ⟨_, inner, s, ⟨inner, s, .refl, hholds, .self⟩, hno, hcause, ?_⟩
        (hstep.trans hscan)
      rw [hlength, hlead]
  | within hfault hscan =>
    rw [← hlength] at hfault
    refine .within (hfault.mono ?_) (hstep.trans hscan)
    intro k held v hv
    exact ⟨_, inner, s, .refl, hholds, hv.nested⟩
  | tooDeep hs hdepth hscan =>
    refine .tooDeep ⟨inner, s, .refl, hholds, hs.nested⟩ ?_ (hstep.trans hscan)
    rw [length_opened h hholds] at hdepth
    omega

theorem room_of_not_full (hroom : stack.length ≤ limit)
    (hfull : ¬ (inner.weight = 1 ∧ limit ≤ stack.length)) :
    stack.length + inner.weight ≤ limit := by
  have := inner.weight_le_one
  omega

/-- The scan of a construct comes to one of the outcomes. -/
theorem outcome (h : Fits level stack) (hroom : stack.length + level.weight ≤ limit) :
    Outcome limit level p stack pos r := by
  -- on the length of the text: a step, or a construct in this one, leaves less of it
  induction hlength : r.length using Nat.strong_induction_on generalizing level p stack pos r with
  | h length ih =>
  cases front level r with
  | done => exact .noEnd hasNoEnd_nil (closingOffset_nil (opened_ne_nil h))
  | @closing w =>
    exact .ends (Ends.closing_iff.mpr rfl) (by rw [List.length_append]; omega)
      (closingOffset_closing h)
  | @escape c r hescapes =>
    have hrest : Outcome limit level p stack (pos + 2) r :=
      ih r.length (by simp only [← hlength, List.length_cons]; omega) h hroom rfl
    exact hrest.prepend (.escape hescapes .refl) (fun w => Ends.escape_iff hescapes)
      (by simp only [List.length_cons]; omega) (closingOffset_escape h hescapes)
  | lone hescapes => exact .noEnd (hasNoEnd_lone hescapes) (closingOffset_lone h hescapes)
  | newline hline => exact .noEnd (hasNoEnd_newline hline) (closingOffset_newline h hline)
  | @char c r hc =>
    have hrest : Outcome limit level p stack (pos + 1) r :=
      ih r.length (by simp only [← hlength, List.length_cons]; omega) h hroom rfl
    exact hrest.prepend (.char hc .refl) (fun w => Ends.char_iff hc)
      (by simp only [List.length_cons]; omega) (closingOffset_char h hc)
  | @nested inner s hholds =>
    have hstep := @closingOffset_opening level inner limit p pos stack s h hholds
    have hheight := @length_opened level inner p stack h hholds
    by_cases hfull : inner.weight = 1 ∧ limit ≤ (opened level p stack).length
    · rw [if_pos hfull] at hstep
      have hself : Nested inner s inner.weight inner s := .self
      exact .tooDeep ⟨inner, s, .refl, hholds, hself⟩ (by omega) hstep
    · rw [if_neg hfull] at hstep
      have hshorter : s.length < length := by
        have := List.length_pos_iff.mpr (opening_ne_nil inner)
        rw [← hlength, List.length_append]
        omega
      have hroom' := room_of_not_full (hheight ▸ hroom) hfull
      exact .nested h hholds hstep (ih s.length hshorter (h.held hholds) hroom' rfl)
        (fun w pos' hw => ih w.length (Nat.lt_trans hw hshorter) h hroom rfl)

/-! ## Full stacks -/

/-- The scan follows the grammar, unless a construct opens in between when the stack is full. -/
theorem closingOffset_of_reads (hreads : Reads level r v) (h : Fits level stack)
    (hroom : stack.length + level.weight ≤ limit) :
    (∃ pos', closingOffset limit pos (opened level p stack) r =
      closingOffset limit pos' (opened level p stack) v) ∨
      ∃ offset, closingOffset limit pos (opened level p stack) r = .error (.tooDeep, offset) := by
  induction hreads generalizing p pos stack with
  | refl => exact Or.inl ⟨pos, rfl⟩
  | char hc _ ih =>
    rw [closingOffset_char h hc]
    exact ih h hroom
  | escape hescapes _ ih =>
    rw [closingOffset_escape h hescapes]
    exact ih h hroom
  | nested hholds _ _ ihinner ihouter =>
    rw [closingOffset_opening h hholds]
    have hheight := @length_opened _ _ p stack h hholds
    split
    case isTrue hfull => exact Or.inr ⟨pos, rfl⟩
    case isFalse hfull =>
      rcases ihinner (h.held hholds) (room_of_not_full (hheight ▸ hroom) hfull) with
        ⟨pos', hscan⟩ | hdeep
      · rw [hscan, closingOffset_closing (h.held hholds)]
        exact ihouter h hroom
      · exact Or.inr hdeep

/-- Where constructs open too deep in one another the scan fails for that, if it does not fail
before. -/
theorem closingOffset_of_nested (hnested : Nested level r k inner v) (h : Fits level stack)
    (hroom : stack.length + level.weight ≤ limit) (hdeep : limit < stack.length + k) :
    ∃ offset, closingOffset limit pos (opened level p stack) r = .error (.tooDeep, offset) := by
  induction hnested generalizing p pos stack with
  | self => omega
  | inner hreads hholds _ ih =>
    rcases closingOffset_of_reads hreads h hroom with ⟨pos', hscan⟩ | hdeep'
    · rw [hscan, closingOffset_opening h hholds]
      have hheight := @length_opened _ _ p stack h hholds
      split
      case isTrue hfull => exact ⟨pos', rfl⟩
      case isFalse hfull =>
        exact ih (h.held hholds) (room_of_not_full (hheight ▸ hroom) hfull) (by omega)
    · exact hdeep'

end WasmPackage.Script
