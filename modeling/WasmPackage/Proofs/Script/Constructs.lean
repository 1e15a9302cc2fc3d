import WasmPackage.Proofs.Script.Literals

/-!
# Constructs of scripts

The places of a script that are not read as tokens, as a grammar: strings, comments, regular
expressions and templates, and what may stand in one another.  A table says how each construct opens
and closes and which ones it holds; all else stands for itself.  What is said here of the ends of
constructs does not depend on how a script is scanned.
-/

namespace WasmPackage.Script

/-- The constructs.  Braces are those in a substitution; the class of a regular expression stands in
brackets. -/
inductive Construct
  | string (double : Bool)
  | lineComment
  | blockComment
  | regex
  | regexClass
  | template
  | substitution
  | braces
deriving DecidableEq, Repr

namespace Construct

/-- The mark around a string. -/
def quote (double : Bool) : Char :=
  if double then '"' else '\''

/-- What a construct begins with. -/
def opening : Construct → Text
  | string double => [quote double]
  | lineComment => ['/', '/']
  | blockComment => ['/', '*']
  | regex => ['/']
  | regexClass => ['[']
  | template => [templateMark]
  | substitution => ['$', '{']
  | braces => ['{']

/-- What a construct ends with. -/
def closing : Construct → Text
  | string double => [quote double]
  | lineComment => ['\n']
  | blockComment => ['*', '/']
  | regex => ['/']
  | regexClass => [']']
  | template => [templateMark]
  | substitution => ['}']
  | braces => ['}']

/-- Does a backslash take the next character along? -/
def escapes : Construct → Bool
  | string _ | regex | regexClass | template => true
  | lineComment | blockComment | substitution | braces => false

/-- Must the construct end before a newline? -/
def isOneLine : Construct → Bool
  | string _ | regex | regexClass => true
  | lineComment | blockComment | template | substitution | braces => false

/-- May the construct stand in the code of a substitution?  That is not split into tokens, and a
slash begins no regular expression in it. -/
def isInCode : Construct → Bool
  | string _ | lineComment | blockComment | template | braces => true
  | regex | regexClass | substitution => false

/-- May the second construct stand in the first one? -/
def holds : Construct → Construct → Bool
  | regex, inner => inner = regexClass
  | template, inner => inner = substitution
  | substitution, inner | braces, inner => inner.isInCode
  | _, _ => false

/-- Templates, substitutions and strings count when it is said how deep they stand in one
another. -/
def weight : Construct → Nat
  | template | substitution | string _ => 1
  | _ => 0

end Construct

open Construct

variable {level inner inner' : Construct} {c : Char} {r s t u v w : Text} {k n : Nat}

/-- A character in a construct that stands for itself when `r` stands behind it. -/
structure Ordinary (level : Construct) (c : Char) (r : Text) : Prop where
  closing : ¬ level.closing <+: c :: r
  escape : level.escapes = true → c ≠ '\\'
  newline : level.isOneLine = true → c ≠ '\n'
  opening : ∀ inner, level.holds inner = true → ¬ inner.opening <+: c :: r

/-- In the construct one comes from the first text to the second one: what stands between are
characters that stand for themselves, escapes, and constructs that end. -/
inductive Reads : Construct → Text → Text → Prop
  | refl {level : Construct} {t : Text} : Reads level t t
  | char {level : Construct} {c : Char} {r v : Text} :
    Ordinary level c r → Reads level r v → Reads level (c :: r) v
  | escape {level : Construct} {c : Char} {r v : Text} :
    level.escapes = true → Reads level r v → Reads level ('\\' :: c :: r) v
  | nested {outer inner : Construct} {r w v : Text} :
    outer.holds inner = true → Reads inner r (inner.closing ++ w) → Reads outer w v →
      Reads outer (inner.opening ++ r) v

/-- A construct whose opening stands before `r` ends before `w`. -/
def Ends (level : Construct) (r w : Text) : Prop :=
  Reads level r (level.closing ++ w)

/-- A construct whose opening stands before `r` ends nowhere. -/
def HasNoEnd (level : Construct) (r : Text) : Prop :=
  ∀ w, ¬ Ends level r w

/-! ## The table -/

theorem Construct.weight_le_one (level : Construct) : level.weight ≤ 1 := by
  cases level <;> simp [weight]

theorem closing_ne_nil (level : Construct) : level.closing ≠ [] := by
  cases level <;> simp [closing]

theorem opening_ne_nil (level : Construct) : level.opening ≠ [] := by
  cases level <;> simp [opening]

theorem closing_ne_backslash (level : Construct) : level.closing ++ w ≠ '\\' :: r := by
  cases level <;> simp [closing, templateMark, quote]
  case string double => cases double <;> simp

theorem opening_ne_backslash (level : Construct) : level.opening ++ w ≠ '\\' :: r := by
  cases level <;> simp [opening, templateMark, quote]
  case string double => cases double <;> simp

theorem closing_ne_newline (h : level.isOneLine = true) : level.closing ++ w ≠ '\n' :: r := by
  cases level <;> simp [closing, quote, isOneLine] at h ⊢
  case string double => cases double <;> simp

theorem opening_ne_newline (level : Construct) : level.opening ++ w ≠ '\n' :: r := by
  cases level <;> simp [opening, templateMark, quote]
  case string double => cases double <;> simp

/-- A construct does not close as one in it opens. -/
theorem closing_ne_opening (h : level.holds inner = true) :
    level.closing ++ w ≠ inner.opening ++ r := by
  cases level <;> cases inner <;>
    simp [holds, isInCode, closing, opening, templateMark, quote] at h ⊢
  all_goals split <;> simp

theorem quote_injective {d d' : Bool} (h : quote d = quote d') : d = d' := by
  cases d <;> cases d' <;> simp [quote] at h ⊢

/-- Different constructs in code open in different ways. -/
theorem eq_of_isInCode (h : inner.isInCode = true) (h' : inner'.isInCode = true)
    (heq : inner.opening ++ r = inner'.opening ++ s) : inner = inner' := by
  cases inner <;> cases inner' <;> simp [isInCode, opening, templateMark] at h h' heq ⊢
  case string.string d d' => exact quote_injective heq.1
  all_goals
    rename_i d
    cases d <;> simp [quote] at heq

/-- Different constructs that may stand in the same one open in different ways. -/
theorem eq_of_opening_eq (h : level.holds inner = true) (h' : level.holds inner' = true)
    (heq : inner.opening ++ r = inner'.opening ++ s) : inner = inner' ∧ r = s := by
  have hsame : inner = inner' := by
    cases level with
    | regex => exact (of_decide_eq_true h).trans (of_decide_eq_true h').symm
    | template => exact (of_decide_eq_true h).trans (of_decide_eq_true h').symm
    | substitution => exact eq_of_isInCode h h' heq
    | braces => exact eq_of_isInCode h h' heq
    | string double => cases h
    | lineComment => cases h
    | blockComment => cases h
    | regexClass => cases h
  subst hsame
  exact ⟨rfl, List.append_cancel_left heq⟩

/-! ## What stands at the front of a text in a construct -/

/-- What a text in a construct begins with. -/
inductive Front (level : Construct) : Text → Prop
  | done : Front level []
  | closing {w : Text} : Front level (level.closing ++ w)
  | escape {c : Char} {r : Text} : level.escapes = true → Front level ('\\' :: c :: r)
  | lone : level.escapes = true → Front level ['\\']
  | newline {r : Text} : level.isOneLine = true → Front level ('\n' :: r)
  | nested {inner : Construct} {r : Text} :
    level.holds inner = true → Front level (inner.opening ++ r)
  | char {c : Char} {r : Text} : Ordinary level c r → Front level (c :: r)

theorem front (level : Construct) (t : Text) : Front level t := by
  cases t with
  | nil => exact .done
  | cons c r =>
    by_cases hclosing : level.closing <+: c :: r
    · rcases hclosing with ⟨w, hw⟩
      rw [← hw]
      exact .closing
    by_cases hopening : ∃ inner, level.holds inner = true ∧ inner.opening <+: c :: r
    · rcases hopening with ⟨inner, hholds, w, hw⟩
      rw [← hw]
      exact .nested hholds
    by_cases hescape : level.escapes = true ∧ c = '\\'
    · rcases hescape with ⟨hescapes, rfl⟩
      cases r with
      | nil => exact .lone hescapes
      | cons d r => exact .escape hescapes
    by_cases hnewline : level.isOneLine = true ∧ c = '\n'
    · rcases hnewline with ⟨hline, rfl⟩
      exact .newline hline
    refine .char ⟨hclosing, ?_, ?_, ?_⟩
    · intro hescapes hc
      exact hescape ⟨hescapes, hc⟩
    · intro hline hc
      exact hnewline ⟨hline, hc⟩
    · intro inner hholds hprefix
      exact hopening ⟨inner, hholds, hprefix⟩

/-! ## Where constructs end -/

namespace Reads

theorem length_le (h : Reads level t u) : u.length ≤ t.length := by
  induction h with
  | refl => exact Nat.le_refl _
  | char _ _ ih => exact Nat.le_succ_of_le ih
  | escape _ _ ih => exact Nat.le_succ_of_le (Nat.le_succ_of_le ih)
  | nested _ _ _ ihinner ihouter =>
    simp only [List.length_append] at ihinner ⊢
    omega

theorem trans (h : Reads level t u) (h' : Reads level u v) : Reads level t v := by
  induction h with
  | refl => exact h'
  | char hc _ ih => exact .char hc (ih h')
  | escape hescapes _ ih => exact .escape hescapes (ih h')
  | nested hholds hinner _ _ ih => exact .nested hholds hinner (ih h')

/-- The ways to go on, with equations in place of the texts. -/
theorem cases_front (h : Reads level t v) : t = v ∨
    (∃ c r, t = c :: r ∧ Ordinary level c r ∧ Reads level r v) ∨
    (∃ c r, t = '\\' :: c :: r ∧ level.escapes = true ∧ Reads level r v) ∨
    ∃ inner r w, t = inner.opening ++ r ∧ level.holds inner = true ∧ Ends inner r w ∧
      Reads level w v := by
  cases h with
  | refl => exact Or.inl rfl
  | char hc hrest => exact Or.inr (Or.inl ⟨_, _, rfl, hc, hrest⟩)
  | escape hescapes hrest => exact Or.inr (Or.inr (Or.inl ⟨_, _, rfl, hescapes, hrest⟩))
  | nested hholds hinner hrest =>
    exact Or.inr (Or.inr (Or.inr ⟨_, _, _, rfl, hholds, hinner, hrest⟩))

end Reads

namespace Ends

theorem length_lt (h : Ends level r w) : w.length < r.length := by
  have hle := Reads.length_le h
  have hpos := List.length_pos_iff.mpr (closing_ne_nil level)
  rw [List.length_append] at hle
  omega

theorem closing_iff : Ends level (level.closing ++ v) w ↔ v = w := by
  constructor
  · intro h
    rcases h.cases_front with heq | ⟨c, r, heq, hc, -⟩ | ⟨c, r, heq, -⟩ |
      ⟨inner, r, x, heq, hholds, -⟩
    · exact List.append_cancel_left heq
    · exact (hc.closing ⟨v, heq⟩).elim
    · exact (closing_ne_backslash level heq).elim
    · exact (closing_ne_opening hholds heq).elim
  · rintro rfl
    exact .refl

theorem escape_iff (hescapes : level.escapes = true) :
    Ends level ('\\' :: c :: r) w ↔ Ends level r w := by
  constructor
  · intro h
    rcases h.cases_front with heq | ⟨d, s, heq, hd, -⟩ | ⟨d, s, heq, -, hrest⟩ |
      ⟨inner, s, x, heq, -⟩
    · exact (closing_ne_backslash level heq.symm).elim
    · cases heq
      exact (hd.escape hescapes rfl).elim
    · cases heq
      exact hrest
    · exact (opening_ne_backslash inner heq.symm).elim
  · exact .escape hescapes

theorem char_iff (hc : Ordinary level c r) : Ends level (c :: r) w ↔ Ends level r w := by
  constructor
  · intro h
    rcases h.cases_front with heq | ⟨d, s, heq, -, hrest⟩ | ⟨d, s, heq, hescapes, -⟩ |
      ⟨inner, s, x, heq, hholds, -⟩
    · exact (hc.closing ⟨w, heq.symm⟩).elim
    · cases heq
      exact hrest
    · cases heq
      exact (hc.escape hescapes rfl).elim
    · exact (hc.opening inner hholds ⟨s, heq.symm⟩).elim
  · exact .char hc

theorem nested_iff (hholds : level.holds inner = true) :
    Ends level (inner.opening ++ r) w ↔ ∃ v, Ends inner r v ∧ Ends level v w := by
  constructor
  · intro h
    rcases h.cases_front with heq | ⟨d, s, heq, hd, -⟩ | ⟨d, s, heq, -⟩ |
      ⟨inner', s, x, heq, hholds', hinner, hrest⟩
    · exact (closing_ne_opening hholds heq.symm).elim
    · exact (hd.opening inner hholds ⟨r, heq⟩).elim
    · exact (opening_ne_backslash inner heq).elim
    · rcases eq_of_opening_eq hholds hholds' heq with ⟨rfl, rfl⟩
      exact ⟨x, hinner, hrest⟩
  · rintro ⟨v, hinner, hrest⟩
    exact .nested hholds hinner hrest

end Ends

/-- At the end of the text nothing ends. -/
theorem hasNoEnd_nil : HasNoEnd level [] := by
  intro w h
  have := h.length_lt
  simp at this

/-- A backslash has to have a character behind it. -/
theorem hasNoEnd_lone (hescapes : level.escapes = true) : HasNoEnd level ['\\'] := by
  intro w h
  rcases h.cases_front with heq | ⟨d, s, heq, hd, -⟩ | ⟨d, s, heq, -⟩ | ⟨inner, s, x, heq, -⟩
  · exact closing_ne_backslash level heq.symm
  · cases heq
    exact hd.escape hescapes rfl
  · cases heq
  · exact opening_ne_backslash inner heq.symm

theorem hasNoEnd_newline (hline : level.isOneLine = true) : HasNoEnd level ('\n' :: r) := by
  intro w h
  rcases h.cases_front with heq | ⟨d, s, heq, hd, -⟩ | ⟨d, s, heq, -⟩ | ⟨inner, s, x, heq, -⟩
  · exact closing_ne_newline hline heq.symm
  · cases heq
    exact hd.newline hline rfl
  · cases heq
  · exact opening_ne_newline inner heq.symm

/-- A construct ends at one place at most. -/
theorem Ends.unique (h : Ends level r w) (h' : Ends level r v) : w = v := by
  induction hlength : r.length using Nat.strong_induction_on generalizing level r w v with
  | h length ih =>
  cases front level r with
  | done => exact (hasNoEnd_nil w h).elim
  | closing =>
    rw [Ends.closing_iff] at h h'
    exact h.symm.trans h'
  | @escape c r hescapes =>
    rw [Ends.escape_iff hescapes] at h h'
    exact ih r.length (by simp only [← hlength, List.length_cons]; omega) h h' rfl
  | lone hescapes => exact (hasNoEnd_lone hescapes w h).elim
  | newline hline => exact (hasNoEnd_newline hline w h).elim
  | @nested inner s hholds =>
    rw [Ends.nested_iff hholds] at h h'
    rcases h with ⟨x, hinner, hrest⟩
    rcases h' with ⟨y, hinner', hrest'⟩
    have hshorter : s.length < length := by
      have := List.length_pos_iff.mpr (opening_ne_nil inner)
      rw [← hlength, List.length_append]
      omega
    have hsame : x = y := ih s.length hshorter hinner hinner' rfl
    subst hsame
    exact ih x.length (Nat.lt_trans hinner.length_lt hshorter) hrest hrest' rfl
  | @char c r hc =>
    rw [Ends.char_iff hc] at h h'
    exact ih r.length (by simp only [← hlength, List.length_cons]; omega) h h' rfl

/-! ## Literals without an end -/

theorem singleton_prefix_iff {d : Char} : [d] <+: c :: r ↔ c = d := by
  rw [List.cons_prefix_cons]
  simp [eq_comm]

theorem hasNoEnd_string {double : Bool} (h : stringLength? (quote double) r = none) :
    HasNoEnd (.string double) r := by
  fun_induction stringLength? (quote double) r with
  | case1 c r ih =>
    intro w
    rw [Ends.escape_iff rfl]
    exact ih (Option.map_eq_none_iff.mp h) w
  | case2 => exact hasNoEnd_lone rfl
  | case3 => cases h
  | case4 => exact hasNoEnd_newline rfl
  | case5 c r hescape hlone hmark hnewline ih =>
    have hc : Ordinary (.string double) c r :=
      { closing := fun hprefix => hmark (singleton_prefix_iff.mp hprefix)
        escape := fun _ => ne_backslash hescape hlone
        newline := fun _ => hnewline
        opening := fun _ hholds => by cases hholds }
    intro w
    rw [Ends.char_iff hc]
    exact ih (Option.map_eq_none_iff.mp h) w
  | case6 => exact hasNoEnd_nil

theorem hasNoEnd_blockComment (h : blockCommentLength? r = none) : HasNoEnd .blockComment r := by
  fun_induction blockCommentLength? r with
  | case1 => cases h
  | case2 c r hend ih =>
    have hc : Ordinary .blockComment c r :=
      { closing := by
          rintro ⟨s, hs⟩
          cases hs
          exact hend s rfl rfl
        escape := fun hescapes => by cases hescapes
        newline := fun hline => by cases hline
        opening := fun _ hholds => by cases hholds }
    intro w
    rw [Ends.char_iff hc]
    exact ih (Option.map_eq_none_iff.mp h) w
  | case3 => exact hasNoEnd_nil

/-- No regular expression goes on to an end in `r`, where the text stands in a class or not. -/
def RegexHasNoEnd (inClass : Bool) (r : Text) : Prop :=
  if inClass then ∀ w, Ends .regexClass r w → HasNoEnd .regex w else HasNoEnd .regex r

theorem regexHasNoEnd {inClass : Bool} (h : regexLength? inClass r = none) :
    RegexHasNoEnd inClass r := by
  fun_induction regexLength? inClass r with
  | case1 inClass c r ih =>
    have ih' := ih (Option.map_eq_none_iff.mp h)
    cases inClass with
    | false =>
      intro w
      rw [Ends.escape_iff rfl]
      exact ih' w
    | true =>
      intro w
      rw [Ends.escape_iff rfl]
      exact ih' w
  | case2 inClass =>
    cases inClass with
    | false => exact hasNoEnd_lone rfl
    | true => exact fun w hclass => (hasNoEnd_lone rfl w hclass).elim
  | case3 inClass =>
    cases inClass with
    | false => exact hasNoEnd_newline rfl
    | true => exact fun w hclass => (hasNoEnd_newline rfl w hclass).elim
  | case4 => cases h
  | case5 inClass c r hescape hlone hnewline hclose ih =>
    have ih' := ih (Option.map_eq_none_iff.mp h)
    have hbackslash := ne_backslash hescape hlone
    cases inClass with
    | false =>
      by_cases hopen : c = '['
      · -- a class opens, and has to end first
        subst hopen
        intro w hends
        rcases (@Ends.nested_iff .regex .regexClass r w rfl).mp hends with ⟨v, hclass, hrest⟩
        exact ih' v hclass w hrest
      · have hc : Ordinary .regex c r :=
          { closing := fun hprefix => hclose (by simp [singleton_prefix_iff.mp hprefix])
            escape := fun _ => hbackslash
            newline := fun _ => hnewline
            opening := by
              intro inner hholds hprefix
              rw [of_decide_eq_true hholds] at hprefix
              exact hopen (singleton_prefix_iff.mp hprefix) }
        simp only [hopen, decide_false, Bool.false_and, Bool.or_false] at ih'
        intro w
        rw [Ends.char_iff hc]
        exact ih' w
    | true =>
      by_cases hend : c = ']'
      · -- the class ends here
        subst hend
        intro w hclass
        rcases (@Ends.closing_iff .regexClass r w).mp hclass with rfl
        exact ih'
      · have hc : Ordinary .regexClass c r :=
          { closing := fun hprefix => hend (singleton_prefix_iff.mp hprefix)
            escape := fun _ => hbackslash
            newline := fun _ => hnewline
            opening := fun _ hholds => by cases hholds }
        simp only [hend, ne_eq, not_false_eq_true, decide_true, Bool.and_self, Bool.or_true] at ih'
        intro w
        rw [Ends.char_iff hc]
        exact ih' w
  | case6 inClass =>
    cases inClass with
    | false => exact hasNoEnd_nil
    | true => exact fun w hclass => (hasNoEnd_nil w hclass).elim

/-! ## Constructs in constructs -/

/-- In a construct whose opening stands before `r`, or in one in it, opens a construct with `v`
behind its opening.  The number says how many templates, substitutions and strings are then open,
with both of the two. -/
inductive Nested : Construct → Text → Nat → Construct → Text → Prop
  | self {level : Construct} {r : Text} : Nested level r level.weight level r
  | inner {outer inner level : Construct} {r s v : Text} {k : Nat} :
    Reads outer r (inner.opening ++ s) → outer.holds inner = true → Nested inner s k level v →
      Nested outer r (outer.weight + k) level v

/-- In a construct whose opening stands before `r` opens one that is not the construct itself. -/
def Within (level : Construct) (r : Text) (k : Nat) (inner : Construct) (v : Text) : Prop :=
  ∃ held s, Reads level r (held.opening ++ s) ∧ level.holds held = true ∧ Nested held s k inner v

theorem Within.prepend (h : Within level u k inner v) (hreads : Reads level t u) :
    Within level t k inner v := by
  rcases h with ⟨held, s, hbefore, hholds, hnested⟩
  exact ⟨held, s, hreads.trans hbefore, hholds, hnested⟩

theorem Within.nested (h : Within level r k inner v) :
    Nested level r (level.weight + k) inner v := by
  rcases h with ⟨held, s, hbefore, hholds, hnested⟩
  exact .inner hbefore hholds hnested

/-- What holds nothing that counts counts alone. -/
theorem Nested.eq_weight (h : Nested level r k inner v)
    (hholds : ∀ held, level.holds held = true → held = .regexClass) : k = level.weight := by
  cases h with
  | self => rfl
  | inner _ hheld hnested =>
    cases hholds _ hheld
    cases hnested with
    | self => rfl
    | inner _ hnone _ => cases hnone

end WasmPackage.Script
