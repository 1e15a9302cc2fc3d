import Mathlib.Logic.Relation
import WasmPackage.Proofs.Script.Losslessness
import WasmPackage.Proofs.Script.Walks

/-!
# Scripts without an outline

A script has an outline if every item can be read that one comes to.  If not, something is wrong
with the script at a place of it: with two exceptions, templates that stand too deep in one another,
and code that ends where a function should be named.
-/

namespace WasmPackage.Script

variable {t : Text} {fault : Fault Malformed}

/-- Is the failure one that tells what is wrong with the script, and where? -/
def OutlineError.IsFault (e : OutlineError) : Prop :=
  ∃ fault, e = .malformed fault ∧ fault.cause ≠ .tooDeep

/-! ## Tokens and brackets -/

/-- Brackets fail to match for what they are. -/
theorem bracketsFrom_error {i : Nat} {opened : List (Nat × Token)} {tokens : List Token}
    {e : Malformed × Nat} (h : bracketsFrom i opened tokens = .error e) : e.1 ≠ .tooDeep := by
  fun_induction bracketsFrom i opened tokens with
  | case1 => cases h
  | case2 =>
    cases h
    exact nofun
  | case3 _ _ _ _ _ ih => exact ih h
  | case4 =>
    cases h
    exact nofun
  | case5 i x r _ _ j o outer _ ih =>
    cases hrest : bracketsFrom (i + 1) outer r with
    | error e' =>
      rw [hrest] at h
      cases h
      exact ih hrest
    | ok pairs =>
      rw [hrest] at h
      cases h
  | case6 =>
    cases h
    exact nofun
  | case7 _ _ _ _ _ _ ih => exact ih h

namespace Source

variable {s : Source} {i j start keyword next : Nat} {e : OutlineError}

/-- A script that cannot be read has a fault, or it nests too deep. -/
theorem read_error [Limits]
    (h : read t = .error fault) : fault.cause ≠ .tooDeep ∨ NestsTooDeep t := by
  unfold read tokenize at h
  cases htokens : tokensFrom 0 none t with
  | error e =>
    rw [htokens] at h
    cases h
    rcases tokensFrom_error htokens with hopen | ⟨-, hdeep⟩
    · rw [Nat.zero_add] at hopen
      exact Or.inl (cause_ne_tooDeep ⟨e.1, e.2, rfl, hopen⟩)
    · exact Or.inr hdeep
  | ok tokens =>
    rw [htokens] at h
    simp only [Except.mapError, bind, Except.bind] at h
    cases hbrackets : matchBrackets ((documented none tokens).map (·.1)) with
    | error e =>
      rw [hbrackets] at h
      cases h
      exact Or.inl (bracketsFrom_error hbrackets)
    | ok pairs =>
      rw [hbrackets] at h
      cases h

theorem read_of_nestsTooDeep [Limits] (h : NestsTooDeep t) :
    ∃ fault, read t = .error fault ∧ fault.cause = .tooDeep := by
  rcases tokenize_of_nestsTooDeep h with ⟨fault, hfails, hcause⟩
  refine ⟨fault, ?_, hcause⟩
  unfold read
  rw [hfails]
  rfl

/-! ## Items -/

/-- From index `i` on the code is nothing but the words that begin a function; its name is still to
come. -/
def EndsNameless (s : Source) (i : Nat) : Prop :=
  (s.is "function" i = true ∧ s.is "*" (i + 1) = true ∧ i + 2 = s.size) ∨
    (s.is "async" i = true ∧ s.is "function" (i + 1) = true ∧
      (i + 2 = s.size ∨ (s.is "*" (i + 2) = true ∧ i + 3 = s.size)))

theorem word?_eq_none_iff : s.word? i = none ↔ s.size ≤ i := by
  simp [word?, size]

/-- The failure tells what is wrong with the script where one of its code tokens begins. -/
def IsTokenFault (s : Source) (e : OutlineError) : Prop :=
  ∃ cause i, e = s.fault cause i ∧ cause ≠ .tooDeep

theorem IsTokenFault.isFault (h : s.IsTokenFault e) : e.IsFault := by
  rcases h with ⟨cause, i, rfl, hcause⟩
  exact ⟨_, rfl, hcause⟩

theorem classDecl_error (h : s.classDecl start keyword = .error e) : s.IsTokenFault e := by
  unfold classDecl at h
  split at h
  · cases h
    exact ⟨_, _, rfl, nofun⟩
  · cases h

/-- The index at which the name of a function stands. -/
def nameAt (s : Source) (keyword : Nat) : Nat :=
  let behindKeyword := if s.is "async" keyword then keyword + 2 else keyword + 1
  if s.is "*" behindKeyword then behindKeyword + 1 else behindKeyword

/-- A function that cannot be read has no name before the end of the code, or no parameters. -/
theorem functionDecl_cases (s : Source) (start keyword : Nat) (exported : ExportKind) :
    (s.size ≤ s.nameAt keyword ∧
        s.functionDecl start keyword exported = .error .namelessFunction) ∨
      (s.nameAt keyword < s.size ∧ ((∃ r, s.functionDecl start keyword exported = .ok r) ∨
        ∃ e, s.functionDecl start keyword exported = .error e ∧ s.IsTokenFault e)) := by
  unfold functionDecl nameAt
  simp only
  generalize (if s.is "async" keyword then keyword + 2 else keyword + 1) = behindKeyword
  generalize (if s.is "*" behindKeyword then behindKeyword + 1 else behindKeyword) = name
  cases hword : s.word? name with
  | none => exact Or.inl ⟨word?_eq_none_iff.mp hword, rfl⟩
  | some text =>
    right
    have hname : name < s.size := by
      by_contra hover
      rw [word?_eq_none_iff.mpr (Nat.le_of_not_lt hover)] at hword
      cases hword
    refine ⟨hname, ?_⟩
    simp only
    by_cases hparams : s.is "(" (s.behindTypeParameters (name + 1)) = true
    · rw [if_pos hparams]
      exact Or.inl ⟨_, rfl⟩
    · rw [if_neg hparams]
      exact Or.inr ⟨_, rfl, _, _, rfl, nofun⟩

/-- Behind the words that begin a function the code ends just where there is no name. -/
theorem endsNameless_iff : s.EndsNameless i ↔
    (s.is "function" i = true ∨ (s.is "async" i = true ∧ s.is "function" (i + 1) = true)) ∧
      i + 1 < s.size ∧ s.size ≤ s.nameAt i := by
  unfold EndsNameless nameAt
  constructor
  · rintro (⟨hfunction, hstar, hend⟩ | ⟨hasync, hfunction, hend⟩)
    · have hsync := is_eq_false (v := "async") hfunction (by decide)
      have hsize := lt_size_of_is hstar
      refine ⟨Or.inl hfunction, by omega, ?_⟩
      simp only [hsync, Bool.false_eq_true, if_false, hstar, if_true]
      omega
    · have hsize := lt_size_of_is hfunction
      refine ⟨Or.inr ⟨hasync, hfunction⟩, hsize, ?_⟩
      simp only [hasync, if_true]
      rcases hend with hend | ⟨hstar, hend⟩
      · split <;> omega
      · simp only [hstar, if_true]
        omega
  · rintro ⟨hfunction | ⟨hasync, hfunction⟩, hsize, hname⟩
    · have hsync := is_eq_false (v := "async") hfunction (by decide)
      simp only [hsync, Bool.false_eq_true, if_false] at hname
      cases hstar : s.is "*" (i + 1) with
      | false =>
        simp only [hstar, Bool.false_eq_true, if_false] at hname
        omega
      | true =>
        simp only [hstar, if_true] at hname
        exact Or.inl ⟨hfunction, rfl, by omega⟩
    · simp only [hasync, if_true] at hname
      refine Or.inr ⟨hasync, hfunction, ?_⟩
      cases hstar : s.is "*" (i + 2) with
      | false =>
        simp only [hstar, Bool.false_eq_true, if_false] at hname
        exact Or.inl (by omega)
      | true =>
        have := lt_size_of_is hstar
        simp only [hstar, if_true] at hname
        exact Or.inr ⟨rfl, by omega⟩

/-- An item fails for a fault that is told of where a token begins, or because the code ends before
the name of a function. -/
theorem item_error (h : s.item start = .error e) :
    s.IsTokenFault e ∨ (e = .namelessFunction ∧ s.EndsNameless (s.behindModifiers start)) := by
  unfold item at h
  simp only at h
  split at h
  · cases hclass : s.classDecl start (s.behindModifiers start) with
    | error e' =>
      rw [hclass] at h
      cases h
      exact Or.inl (classDecl_error hclass)
    | ok c =>
      rw [hclass] at h
      cases h
  · split at h
    case isFalse => cases h
    case isTrue hfunction =>
      rcases s.functionDecl_cases start (s.behindModifiers start)
        (.ofWords (s.words start (s.behindModifiers start))) with
        ⟨hname, hdecl⟩ | ⟨-, ⟨r, hdecl⟩ | ⟨e', hdecl, hfault⟩⟩
      · rw [hdecl] at h
        cases h
        simp only [Bool.and_eq_true, Bool.or_eq_true, decide_eq_true_eq] at hfunction
        exact Or.inr ⟨rfl, endsNameless_iff.mpr ⟨hfunction.1, hfunction.2, hname⟩⟩
      · rw [hdecl] at h
        cases h
      · rw [hdecl] at h
        cases h
        exact Or.inl hfault

theorem item_of_endsNameless (h : s.EndsNameless (s.behindModifiers start)) :
    s.item start = .error .namelessFunction := by
  rcases endsNameless_iff.mp h with ⟨hfunction, hsize, hname⟩
  have hclass : s.is "class" (s.behindModifiers start) = false := by
    rcases hfunction with hword | ⟨hword, -⟩ <;> exact is_eq_false hword (by decide)
  unfold item
  simp only
  generalize s.behindModifiers start = i at hfunction hsize hname hclass
  rw [if_neg (by simp [hclass]), if_pos (by simpa [hsize] using hfunction)]
  rcases s.functionDecl_cases start i (.ofWords (s.words start i)) with ⟨-, hdecl⟩ | ⟨hlt, -⟩
  · rw [hdecl]
    rfl
  · omega

/-- The item at index `i` is followed by one at index `j`. -/
def Follows (s : Source) (i j : Nat) : Prop :=
  i < s.size ∧ ∃ it next, s.item i = .ok (it, next) ∧ j = max (i + 1) next

/-- Reading items fails where it comes to one that fails. -/
theorem itemsFrom_error_iff : s.itemsFrom i = .error e ↔
    ∃ j, Relation.ReflTransGen s.Follows i j ∧ j < s.size ∧ s.item j = .error e := by
  constructor
  · intro h
    fun_induction itemsFrom s i with
    | case1 i hi e' hitem =>
      cases h
      exact ⟨i, .refl, hi, hitem⟩
    | case2 i hi it next hitem ih =>
      cases hrest : s.itemsFrom (max (i + 1) next) with
      | error e' =>
        rw [hrest] at h
        cases h
        rcases ih hrest with ⟨j, hfollows, hj⟩
        exact ⟨j, .head ⟨hi, it, next, hitem, rfl⟩ hfollows, hj⟩
      | ok items =>
        rw [hrest] at h
        cases h
    | case3 => cases h
  · rintro ⟨j, hfollows, hj, hitem⟩
    induction hfollows using Relation.ReflTransGen.head_induction_on with
    | refl =>
      rw [itemsFrom, if_pos hj, hitem]
    | head hfirst _ ih =>
      rcases hfirst with ⟨hi, it, next, hok, rfl⟩
      rw [itemsFrom, if_pos hi, hok]
      simp only
      rw [ih]
      rfl

end Source

/-! ## Outlines -/

/-- The items of the script lead to a place where the code ends before the name of a function. -/
def EndsNameless [Limits] (t : Text) : Prop :=
  ∃ s i, Source.read t = .ok s ∧ Relation.ReflTransGen s.Follows 0 i ∧ i < s.size ∧
    s.EndsNameless (s.behindModifiers i)

/-- The templates of the script do not stand too deep in one another, and its code does not end
where a function should be named. -/
def IsReadable [Limits] (t : Text) : Prop :=
  ¬ NestsTooDeep t ∧ ¬ EndsNameless t

/-- A script without an outline has a fault, or one of the two things that are told as none. -/
theorem outline_error [Limits] {e : OutlineError} (h : outline t = .error e) :
    e.IsFault ∨ NestsTooDeep t ∨ EndsNameless t := by
  unfold outline at h
  cases hread : Source.read t with
  | error fault =>
    rw [hread] at h
    cases h
    rcases Source.read_error hread with hcause | hdeep
    · exact Or.inl ⟨fault, rfl, hcause⟩
    · exact Or.inr (Or.inl hdeep)
  | ok s =>
    rw [hread] at h
    simp only at h
    cases hitems : s.itemsFrom 0 with
    | error e' =>
      rw [hitems] at h
      cases h
      rcases Source.itemsFrom_error_iff.mp hitems with ⟨i, hfollows, hi, hitem⟩
      rcases Source.item_error hitem with hfault | ⟨-, hnameless⟩
      · exact Or.inl hfault.isFault
      · exact Or.inr (Or.inr ⟨s, i, hread, hfollows, hi, hnameless⟩)
    | ok items =>
      rw [hitems] at h
      cases h

theorem outline_of_nestsTooDeep [Limits] (h : NestsTooDeep t) :
    ∃ fault, outline t = .error (.malformed fault) ∧ fault.cause = .tooDeep := by
  rcases Source.read_of_nestsTooDeep h with ⟨fault, hread, hcause⟩
  refine ⟨fault, ?_, hcause⟩
  unfold outline
  rw [hread]

theorem outline_of_endsNameless [Limits] (h : EndsNameless t) :
    outline t = .error .namelessFunction := by
  rcases h with ⟨s, i, hread, hfollows, hi, hnameless⟩
  have hitems : s.itemsFrom 0 = .error .namelessFunction :=
    Source.itemsFrom_error_iff.mpr ⟨i, hfollows, hi, Source.item_of_endsNameless hnameless⟩
  unfold outline
  rw [hread]
  simp only
  rw [hitems]
  rfl

/-- A script has an outline, or a fault is told of it, just if it is readable. -/
theorem isReadable_iff [Limits] : IsReadable t ↔ ∀ e, outline t = .error e → e.IsFault := by
  constructor
  · rintro ⟨hshallow, hnamed⟩ e he
    rcases outline_error he with hfault | hdeep | hnameless
    · exact hfault
    · exact (hshallow hdeep).elim
    · exact (hnamed hnameless).elim
  · intro h
    constructor
    · intro hdeep
      rcases outline_of_nestsTooDeep hdeep with ⟨fault, hfails, hcause⟩
      rcases h _ hfails with ⟨fault', heq, hne⟩
      cases heq
      exact hne hcause
    · intro hnameless
      rcases h _ (outline_of_endsNameless hnameless) with ⟨fault, heq, -⟩
      cases heq

end WasmPackage.Script
