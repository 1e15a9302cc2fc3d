import WasmPackage.Proofs.Script.Nesting

/-!
# Items tile the code

The items of an outline stand one behind another, and each code token stands in one of them, except
for the type of a function that has neither a body nor a semicolon behind it: the function ends with
its parameters, and the next item begins behind the type.
-/

namespace WasmPackage.Script

/-- Does the item reach over this token? -/
def Item.covers (it : Item) (x : Token) : Bool :=
  it.start ≤ x.start && x.stop ≤ it.stop

/-- The items stand one behind another, and each code token in exactly one of them. -/
structure Outline.IsTiled (o : Outline) : Prop where
  ordered : o.items.Pairwise (fun a b => a.stop ≤ b.start)
  covered : ∀ x ∈ o.source.tokens, x.kind ≠ .comment → o.items.countP (·.covers x) = 1

instance (o : Outline) : Decidable o.IsTiled :=
  decidable_of_iff (o.items.Pairwise (fun a b => a.stop ≤ b.start) ∧
      ∀ x ∈ o.source.tokens, x.kind ≠ .comment → o.items.countP (·.covers x) = 1)
    ⟨fun h => ⟨h.1, h.2⟩, fun h => ⟨h.1, h.2⟩⟩

namespace Source

variable {t : Text} {s : Source} {i j k last start keyword next : Nat} {it : Item}
  {items : List Item} {f : FunctionShape} {exported : ExportKind}

/-- Does the function end with its parameters, with a colon behind them? -/
def CutsType (s : Source) (f : FunctionShape) : Prop :=
  ∃ k < s.size, s.is ")" k = true ∧ s.stopAt k = f.stop ∧ s.is ":" (k + 1) = true

instance (s : Source) (f : FunctionShape) : Decidable (s.CutsType f) :=
  inferInstanceAs (Decidable (∃ k < s.size, s.is ")" k = true ∧ s.stopAt k = f.stop ∧
    s.is ":" (k + 1) = true))

instance (s : Source) (bodyClose : Nat) (m : Member) : Decidable (s.RunsOut bodyClose m) :=
  inferInstanceAs (Decidable (∃ k < s.size, s.stopAt k = m.nameStop ∧
    bodyClose < s.startAt (s.behindName k) ∧ s.is ":" (s.behindName k) = false))

/-! ## Single items -/

/-- What ends a function, a body or a semicolon, is no parenthesis. -/
theorem skip_of_isEnd [Limits] (hs : Source.read t = .ok s)
    (h : s.is "\x7b" j = true ∨ s.is ";" j = true) :
    ∃ last, s.skip j = last + 1 ∧ j ≤ last ∧ last < s.size ∧ s.is ")" last = false := by
  rcases h with hbody | hend
  · rcases closer?_of_is hs (v := "\x7d") (by decide) hbody with ⟨close, hclose, hbrace⟩
    have hlt := lt_of_closer? hs hclose
    refine ⟨close, ?_, by omega, hlt.2, is_eq_false hbrace (by decide)⟩
    simp only [skip, hclose, Option.elim_some]
    omega
  · have hnone : s.closer? j = none := by
      cases hclose : s.closer? j with
      | none => rfl
      | some close => cases isSome_lookup_of_closer? hs hclose hend
    exact ⟨j, by simp [skip, hnone], Nat.le_refl j, lt_size_of_is hend,
      is_eq_false hend (by decide)⟩

/-- The index behind the type of a function whose parameters close at an index. -/
def behindType (s : Source) (close : Nat) : Nat :=
  (s.typeNote s.size (close + 1)).2

/-- A function that is read has a name and parameters; it ends with its body, with a semicolon, or
with its parameters. -/
theorem functionDecl_eq_ok [Limits] (hs : Source.read t = .ok s)
    (h : s.functionDecl start keyword exported = .ok (f, next)) :
    ∃ name params close, keyword < name ∧ name < params ∧ s.closer? params = some close ∧
      s.is ")" close = true ∧ f.start = s.startAt start ∧ f.keywordStart = s.startAt keyword ∧
      f.nameStart = s.startAt name ∧ f.nameStop = s.stopAt name ∧
      f.body = (if s.is "\x7b" (s.behindType close) then
        some (s.startAt (s.behindType close),
          s.stopAt ((s.closer? (s.behindType close)).getD (s.behindType close)))
        else none) ∧
      (if s.is "\x7b" (s.behindType close) = true ∨ s.is ";" (s.behindType close) = true then
        next = s.skip (s.behindType close) ∧ f.stop = s.stopAt (next - 1)
      else next = s.behindType close ∧ f.stop = s.stopAt close) := by
  have hkeyword : keyword < if s.is "async" keyword then keyword + 2 else keyword + 1 := by
    split <;> omega
  unfold functionDecl at h
  simp only at h
  generalize (if s.is "async" keyword then keyword + 2 else keyword + 1) = behindKeyword
    at h hkeyword
  have hname : behindKeyword ≤ if s.is "*" behindKeyword then behindKeyword + 1
      else behindKeyword := by
    split <;> omega
  generalize (if s.is "*" behindKeyword then behindKeyword + 1 else behindKeyword) = name
    at h hname
  have hparams := s.le_behindTypeParameters (i := name + 1)
  generalize s.behindTypeParameters (name + 1) = i at h hparams
  cases hword : s.word? name with
  | none =>
    rw [hword] at h
    cases h
  | some text =>
    rw [hword] at h
    simp only [Option.isSome_ite, Bool.or_eq_true] at h
    split at h
    case isFalse => cases h
    case isTrue hcall =>
      rcases closer?_of_is hs (v := ")") (by decide) hcall with ⟨close, hclose, hbrace⟩
      have hlt := lt_of_closer? hs hclose
      have hskip : s.skip i = close + 1 := by
        simp only [skip, hclose, Option.elim_some]
        omega
      rw [hskip] at h
      simp only [Except.ok.injEq, Prod.mk.injEq] at h
      rcases h with ⟨rfl, hnext⟩
      refine ⟨name, i, close, by omega, by omega, hclose, hbrace, rfl, rfl, rfl, rfl, rfl, ?_⟩
      rw [← behindType] at hnext ⊢
      split
      · next hended =>
        rw [if_pos hended] at hnext
        exact ⟨hnext.symm, by rw [← hnext]⟩
      · next hended =>
        rw [if_neg hended] at hnext
        exact ⟨hnext.symm, rfl⟩

/-- What stands behind the type of a function. -/
theorem behindType_within {close : Nat} (hclose : close < s.size) :
    close + 1 ≤ s.behindType close ∧ s.behindType close ≤ s.size ∧
      (s.behindType close = close + 1 ↔ s.is ":" (close + 1) = false) := by
  rcases s.typeNote_cases (close + 1) s.size with
    ⟨hcolon, hnote⟩ | ⟨hcolon, hle, hstop, -⟩
  · rw [behindType, hnote]
    exact ⟨Nat.le_refl _, hclose, by simp [hcolon]⟩
  · have hsize := lt_size_of_is hcolon
    rw [behindType]
    simp only [hcolon, Bool.true_eq_false, iff_false]
    omega

/-- A function covers the tokens up to its last one.  That is the one before the next item, unless
the function cuts off its type. -/
theorem functionDecl_span [Limits] (hs : Source.read t = .ok s)
    (h : s.functionDecl start keyword exported = .ok (f, next)) :
    ∃ last, keyword < last ∧ last < next ∧ next ≤ s.size ∧ f.start = s.startAt start ∧
      f.stop = s.stopAt last ∧ (last + 1 = next ↔ ¬ s.CutsType f) := by
  have hplaced := (isPlaced_of_read hs).2
  rcases functionDecl_eq_ok hs h with ⟨name, params, close, hname, hparams, hclose, hbrace,
    hstart, -, -, -, -, hends⟩
  have hlt := lt_of_closer? hs hclose
  have hbehind := behindType_within hlt.2
  split at hends
  · next hended =>
    rcases hends with ⟨hnext, hstop⟩
    rcases skip_of_isEnd hs hended with ⟨last, hskip, hle, hsize, hparen⟩
    rw [hnext, hskip, Nat.add_sub_cancel] at hstop
    refine ⟨last, by omega, by omega, by omega, hstart, hstop, iff_of_true (by omega) ?_⟩
    rintro ⟨k, hk, hclose', hsame, -⟩
    rw [hstop] at hsame
    rw [hplaced.eq_of_stopAt_eq hk hsize hsame, hparen] at hclose'
    cases hclose'
  · rcases hends with ⟨hnext, hstop⟩
    refine ⟨close, by omega, by omega, by omega, hstart, hstop, ?_⟩
    rw [hnext, eq_comm, hbehind.2.2]
    constructor
    · rintro hcolon ⟨k, hk, -, hsame, hcolon'⟩
      rw [hstop] at hsame
      rw [hplaced.eq_of_stopAt_eq hk hlt.2 hsame, hcolon] at hcolon'
      cases hcolon'
    · intro hcut
      by_contra hcolon
      exact hcut ⟨close, hlt.2, hbrace, hstop.symm, by simpa using hcolon⟩

/-- An item covers the tokens from where it begins up to its last one. -/
theorem item_span [Limits] (hs : Source.read t = .ok s) (hi : i < s.size)
    (h : s.item i = .ok (it, next)) :
    ∃ last, i ≤ last ∧ last < next ∧ next ≤ s.size ∧ it.start = s.startAt i ∧
      it.stop = s.stopAt last ∧ (last + 1 = next ↔ ∀ f, it = .function f → ¬ s.CutsType f) := by
  have hbehind := s.le_behindModifiers (i := i)
  cases isItem_of_item h with
  | classDecl hclass =>
    rcases classDecl_eq_ok hs hclass with ⟨left, close, hleft, hclose, -, hnext, hc⟩
    have hlt := lt_of_closer? hs hclose
    rw [hc, hnext]
    exact ⟨close, by omega, by omega, by omega, rfl, rfl, iff_of_true rfl (by simp)⟩
  | function hfunction =>
    rcases functionDecl_span hs hfunction with
      ⟨last, hkeyword, hlast, hnext, hstart, hstop, hcut⟩
    refine ⟨last, by omega, hlast, hnext, hstart, hstop, hcut.trans ?_⟩
    simp
  | statement =>
    have hstop := statementStop_le hs (Nat.le_of_lt hi)
    have hlt := hstop.2.1 hi
    exact ⟨s.statementStop i - 1, by omega, by omega, hstop.1, rfl, rfl,
      iff_of_true (by omega) (by simp)⟩

/-! ## All items -/

/-- Items that begin behind a code token do not reach over it. -/
theorem countP_covers_eq_zero {x : Token} (hx : s.code[k]? = some x)
    (h : ∀ it ∈ items, s.startAt k < it.start) : items.countP (·.covers x) = 0 := by
  rw [List.countP_eq_zero]
  intro it hit
  have := h it hit
  simp only [Item.covers, Bool.and_eq_true, decide_eq_true_eq, ← startAt_eq hx]
  omega

/-- An item from one code token to another covers those between them. -/
theorem covers_iff (hplaced : s.IsPlaced) {x : Token} (hx : s.code[k]? = some x)
    (hstart : it.start = s.startAt i) (hstop : it.stop = s.stopAt last) (hik : i ≤ k) :
    it.covers x = true ↔ k ≤ last := by
  rw [Item.covers, Bool.and_eq_true, decide_eq_true_eq, decide_eq_true_eq, hstart, hstop,
    ← startAt_eq hx, ← stopAt_eq hx]
  constructor
  · rintro ⟨-, hle⟩
    by_contra hgt
    have := hplaced.stopAt_lt_stopAt (lt_size_of_getElem? hx) (Nat.lt_of_not_le hgt)
    omega
  · intro hle
    exact ⟨hplaced.startAt_mono hik, hplaced.stopAt_mono hle⟩

/-- The items from an index on stand behind it in order.  They reach over each code token there just
once, unless a function cuts off its type. -/
theorem itemsFrom_tiles [Limits] (hs : Source.read t = .ok s) (h : s.itemsFrom i = .ok items) :
    (∀ it ∈ items, s.startAt i ≤ it.start) ∧
      items.Pairwise (fun a b => a.stop ≤ b.start) ∧
      ((∀ k x, s.code[k]? = some x → i ≤ k → items.countP (·.covers x) = 1) ↔
        ∀ f, .function f ∈ items → ¬ s.CutsType f) := by
  have hplaced := (isPlaced_of_read hs).2
  induction hn : s.size - i using Nat.strong_induction_on generalizing i items with
  | _ n ih =>
  rcases Nat.lt_or_ge i s.size with hi | hi
  · rcases itemsFrom_eq_ok hi h with ⟨it, next, rest, hitem, hrest, rfl⟩
    rcases item_span hs hi hitem with ⟨last, hlast, hnext, hsize, hstart, hstop, hcut⟩
    have hmax : max (i + 1) next = next := by omega
    rw [hmax] at hrest
    rcases ih (s.size - next) (by omega) hrest rfl with ⟨hbehind, hordered, hcovered⟩
    have hrest' : ∀ it' ∈ rest, it.stop ≤ it'.start := by
      intro it' hit'
      have := hplaced.stopAt_le_startAt (i := last) (by omega) hnext
      have := hbehind it' hit'
      omega
    refine ⟨?_, List.pairwise_cons.mpr ⟨hrest', hordered⟩, ?_⟩
    · intro it' hit'
      rcases List.mem_cons.mp hit' with rfl | hit'
      · exact Nat.le_of_eq hstart.symm
      · have := hplaced.startAt_mono (i := i) (j := next) (by omega)
        have := hbehind it' hit'
        omega
    · have hnone (k : Nat) (x : Token) (hx : s.code[k]? = some x) (hkn : k < next) :
          rest.countP (·.covers x) = 0 := by
        apply countP_covers_eq_zero hx
        intro it' hit'
        have := hplaced.startAt_lt_startAt (lt_size_of_getElem? hx) hkn
        have := hbehind it' hit'
        omega
      have hfunctions : (∀ f, .function f ∈ it :: rest → ¬ s.CutsType f) ↔
          (∀ f, it = .function f → ¬ s.CutsType f) ∧ ∀ f, .function f ∈ rest → ¬ s.CutsType f := by
        simp only [List.mem_cons, or_imp, forall_and, eq_comm]
      rw [hfunctions, ← hcut, ← hcovered]
      constructor
      · intro hall
        refine ⟨?_, ?_⟩
        · -- a token between the last one of the item and the next item would be in none
          by_contra hgap
          have hx : s.code[last + 1]? = some _ :=
            Array.getElem?_eq_getElem (show last + 1 < s.code.size by unfold size at hsize; omega)
          have hone := hall (last + 1) _ hx (by omega)
          have hnot := mt (covers_iff hplaced hx hstart hstop (by omega)).mp (by omega)
          rw [List.countP_cons, if_neg hnot, hnone (last + 1) _ hx (by omega)] at hone
          cases hone
        · intro k x hx hnk
          have hone := hall k x hx (by omega)
          have hnot := mt (covers_iff hplaced hx hstart hstop (by omega)).mp (by omega)
          rwa [List.countP_cons, if_neg hnot] at hone
      · rintro ⟨hlast', hall⟩ k x hx hik
        have hcovers := covers_iff hplaced hx hstart hstop hik
        rcases Nat.lt_or_ge last k with hlt | hle
        · rw [List.countP_cons, if_neg (mt hcovers.mp (by omega))]
          exact hall k x hx (by omega)
        · rw [List.countP_cons, if_pos (hcovers.mpr hle), hnone k x hx (by omega)]
  · rw [itemsFrom, if_neg (by omega)] at h
    cases h
    refine ⟨by simp, List.Pairwise.nil, iff_of_true ?_ (by simp)⟩
    intro k x hx hik
    have := lt_size_of_getElem? hx
    omega

end Source

/-! ## Outlines -/

variable {t : Text} {o : Outline}

/-- The code of a script is its tokens without the comments. -/
theorem map_fst_documented (pending : Option DocComment) (tokens : List Token) :
    (documented pending tokens).map Prod.fst = tokens.filter (fun x => x.kind ≠ .comment) := by
  fun_induction documented pending tokens with
  | case1 => rfl
  | case2 pending x r hcomment hdoc ih => simpa [hcomment] using ih
  | case3 pending x r hcomment hdoc ih => simpa [hcomment] using ih
  | case4 pending x r hcomment ih => simpa [hcomment] using ih

theorem mem_functions_iff {f : FunctionShape} : f ∈ o.functions ↔ .function f ∈ o.items := by
  simp only [Outline.functions, List.mem_filterMap]
  constructor
  · rintro ⟨it, hit, hf⟩
    cases it <;> cases hf
    exact hit
  · intro hit
    exact ⟨_, hit, rfl⟩

theorem mem_classes_iff {c : ClassShape} : c ∈ o.classes ↔ .classDecl c ∈ o.items := by
  simp only [Outline.classes, List.mem_filterMap]
  constructor
  · rintro ⟨it, hit, hc⟩
    cases it <;> cases hc
    exact hit
  · intro hit
    exact ⟨_, hit, rfl⟩

/-- The items of a script tile its code just if no function cuts off its type. -/
theorem isTiled_outline_iff [Limits] (h : outline t = .ok o) :
    o.IsTiled ↔ ∀ f ∈ o.functions, ¬ o.source.CutsType f := by
  rcases outline_eq_ok_iff.mp h with ⟨hs, hitems⟩
  rcases Source.itemsFrom_tiles hs hitems with ⟨-, hordered, hcovered⟩
  have hcode := (Source.read_eq_ok hs).2.2.1
  rw [map_fst_documented] at hcode
  have htokens : (∀ x ∈ o.source.tokens, x.kind ≠ .comment → o.items.countP (·.covers x) = 1) ↔
      ∀ k x, o.source.code[k]? = some x → 0 ≤ k → o.items.countP (·.covers x) = 1 := by
    constructor
    · intro hall k x hx _
      have hmem : x ∈ o.source.code.toList := by
        rw [Array.mem_toList_iff]
        exact Array.mem_of_getElem? hx
      rw [hcode, List.mem_filter, decide_eq_true_eq] at hmem
      exact hall x hmem.1 hmem.2
    · intro hall x hx hkind
      have hmem : x ∈ o.source.code.toList := by
        rw [hcode, List.mem_filter, decide_eq_true_eq]
        exact ⟨hx, hkind⟩
      rcases List.getElem?_of_mem hmem with ⟨k, hk⟩
      exact hall k x (by rwa [Array.getElem?_toList] at hk) (Nat.zero_le k)
  simp only [mem_functions_iff]
  rw [← hcovered, ← htokens]
  exact ⟨fun htiled => htiled.covered, fun hall => ⟨hordered, hall⟩⟩

/-- The members of each class are nested in it just if no member has type parameters that run out of
its class. -/
theorem isNested_classes_iff [Limits] (h : outline t = .ok o) :
    (∀ c ∈ o.classes, c.IsNested) ↔
      ∀ c ∈ o.classes, ∀ m ∈ c.members, ¬ o.source.RunsOut c.bodyClose m := by
  rcases outline_eq_ok_iff.mp h with ⟨hs, hitems⟩
  refine forall₂_congr ?_
  intro c hc
  rcases Source.exists_item_of_mem hitems (mem_classes_iff.mp hc) with ⟨i, next, hitem, -⟩
  exact Source.isNested_classDecl_iff hs (Source.classDecl_of_item hitem)

/-- The outline of a script is a nested tiling of its code just if no function cuts off its type,
and no member has type parameters that run out of its class. -/
theorem outline_nests_iff [Limits] (h : outline t = .ok o) :
    (o.IsTiled ∧ ∀ c ∈ o.classes, c.IsNested) ↔
      (∀ f ∈ o.functions, ¬ o.source.CutsType f) ∧
        ∀ c ∈ o.classes, ∀ m ∈ c.members, ¬ o.source.RunsOut c.bodyClose m :=
  and_congr (isTiled_outline_iff h) (isNested_classes_iff h)

/-- A class with type parameters, and a function with a type and a body. -/
theorem outline_nests_iff_generic :
    ∃ o, outline "class A\x7bm<T>(x): T\x7d function f(): T \x7b\x7d".toList = .ok o ∧
      o.IsTiled ∧ ∀ c ∈ o.classes, c.IsNested := by
  have hclean : (outline "class A\x7bm<T>(x): T\x7d function f(): T \x7b\x7d".toList).toOption.any
      (fun o => (∀ f ∈ o.functions, ¬ o.source.CutsType f) ∧
        ∀ c ∈ o.classes, ∀ m ∈ c.members, ¬ o.source.RunsOut c.bodyClose m) = true := by
    decide +kernel
  cases h : outline "class A\x7bm<T>(x): T\x7d function f(): T \x7b\x7d".toList with
  | error e =>
    rw [h] at hclean
    cases hclean
  | ok o =>
    rw [h] at hclean
    exact ⟨o, rfl, (outline_nests_iff h).mpr (by simpa [Except.toOption] using hclean)⟩

/-- The type of a function without a body stands in no item, and type parameters without an end take
their member out of its class. -/
theorem outline_not_nested :
    (outline "function f(): T".toList).toOption.any (fun o => ¬ o.IsTiled) = true ∧
      (outline "class A \x7b m< \x7d".toList).toOption.any
        (fun o => ¬ ∀ c ∈ o.classes, ∀ m ∈ c.members, m.stop ≤ c.bodyClose) = true := by
  decide +kernel

end WasmPackage.Script
