import WasmPackage.Proofs.Script.Tiling
import WasmPackage.Proofs.Text.Lines

/-!
# Parts of items

An item of an outline was read at some index of the code.  The parts of a class and of a function
stand in it, one behind another, and code tokens do not begin with blanks.
-/

namespace WasmPackage.Script

/-- The words of a function, its name and its body stand in it in order; it ends with its body. -/
structure FunctionShape.IsNested (f : FunctionShape) : Prop where
  keyword : f.start ≤ f.keywordStart ∧ f.keywordStart ≤ f.nameStart
  name : f.nameStart < f.nameStop ∧ f.nameStop ≤ f.stop
  body : ∀ b ∈ f.body, f.nameStop ≤ b.1 ∧ b.1 < b.2 ∧ b.2 = f.stop

theorem FunctionShape.IsNested.start_lt_stop {f : FunctionShape} (h : f.IsNested) :
    f.start < f.stop := by
  have hkeyword := h.keyword
  have hname := h.name
  omega

namespace Source

variable {t : Text} {s : Source} {i j start keyword next : Nat} {it : Item} {items : List Item}
  {f : FunctionShape} {c : ClassShape} {exported : ExportKind} {x : Token}

/-! ## Tokens in the text -/

/-- A code token is what the text has at its place. -/
theorem slice_of_read [Limits] (hs : Source.read t = .ok s) (hx : s.code[i]? = some x) :
    t.slice x.start x.stop = x.text.toList := by
  rcases read_eq_ok hs with ⟨-, htokens, hcode, -, -⟩
  refine slice_of_tokensFrom (tokensFrom_of_tokenize htokens) rfl ?_
  apply (sublist_documented none s.tokens).subset
  rw [← hcode, Array.mem_toList_iff]
  exact Array.mem_of_getElem? hx

/-- A code token does not begin with a blank. -/
theorem isInkAt_startAt [Limits] (hs : Source.read t = .ok s) (hi : i < s.size) :
    t.IsInkAt (s.startAt i) := by
  obtain ⟨x, hx⟩ : ∃ x, s.code[i]? = some x := ⟨_, Array.getElem?_eq_getElem hi⟩
  have hslice := slice_of_read hs hx
  rcases isLexeme_of_read hs hx with ⟨flag, c, r, htext, hblank, -⟩
  have hlt := (isPlaced_of_read hs).2.startAt_lt_stopAt hi (Nat.le_refl i)
  rw [startAt_eq hx, stopAt_eq hx] at hlt
  refine ⟨c, ?_, hblank⟩
  rw [startAt_eq hx, ← Nat.add_zero x.start, ← Text.getElem?_slice hlt, hslice, htext]
  rfl

/-- A brace does not end with a blank. -/
theorem isInkAt_stopAt [Limits] (hs : Source.read t = .ok s) (hbrace : s.is "\x7d" i = true) :
    t.IsInkAt (s.stopAt i - 1) := by
  rcases kind_of_is hs (by decide) hbrace with ⟨x, hx, -, htext⟩
  have hstop : s.stopAt i - 1 = s.startAt i := by
    rw [stopAt_eq hx, startAt_eq hx, Token.stop, htext]
    rfl
  rw [hstop]
  exact isInkAt_startAt hs (lt_size_of_getElem? hx)

/-! ## Classes and functions -/

/-- A class is read with its own words, and closes with a brace. -/
theorem classDecl_parts [Limits] (hs : Source.read t = .ok s) (hstart : start ≤ keyword)
    (h : s.classDecl start keyword = .ok (c, next)) :
    c.start < c.bodyOpen ∧ c.bodyClose < c.stop ∧ t.IsInkAt (c.stop - 1) := by
  have hplaced := (isPlaced_of_read hs).2
  rcases classDecl_eq_ok hs h with ⟨left, close, hleft, hclose, hbrace, -, rfl⟩
  have hlt := lt_of_closer? hs hclose
  exact ⟨hplaced.startAt_lt_startAt (by omega) (by omega),
    hplaced.startAt_lt_stopAt hlt.2 (Nat.le_refl _), isInkAt_stopAt hs hbrace⟩

/-- The parts of a function stand in it in order, and a body closes with a brace. -/
theorem functionDecl_parts [Limits] (hs : Source.read t = .ok s) (hstart : start ≤ keyword)
    (h : s.functionDecl start keyword exported = .ok (f, next)) :
    f.IsNested ∧ (f.body.isSome = true → t.IsInkAt (f.stop - 1)) := by
  have hplaced := (isPlaced_of_read hs).2
  rcases functionDecl_eq_ok hs h with ⟨name, params, close, hname, hparams, hclose, -, hfirst,
    hwords, hnameStart, hnameStop, hbody, hends⟩
  have hlt := lt_of_closer? hs hclose
  have hbehind := behindType_within hlt.2
  generalize s.behindType close = j at hbody hends hbehind
  have hkeyword' : f.start ≤ f.keywordStart ∧ f.keywordStart ≤ f.nameStart := by
    rw [hfirst, hwords, hnameStart]
    exact ⟨hplaced.startAt_mono hstart, hplaced.startAt_mono (Nat.le_of_lt hname)⟩
  have hname' : f.nameStart < f.nameStop := by
    rw [hnameStart, hnameStop]
    exact hplaced.startAt_lt_stopAt (by omega) (Nat.le_refl name)
  cases hopens : s.is "\x7b" j with
  | true =>
    rcases closer?_of_is hs (v := "\x7d") (by decide) hopens with ⟨last, hlast, hbrace⟩
    have hlt' := lt_of_closer? hs hlast
    have hskip : s.skip j = last + 1 := by
      simp only [skip, hlast, Option.elim_some]
      omega
    rw [if_pos (.inl hopens)] at hends
    have hstop : f.stop = s.stopAt last := by rw [hends.2, hends.1, hskip, Nat.add_sub_cancel]
    simp only [hopens, if_true, hlast, Option.getD_some] at hbody
    refine ⟨⟨hkeyword', ⟨hname', ?_⟩, ?_⟩, ?_⟩
    · rw [hnameStop, hstop]
      exact hplaced.stopAt_mono (by omega)
    · rintro b hb
      rw [hbody, Option.mem_some_iff] at hb
      subst hb
      rw [hnameStop, hstop]
      exact ⟨hplaced.stopAt_le_startAt (by omega) (by omega),
        hplaced.startAt_lt_stopAt (by omega) (by omega), rfl⟩
    · intro _
      rw [hstop]
      exact isInkAt_stopAt hs hbrace
  | false =>
    simp only [hopens, Bool.false_eq_true, if_false] at hbody
    refine ⟨⟨hkeyword', ⟨hname', ?_⟩, by simp [hbody]⟩, by simp [hbody]⟩
    rw [hnameStop]
    split at hends
    · have hnext := s.lt_skip j
      rw [hends.2]
      exact hplaced.stopAt_mono (by omega)
    · rw [hends.2]
      exact hplaced.stopAt_mono (by omega)

/-- A body has two braces. -/
theorem body_of_classDecl [Limits] (hs : Source.read t = .ok s)
    (h : s.classDecl start keyword = .ok (c, next)) :
    ∀ m ∈ c.members, ∀ b ∈ m.body, b.1 + 1 < b.2 := by
  have hplaced := (isPlaced_of_read hs).2
  obtain ⟨left, close, -, hclose, -, -, rfl⟩ := classDecl_eq_ok hs h
  intro m hm b hb
  obtain ⟨begin', modifiers, first, name, last, -, -, -, -, rfl⟩ :=
    mem_membersFrom hs hclose (Nat.lt_succ_self left) hm
  rw [memberAt_body] at hb
  split at hb
  · next hopens =>
    obtain ⟨k, hk, -⟩ := closer?_of_is hs (v := "\x7d") (by decide) hopens
    have hlt := lt_of_closer? hs hk
    rw [hk, Option.getD_some, Option.mem_some_iff] at hb
    subst hb
    have hfirst := hplaced.startAt_lt_startAt (i := s.bodyAt close last) (by omega) hlt.1
    have hlast := hplaced.startAt_lt_stopAt hlt.2 (Nat.le_refl k)
    simp only
    omega
  · cases hb

end Source

/-! ## Outlines -/

variable {t : Text} {o : Outline} {it : Item} {c : ClassShape} {f : FunctionShape}

/-- The items of a script stand one behind another. -/
theorem ordered_items [Limits] (h : outline t = .ok o) :
    o.items.Pairwise (fun a b => a.stop ≤ b.start) := by
  obtain ⟨hs, hitems⟩ := outline_eq_ok_iff.mp h
  exact (Source.itemsFrom_tiles hs hitems).2.1

theorem ordered_classes [Limits] (h : outline t = .ok o) :
    o.classes.Pairwise (fun a b => a.stop ≤ b.start) := by
  rw [Outline.classes, List.pairwise_filterMap]
  refine (ordered_items h).imp ?_
  intro a b hab k hk k' hk'
  cases a <;> cases hk
  cases b <;> cases hk'
  exact hab

/-- An item begins with a character that is no blank, and ends in the text. -/
theorem place_of_item [Limits] (h : outline t = .ok o) (hit : it ∈ o.items) :
    t.IsInkAt it.start ∧ it.stop ≤ t.length := by
  obtain ⟨hs, hitems⟩ := outline_eq_ok_iff.mp h
  obtain ⟨htext, hplaced⟩ := Source.isPlaced_of_read hs
  obtain ⟨i, next, hitem, hi⟩ := Source.exists_item_of_mem hitems hit
  obtain ⟨last, -, -, -, hstart, hstop, -⟩ := Source.item_span hs hi hitem
  constructor
  · rw [hstart]
    exact Source.isInkAt_startAt hs hi
  · rw [hstop]
    exact htext ▸ hplaced.stopAt_le

/-- The braces of a class stand in it, and it ends with the closing one. -/
theorem parts_of_class [Limits] (h : outline t = .ok o) (hc : c ∈ o.classes) :
    c.start < c.bodyOpen ∧ c.bodyClose < c.stop ∧ t.IsInkAt (c.stop - 1) ∧
      ∀ m ∈ c.members, ∀ b ∈ m.body, b.1 + 1 < b.2 := by
  obtain ⟨hs, hitems⟩ := outline_eq_ok_iff.mp h
  obtain ⟨i, next, hitem, -⟩ := Source.exists_item_of_mem hitems (mem_classes_iff.mp hc)
  have hclass := Source.classDecl_of_item hitem
  obtain ⟨hopen, hclose, hink⟩ := Source.classDecl_parts hs Source.le_behindModifiers hclass
  exact ⟨hopen, hclose, hink, Source.body_of_classDecl hs hclass⟩

/-- The parts of a function stand in it, and it ends with its body if it has one. -/
theorem parts_of_function [Limits] (h : outline t = .ok o) (hf : f ∈ o.functions) :
    f.IsNested ∧ (f.body.isSome = true → t.IsInkAt (f.stop - 1)) := by
  obtain ⟨hs, hitems⟩ := outline_eq_ok_iff.mp h
  obtain ⟨i, next, hitem, -⟩ := Source.exists_item_of_mem hitems (mem_functions_iff.mp hf)
  exact Source.functionDecl_parts hs Source.le_behindModifiers (Source.functionDecl_of_item hitem)

/-- A function that is looked up stands in the text, with its parts in it. -/
theorem parts_of_function? [Limits] {name : String} (h : outline t = .ok o)
    (hf : o.function? name = some f) :
    f ∈ o.functions ∧ f.IsNested ∧ f.stop ≤ t.length := by
  have hmem : f ∈ o.functions := List.mem_of_find?_eq_some hf
  exact ⟨hmem, (parts_of_function h hmem).1, (place_of_item h (mem_functions_iff.mp hmem)).2⟩

end WasmPackage.Script
