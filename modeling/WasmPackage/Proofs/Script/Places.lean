import Mathlib.Data.List.Basic
import WasmPackage.Proofs.Script.Lexemes
import WasmPackage.Script.Reader

/-!
# Where tokens and statements stand

The tokens of a script stand in its text, one behind another.  So do the parts of its outline that
are given by tokens: a statement covers the text from its first token to the end of its last.
-/

namespace WasmPackage.Script

variable {t : Text} {tokens : List Token} {start stop pos i j : Nat}

/-! ## Tokens -/

/-- The tokens are not empty and stand between two offsets, one behind another. -/
structure StandIn (start stop : Nat) (tokens : List Token) : Prop where
  within : ∀ t ∈ tokens, start ≤ t.start ∧ t.start < t.stop ∧ t.stop ≤ stop
  ordered : tokens.Pairwise (fun a b => a.stop ≤ b.start)

theorem StandIn.nil : StandIn start stop [] :=
  ⟨by simp, List.Pairwise.nil⟩

theorem StandIn.sublist {tokens' : List Token} (h : StandIn start stop tokens)
    (hsub : tokens'.Sublist tokens) : StandIn start stop tokens' :=
  ⟨fun t ht => h.within t (hsub.subset ht), h.ordered.sublist hsub⟩

theorem StandIn.mono {start' stop' : Nat} (h : StandIn start stop tokens) (hstart : start' ≤ start)
    (hstop : stop ≤ stop') : StandIn start' stop' tokens := by
  refine ⟨?_, h.ordered⟩
  intro t ht
  have := h.within t ht
  omega

/-- A token goes before those that stand behind it. -/
theorem StandIn.cons {first : Token} (hstart : start ≤ first.start)
    (hfirst : first.start < first.stop) (hstop : first.stop ≤ stop)
    (h : StandIn first.stop stop tokens) : StandIn start stop (first :: tokens) := by
  constructor
  · intro t ht
    rcases List.mem_cons.mp ht with rfl | ht
    · exact ⟨hstart, hfirst, hstop⟩
    · have := h.within t ht
      omega
  · rw [List.pairwise_cons]
    exact ⟨fun t ht => (h.within t ht).1, h.ordered⟩

/-- Tokens stand in the text that they were read from. -/
theorem standIn_tokensFrom [Limits] {previous : Option Token}
    (h : tokensFrom pos previous t = .ok tokens) : StandIn pos (pos + t.length) tokens := by
  rw [tokensFrom_eq_ok_iff] at h
  induction h with
  | nil => exact .nil
  | blank _ _ ih =>
    apply ih.mono
    · omega
    · simp only [List.length_cons]
      omega
  | @token pos n previous c r kind rest _ hlexes _ ih =>
    have hn := hlexes.length_le
    have hstop := hlexes.stop_tokenAt pos
    apply StandIn.cons
    · rfl
    · rw [hstop, start_tokenAt]
      omega
    · rw [hstop, List.length_cons]
      omega
    · rw [hstop]
      apply ih.mono
      · rfl
      · rw [List.length_drop, List.length_cons]
        omega

/-- A token is what its text has at its place. -/
theorem slice_of_tokensFrom [Limits] {previous : Option Token} {whole : Text}
    (h : tokensFrom pos previous t = .ok tokens) (hwhole : whole.drop pos = t) {x : Token}
    (hx : x ∈ tokens) : whole.slice x.start x.stop = x.text.toList := by
  rw [tokensFrom_eq_ok_iff] at h
  induction h with
  | nil => cases hx
  | blank _ _ ih =>
    refine ih ?_ hx
    rw [← List.drop_drop, hwhole]
    rfl
  | @token pos n previous c r kind rest _ hlexes _ ih =>
    rcases List.mem_cons.mp hx with rfl | hx
    · have hlength : pos + 1 + n - pos = n + 1 := by omega
      rw [Text.slice, hlexes.stop_tokenAt, start_tokenAt, hlength, hwhole, List.take_succ_cons,
        toList_text_tokenAt]
    · refine ih ?_ hx
      rw [Nat.add_assoc, ← List.drop_drop, hwhole, Nat.add_comm 1 n, List.drop_succ_cons]

theorem sublist_documented (pending : Option DocComment) (tokens : List Token) :
    ((documented pending tokens).map Prod.fst).Sublist tokens := by
  fun_induction documented pending tokens with
  | case1 => exact List.Sublist.refl _
  | case2 pending t r hcomment hdoc ih => exact ih.cons t
  | case3 pending t r hcomment hdoc ih => exact ih.cons t
  | case4 pending t r hcomment ih => exact ih.cons_cons t

namespace Source

variable {s : Source}

/-- The code tokens of a script stand in its text. -/
def IsPlaced (s : Source) : Prop :=
  StandIn 0 s.text.length s.code.toList

/-- What is read from a text is of that text, and placed in it. -/
theorem isPlaced_of_read [Limits] (h : Source.read t = .ok s) : s.text = t ∧ s.IsPlaced := by
  unfold Source.read tokenize at h
  cases htokens : tokensFrom 0 none t with
  | error e =>
    rw [htokens] at h
    cases h
  | ok tokens =>
    rw [htokens] at h
    simp only [Except.mapError, bind, Except.bind] at h
    cases hbrackets : matchBrackets ((documented none tokens).map (·.1)) with
    | error e =>
      rw [hbrackets] at h
      cases h
    | ok brackets =>
      rw [hbrackets] at h
      cases h
      refine ⟨rfl, ?_⟩
      have hstand := standIn_tokensFrom htokens
      rw [Nat.zero_add] at hstand
      exact hstand.sublist (sublist_documented none tokens)

section

variable (h : s.IsPlaced)

include h

theorem IsPlaced.stopAt_le : s.stopAt j ≤ s.text.length := by
  unfold stopAt
  cases htoken : s.code[j]? with
  | none => exact Nat.le_refl _
  | some t =>
    have hmem : t ∈ s.code.toList := by
      rw [Array.mem_toList_iff]
      exact Array.mem_of_getElem? htoken
    exact (h.within t hmem).2.2

/-- What begins with a token of the code ends behind where it begins. -/
theorem IsPlaced.startAt_lt_stopAt (hi : i < s.size) (hij : i ≤ j) : s.startAt i < s.stopAt j := by
  have hfirst : s.code[i]? = some s.code[i] := Array.getElem?_eq_getElem hi
  have hwithin := h.within s.code[i] (Array.getElem_mem_toList hi)
  unfold startAt stopAt
  rw [hfirst]
  cases hlast : s.code[j]? with
  | none =>
    simp only [Option.map_some, Option.getD_some, Option.map_none, Option.getD_none]
    omega
  | some t =>
    simp only [Option.map_some, Option.getD_some]
    rcases Array.getElem?_eq_some_iff.mp hlast with ⟨hj, rfl⟩
    have hwithin' := h.within s.code[j] (Array.getElem_mem_toList hj)
    rcases Nat.eq_or_lt_of_le hij with rfl | hlt
    · exact hwithin.2.1
    · have hordered : s.code[i].stop ≤ s.code[j].start :=
        List.pairwise_iff_getElem.mp h.ordered i j hi hj hlt
      omega

theorem IsPlaced.startAt_le : s.startAt i ≤ s.text.length := by
  rcases Nat.lt_or_ge i s.size with hi | hi
  · exact Nat.le_trans (Nat.le_of_lt (h.startAt_lt_stopAt hi (Nat.le_refl i))) h.stopAt_le
  · have hnone : s.code[i]? = none := Array.getElem?_eq_none hi
    simp [startAt, hnone]

end

theorem lt_of_words_ne_nil (h : s.words i j ≠ []) : i < j ∧ i < s.size := by
  by_contra hnot
  apply h
  have hempty : s.code.extract i j = #[] := by
    rw [Array.extract_eq_empty_iff]
    unfold size at hnot
    omega
  rw [words, hempty]
  rfl

/-! ## Items -/

/-- The item that begins at index `i`, and the index behind it: a class, a function or a
statement. -/
inductive IsItem (s : Source) (i : Nat) : Item → Nat → Prop
  | classDecl {c : ClassShape} {next : Nat} :
    s.classDecl i (s.behindModifiers i) = .ok (c, next) → IsItem s i (.classDecl c) next
  | function {f : FunctionShape} {next : Nat} :
    s.functionDecl i (s.behindModifiers i) (.ofWords (s.words i (s.behindModifiers i))) =
      .ok (f, next) → IsItem s i (.function f) next
  | statement :
    IsItem s i (.statement ⟨s.startAt i, s.stopAt (s.statementStop i - 1),
      s.words i (s.statementStop i)⟩) (s.statementStop i)

theorem isItem_of_item {it : Item} {next : Nat} (h : s.item i = .ok (it, next)) :
    s.IsItem i it next := by
  unfold item at h
  simp only at h
  split at h
  · cases hclass : s.classDecl i (s.behindModifiers i) with
    | error e =>
      rw [hclass] at h
      cases h
    | ok p =>
      rw [hclass] at h
      cases h
      exact .classDecl hclass
  · split at h
    · cases hfunction : s.functionDecl i (s.behindModifiers i)
        (.ofWords (s.words i (s.behindModifiers i))) with
      | error e =>
        rw [hfunction] at h
        cases h
      | ok p =>
        rw [hfunction] at h
        cases h
        exact .function hfunction
    · cases h
      exact .statement

theorem classDecl_of_item {c : ClassShape} {next : Nat}
    (h : s.item i = .ok (.classDecl c, next)) :
    s.classDecl i (s.behindModifiers i) = .ok (c, next) := by
  cases isItem_of_item h with
  | classDecl hclass => exact hclass

theorem functionDecl_of_item {f : FunctionShape} {next : Nat}
    (h : s.item i = .ok (.function f, next)) :
    s.functionDecl i (s.behindModifiers i) (.ofWords (s.words i (s.behindModifiers i))) =
      .ok (f, next) := by
  cases isItem_of_item h with
  | function hfunction => exact hfunction

/-- A statement covers the tokens from where it begins up to the index behind it. -/
theorem eq_of_item_statement {st : Statement} {next : Nat}
    (h : s.item i = .ok (.statement st, next)) :
    st = ⟨s.startAt i, s.stopAt (next - 1), s.words i next⟩ := by
  cases isItem_of_item h with
  | statement => rfl

/-- The first of the items, and those behind it. -/
theorem itemsFrom_eq_ok {items : List Item} (hi : i < s.size) (h : s.itemsFrom i = .ok items) :
    ∃ it next rest, s.item i = .ok (it, next) ∧ s.itemsFrom (max (i + 1) next) = .ok rest ∧
      items = it :: rest := by
  rw [itemsFrom, if_pos hi] at h
  cases hitem : s.item i with
  | error e =>
    rw [hitem] at h
    cases h
  | ok p =>
    rcases p with ⟨it, next⟩
    rw [hitem] at h
    cases hrest : s.itemsFrom (max (i + 1) next) with
    | error e =>
      simp only [hrest] at h
      cases h
    | ok rest =>
      simp only [hrest] at h
      cases h
      exact ⟨it, next, rest, rfl, hrest, rfl⟩

theorem exists_item_of_mem {items : List Item} {it : Item} (h : s.itemsFrom i = .ok items)
    (hit : it ∈ items) : ∃ j next, s.item j = .ok (it, next) ∧ j < s.size := by
  induction hn : s.size - i using Nat.strong_induction_on generalizing i items with
  | _ n ih =>
  rcases Nat.lt_or_ge i s.size with hi | hi
  · rcases itemsFrom_eq_ok hi h with ⟨first, next, rest, hitem, hrest, rfl⟩
    rcases List.mem_cons.mp hit with rfl | hit
    · exact ⟨i, next, hitem, hi⟩
    · exact ih _ (by omega) hrest hit rfl
  · rw [itemsFrom, if_neg (by omega)] at h
    cases h
    cases hit

end Source

/-! ## Outlines -/

variable {o : Outline}

theorem exists_ok_of_any {ε α : Type} {x : Except ε α} {p : α → Bool}
    (h : x.toOption.any p = true) : ∃ a, x = .ok a ∧ p a = true := by
  cases x with
  | error e => cases h
  | ok a => exact ⟨a, rfl, h⟩

theorem outline_eq_ok_iff [Limits] :
    outline t = .ok o ↔ Source.read t = .ok o.source ∧ o.source.itemsFrom 0 = .ok o.items := by
  rcases o with ⟨source, items⟩
  unfold outline
  cases Source.read t with
  | error fault => simp
  | ok s =>
    cases hitems : s.itemsFrom 0 with
    | error e =>
      simp only [hitems, Except.map, reduceCtorEq, Except.ok.injEq, false_iff, not_and]
      rintro rfl
      simp [hitems]
    | ok found =>
      simp only [hitems, Except.map, Except.ok.injEq, Outline.mk.injEq]
      constructor
      · rintro ⟨rfl, rfl⟩
        exact ⟨rfl, hitems⟩
      · rintro ⟨rfl, hfound⟩
        rw [hitems, Except.ok.injEq] at hfound
        exact ⟨rfl, hfound⟩

/-- An outline is of the text that it was read from. -/
theorem isPlaced_of_outline [Limits] (h : outline t = .ok o) : o.text = t ∧ o.source.IsPlaced :=
  Source.isPlaced_of_read (outline_eq_ok_iff.mp h).1

/-- A statement with tokens covers a part of the text. -/
theorem place_of_statement [Limits] (h : outline t = .ok o) {st : Statement}
    (hst : st ∈ o.statements)
    (hwords : st.words ≠ []) : st.start < st.stop ∧ st.stop ≤ t.length := by
  rcases isPlaced_of_outline h with ⟨rfl, hplaced⟩
  rcases List.mem_filterMap.mp hst with ⟨it, hit, hstatement⟩
  have hit' : it = .statement st := by
    cases it <;> simp_all [Item.statement?]
  subst hit'
  rcases Source.exists_item_of_mem (outline_eq_ok_iff.mp h).2 hit with ⟨i, next, hitem, -⟩
  cases Source.eq_of_item_statement hitem
  rcases Source.lt_of_words_ne_nil hwords with ⟨hlt, hsize⟩
  exact ⟨hplaced.startAt_lt_stopAt hsize (by omega), hplaced.stopAt_le⟩

end WasmPackage.Script
