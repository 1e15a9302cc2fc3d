import WasmPackage.Proofs.Script.Layout
import WasmPackage.Proofs.Script.Places

/-!
# Brackets of scripts

The brackets of a script are matched with a stack.  The pairs stand in one another or beside one
another, every opening bracket has its partner, and that is the bracket which closes it.
-/

namespace WasmPackage.Script

variable {code tokens : List Token} {i j k m : Nat} {opened : List (Nat × Token)}
  {pairs : List (Nat × Nat)} {t : Text} {s : Source} {flag : Bool} {x : Token} {w v : String}

/-! ## Matching -/

/-- What the pairs of the brackets from index `i` on are, behind the open brackets `opened`. -/
structure Pairing (code : List Token) (i : Nat) (opened : List (Nat × Token))
    (pairs : List (Nat × Nat)) : Prop where
  bounds : ∀ p ∈ pairs, (p.1 ∈ opened.map Prod.fst ∨ i ≤ p.1) ∧ p.1 < p.2 ∧ i ≤ p.2
  nested : ∀ p ∈ pairs, ∀ q ∈ pairs, p.1 < q.1 → q.1 < p.2 → q.2 < p.2
  closed : ∀ p ∈ pairs, ∃ x y, code[p.1]? = some x ∧ code[p.2]? = some y ∧
    x.closer? = some y.text ∧ y.kind = .punctuation
  opened_mem : ∀ o ∈ opened, ∃ j, (o.1, j) ∈ pairs
  complete : ∀ k x, i ≤ k → code[k]? = some x → x.closer?.isSome = true → ∃ j, (k, j) ∈ pairs

/-- Passing over a token that is no opening bracket changes no pair. -/
theorem Pairing.of_succ (h : Pairing code (i + 1) opened pairs)
    (hfirst : ∀ x, code[i]? = some x → x.closer?.isSome = false) : Pairing code i opened pairs where
  bounds p hp := by
    rcases h.bounds p hp with ⟨hfrom, hlt, hle⟩
    exact ⟨hfrom.imp_right Nat.le_of_succ_le, hlt, Nat.le_of_succ_le hle⟩
  nested := h.nested
  closed := h.closed
  opened_mem := h.opened_mem
  complete k x hk hx hopens := by
    rcases Nat.eq_or_lt_of_le hk with rfl | hlt
    · rw [hfirst x hx] at hopens
      cases hopens
    · exact h.complete k x hlt hx hopens

/-- An opening bracket finds its partner behind all that is opened later. -/
theorem Pairing.of_open (h : Pairing code (i + 1) ((i, x) :: opened) pairs) :
    Pairing code i opened pairs where
  bounds p hp := by
    rcases h.bounds p hp with ⟨hfrom, hlt, hle⟩
    refine ⟨?_, hlt, Nat.le_of_succ_le hle⟩
    rcases hfrom with hmem | hbehind
    · rcases List.mem_cons.mp hmem with hfirst | hmem
      · exact .inr (Nat.le_of_eq hfirst.symm)
      · exact .inl hmem
    · exact .inr (Nat.le_of_succ_le hbehind)
  nested := h.nested
  closed := h.closed
  opened_mem o ho := h.opened_mem o (List.mem_cons_of_mem _ ho)
  complete k y hk hy hopens := by
    rcases Nat.eq_or_lt_of_le hk with rfl | hlt
    · exact h.opened_mem (_, x) List.mem_cons_self
    · exact h.complete k y hlt hy hopens

/-- A closing bracket is the partner of the innermost open one. -/
theorem Pairing.of_close {o y : Token} (h : Pairing code (i + 1) opened pairs)
    (hinner : j < i ∧ ∀ o ∈ opened, o.1 < j) (hj : code[j]? = some o) (hi : code[i]? = some y)
    (hclose : o.closer? = some y.text) (hkind : y.kind = .punctuation)
    (hopens : y.closer?.isSome = false) : Pairing code i ((j, o) :: opened) ((j, i) :: pairs) where
  bounds p hp := by
    rcases List.mem_cons.mp hp with rfl | hp
    · exact ⟨.inl (by simp), hinner.1, Nat.le_refl _⟩
    · rcases h.bounds p hp with ⟨hfrom, hlt, hle⟩
      exact ⟨hfrom.imp (List.mem_cons_of_mem _) Nat.le_of_succ_le, hlt, Nat.le_of_succ_le hle⟩
  nested p hp q hq hfirst hsecond := by
    rcases List.mem_cons.mp hp with rfl | hp
    · rcases List.mem_cons.mp hq with rfl | hq
      · omega
      · -- what is opened behind the innermost bracket is opened behind the closing one
        rcases (h.bounds q hq).1 with hmem | hbehind
        · rcases List.mem_map.mp hmem with ⟨o', ho', heq⟩
          have := hinner.2 o' ho'
          simp only at hfirst hsecond
          omega
        · simp only at hfirst hsecond
          omega
    · rcases List.mem_cons.mp hq with rfl | hq
      · exact (h.bounds p hp).2.2
      · exact h.nested p hp q hq hfirst hsecond
  closed p hp := by
    rcases List.mem_cons.mp hp with rfl | hp
    · exact ⟨o, y, hj, hi, hclose, hkind⟩
    · exact h.closed p hp
  opened_mem o' ho' := by
    rcases List.mem_cons.mp ho' with rfl | ho'
    · exact ⟨i, List.mem_cons_self⟩
    · rcases h.opened_mem o' ho' with ⟨k, hk⟩
      exact ⟨k, List.mem_cons_of_mem _ hk⟩
  complete k x hk hx hopens' := by
    rcases Nat.eq_or_lt_of_le hk with rfl | hlt
    · rw [hi] at hx
      cases hx
      rw [hopens] at hopens'
      cases hopens'
    · rcases h.complete k x hlt hx hopens' with ⟨m, hm⟩
      exact ⟨m, List.mem_cons_of_mem _ hm⟩

theorem pairing_of_bracketsFrom (h : bracketsFrom i opened tokens = .ok pairs)
    (hcode : code.drop i = tokens)
    (hopened : ∀ o ∈ opened, o.1 < i ∧ code[o.1]? = some o.2)
    (hsorted : opened.Pairwise (fun a b => b.1 < a.1)) : Pairing code i opened pairs := by
  induction tokens generalizing i opened pairs with
  | nil =>
    have hlength : code.length ≤ i := List.drop_eq_nil_iff.mp hcode
    cases opened with
    | cons o outer => cases h
    | nil =>
      cases h
      refine ⟨nofun, nofun, nofun, nofun, ?_⟩
      intro k x hk hx
      rw [List.getElem?_eq_none (by omega)] at hx
      cases hx
  | cons y tokens ih =>
    have hy : code[i]? = some y := by
      rw [← Nat.add_zero i, ← List.getElem?_drop, hcode]
      rfl
    have hrest : code.drop (i + 1) = tokens := by
      rw [← List.drop_drop, hcode]
      rfl
    have hold : ∀ o ∈ opened, o.1 < i + 1 ∧ code[o.1]? = some o.2 := by
      intro o ho
      have := hopened o ho
      exact ⟨by omega, this.2⟩
    unfold bracketsFrom at h
    split at h
    case isTrue hopens =>
      refine (ih h hrest ?_ ?_).of_open
      · rintro o ho
        rcases List.mem_cons.mp ho with rfl | ho
        · exact ⟨Nat.lt_succ_self i, hy⟩
        · exact hold o ho
      · rw [List.pairwise_cons]
        exact ⟨fun o ho => (hopened o ho).1, hsorted⟩
    case isFalse hopens =>
    have hopens' : y.closer?.isSome = false := by simpa using hopens
    split at h
    case isTrue hcloses =>
      cases opened with
      | nil => cases h
      | cons o outer =>
        rcases o with ⟨j, o⟩
        simp only at h
        split at h
        case isTrue hclose =>
          rcases List.pairwise_cons.mp hsorted with ⟨hbelow, hsorted⟩
          have hfirst := hopened (j, o) List.mem_cons_self
          cases hinner : bracketsFrom (i + 1) outer tokens with
          | error e =>
            rw [hinner] at h
            cases h
          | ok inner =>
            rw [hinner] at h
            cases h
            have hkind : y.kind = .punctuation := by
              simp only [Token.closes, Bool.and_eq_true, decide_eq_true_eq] at hcloses
              exact hcloses.1
            exact (ih hinner hrest (fun o ho => hold o (List.mem_cons_of_mem _ ho))
              hsorted).of_close ⟨hfirst.1, hbelow⟩ hfirst.2 hy hclose hkind hopens'
        case isFalse => cases h
    case isFalse hcloses =>
      refine (ih h hrest hold hsorted).of_succ ?_
      intro x hx
      rw [hy] at hx
      cases hx
      exact hopens'

theorem pairing_of_matchBrackets (h : matchBrackets code = .ok pairs) : Pairing code 0 [] pairs :=
  pairing_of_bracketsFrom h List.drop_zero nofun List.Pairwise.nil

/-! ## Sources -/

namespace Source

theorem read_eq_ok [Limits] (h : Source.read t = .ok s) :
    s.text = t ∧ tokenize t = .ok s.tokens ∧
      s.code.toList = (documented none s.tokens).map Prod.fst ∧
      s.docs.toList = (documented none s.tokens).map Prod.snd ∧
      matchBrackets s.code.toList = .ok s.brackets := by
  unfold Source.read at h
  cases htokens : tokenize t with
  | error e =>
    rw [htokens] at h
    cases h
  | ok tokens =>
    rw [htokens] at h
    simp only [bind, Except.bind] at h
    cases hbrackets : matchBrackets ((documented none tokens).map (·.1)) with
    | error e =>
      rw [hbrackets] at h
      cases h
    | ok brackets =>
      rw [hbrackets] at h
      cases h
      exact ⟨rfl, rfl, rfl, rfl, hbrackets⟩

theorem mem_brackets_of_closer? (hi : s.closer? i = some j) : (i, j) ∈ s.brackets := by
  rcases List.lookup_eq_some_iff.mp hi with ⟨front, back, hpairs, -⟩
  simp [hpairs]

section

variable [Limits] (h : Source.read t = .ok s)

include h

theorem pairing_of_read : Pairing s.code.toList 0 [] s.brackets :=
  pairing_of_matchBrackets (read_eq_ok h).2.2.2.2

/-- A code token is one by itself. -/
theorem isLexeme_of_read (hx : s.code[i]? = some x) : ∃ flag, IsLexeme flag x := by
  rcases read_eq_ok h with ⟨-, htokens, hcode, -, -⟩
  have hmem : x ∈ s.tokens := by
    apply (sublist_documented none s.tokens).subset
    rw [← hcode, Array.mem_toList_iff]
    exact Array.mem_of_getElem? hx
  exact (legible_of_tokensFrom (tokensFrom_of_tokenize htokens)).isLexeme hmem

/-- What closes a bracket stands behind it. -/
theorem lt_of_closer? (hi : s.closer? i = some j) : i < j ∧ j < s.size := by
  have hpairing := pairing_of_read h
  have hmem := mem_brackets_of_closer? hi
  rcases hpairing.closed _ hmem with ⟨-, y, -, hy, -⟩
  rcases List.getElem?_eq_some_iff.mp hy with ⟨hsize, -⟩
  exact ⟨(hpairing.bounds _ hmem).2.1, hsize⟩

/-- A bracket that opens inside a pair closes there. -/
theorem closer?_lt_of_closer? (hi : s.closer? i = some j) (hk : s.closer? k = some m)
    (hik : i < k) (hkj : k < j) : m < j :=
  (pairing_of_read h).nested _ (mem_brackets_of_closer? hi) _ (mem_brackets_of_closer? hk)
    hik hkj

/-- What stands inside a pair of brackets is passed over inside it. -/
theorem skip_le_of_closer? (hi : s.closer? i = some j) (hik : i < k) (hkj : k < j) :
    s.skip k ≤ j := by
  unfold skip
  cases hk : s.closer? k with
  | none =>
    simp only [Option.elim_none]
    omega
  | some m =>
    have := closer?_lt_of_closer? h hi hk hik hkj
    simp only [Option.elim_some]
    omega

/-- No identifier is a mark. -/
theorem kind_of_is (hmark : w.toList.head?.any startsIdentifier = false)
    (hw : s.is w i = true) : ∃ x, s.code[i]? = some x ∧ x.kind = .punctuation ∧ x.text = w := by
  unfold is at hw
  cases hx : s.code[i]? with
  | none => simp [hx] at hw
  | some x =>
    simp only [hx, Option.any_some, Token.is, Bool.and_eq_true, decide_eq_true_eq,
      Bool.or_eq_true] at hw
    rcases hw with ⟨rfl, hpunctuation | hidentifier⟩
    · exact ⟨x, rfl, hpunctuation, rfl⟩
    · rcases isLexeme_of_read h hx with ⟨flag, hlexeme⟩
      rw [hlexeme.startsIdentifier hidentifier] at hmark
      cases hmark

/-- Every opening bracket has its partner. -/
theorem closer?_of_is (hpair : (w, v) ∈ bracketPairs) (hw : s.is w i = true) :
    ∃ j, s.closer? i = some j ∧ s.is v j = true := by
  have hmark : w.toList.head?.any startsIdentifier = false ∧ bracketPairs.lookup w = some v := by
    simp only [bracketPairs, List.mem_cons, Prod.mk.injEq, List.not_mem_nil, or_false] at hpair
    rcases hpair with ⟨rfl, rfl⟩ | ⟨rfl, rfl⟩ | ⟨rfl, rfl⟩ <;> decide
  rcases kind_of_is h hmark.1 hw with ⟨x, hx, hkind, rfl⟩
  have hcloser : x.closer? = some v := by rw [Token.closer?, if_pos hkind, hmark.2]
  have hpairing := pairing_of_read h
  have hx' : s.code.toList[i]? = some x := by simpa using hx
  rcases hpairing.complete i x (Nat.zero_le _) hx' (by simp [hcloser]) with ⟨k, hk⟩
  cases hj : s.closer? i with
  | none =>
    have hfree := List.lookup_eq_none_iff.mp hj _ hk
    simp at hfree
  | some j =>
    refine ⟨j, rfl, ?_⟩
    rcases hpairing.closed _ (mem_brackets_of_closer? hj) with ⟨x', y, hx'', hy, hclose, hkind'⟩
    simp only at hx'' hy
    rw [hx', Option.some.injEq] at hx''
    subst hx''
    rw [hcloser, Option.some.injEq] at hclose
    have hy' : s.code[j]? = some y := by simpa using hy
    simp [is, Token.is, hy', hclose, hkind']

/-- Only opening brackets have a partner behind them. -/
theorem isSome_lookup_of_closer? (hi : s.closer? i = some j) (hw : s.is w i = true) :
    (bracketPairs.lookup w).isSome = true := by
  rcases (pairing_of_read h).closed _ (mem_brackets_of_closer? hi) with ⟨x, y, hx, -, hclose, -⟩
  have hx' : s.code[i]? = some x := by simpa using hx
  have htext : x.text = w := by
    simp only [is, hx', Option.any_some, Token.is, Bool.and_eq_true, decide_eq_true_eq] at hw
    exact hw.1
  unfold Token.closer? at hclose
  split at hclose
  · rw [← htext, hclose]
    rfl
  · cases hclose

end

end Source

end WasmPackage.Script
