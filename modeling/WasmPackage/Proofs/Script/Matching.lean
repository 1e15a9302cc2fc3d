import WasmPackage.Proofs.Script.Faces
import WasmPackage.Proofs.Script.Tiling

/-!
# Which brackets match

The brackets of a script match if they form a balanced word.  In front of any index, the bracket
that is open innermost is the last one behind which all brackets match, and it is the only one that
may be closed there.  Main statement: a script whose tokens are read has its brackets matched
exactly if they are balanced, each with the bracket that closes it; and if not, the fault is told at
the first closing bracket that does not close the innermost open one, or else at the bracket left
open.
-/

namespace WasmPackage.Script

variable {code tokens : List Token} {faces front back : List Face} {f : Face} {i j k m : Nat}
  {o y : Token} {opened : List (Nat × Token)} {pairs : List (Nat × Nat)}

/-! ## Balanced words -/

/-- Is a token with this face an opening bracket? -/
def isOpener (f : Face) : Bool :=
  f.1 = .punctuation && (bracketPairs.map Prod.fst).contains f.2

/-- Is a token with this face a closing bracket? -/
def isCloser (f : Face) : Bool :=
  f.1 = .punctuation && closers.contains f.2

theorem isBracket_eq (f : Face) : isBracket f = (isOpener f || isCloser f) := by
  unfold isBracket isOpener isCloser
  rw [← Bool.and_or_distrib_left]
  congr 1
  simp [bracketPairs, closers, Bool.or_assoc]

theorem isOpener_of_mem {w w' : String} (hpair : (w, w') ∈ bracketPairs) :
    isOpener (.punctuation, w) = true ∧ isCloser (.punctuation, w) = false ∧
      isOpener (.punctuation, w') = false ∧ isCloser (.punctuation, w') = true := by
  have hall : ∀ p ∈ bracketPairs, isOpener (.punctuation, p.1) = true ∧
      isCloser (.punctuation, p.1) = false ∧ isOpener (.punctuation, p.2) = false ∧
        isCloser (.punctuation, p.2) = true := by decide
  exact hall _ hpair

theorem exists_pair_of_isOpener (hf : isOpener f = true) :
    f.1 = .punctuation ∧ ∃ w', (f.2, w') ∈ bracketPairs := by
  simpa [isOpener] using hf

theorem exists_pair_of_isCloser (hf : isCloser f = true) :
    f.1 = .punctuation ∧ ∃ w, (w, f.2) ∈ bracketPairs := by
  simpa [isCloser, closers] using hf

theorem isCloser_of_isOpener (hf : isOpener f = true) : isCloser f = false := by
  rcases f with ⟨kind, w⟩
  rcases exists_pair_of_isOpener hf with ⟨hkind, w', hpair⟩
  simp only at hkind hpair
  rw [hkind]
  exact (isOpener_of_mem hpair).2.1

/-- A balanced word has as many closing brackets as opening ones, and no beginning of it has
more. -/
theorem Balanced.countP (h : Balanced faces) :
    faces.countP isCloser = faces.countP isOpener ∧
      ∀ n, (faces.take n).countP isCloser ≤ (faces.take n).countP isOpener := by
  induction h with
  | nil => simp
  | @plain f r hf _ ih =>
    rw [isBracket_eq, Bool.or_eq_false_iff] at hf
    refine ⟨by simp [hf, ih.1], ?_⟩
    intro n
    cases n with
    | zero => simp
    | succ n => simpa [hf] using ih.2 n
  | @group w w' inner r hpair _ _ ihinner ih =>
    rcases isOpener_of_mem hpair with ⟨hopens, hopens', hcloses', hcloses⟩
    refine ⟨by simp [hopens, hopens', hcloses, hcloses', ihinner.1, ih.1]; omega, ?_⟩
    intro n
    cases n with
    | zero => simp
    | succ n =>
      have hinner := ihinner.2 n
      rw [List.take_succ_cons, List.take_append, List.countP_cons, List.countP_cons,
        List.countP_append, List.countP_append, hopens, hopens']
      cases hn : n - inner.length with
      | zero => simpa using Nat.le_succ_of_le hinner
      | succ n' =>
        have hrest := ih.2 n'
        rw [List.take_of_length_le (by omega), ihinner.1]
        simp [hcloses, hcloses']
        omega

/-- An opening bracket with balanced code behind it is not closed. -/
theorem not_balanced_of_isOpener (hf : isOpener f = true) (hback : Balanced back) :
    ¬ Balanced (front ++ f :: back) := by
  intro h
  have htotal := h.countP.1
  have hfront := h.countP.2 front.length
  rw [List.take_left] at hfront
  simp only [List.countP_append, List.countP_cons, hf, isCloser_of_isOpener hf,
    hback.countP.1] at htotal
  simp only [if_true, Bool.false_eq_true, if_false] at htotal
  omega

/-- A closing bracket with balanced code in front of it closes nothing. -/
theorem not_balanced_of_isCloser (hf : isCloser f = true) (hfront : Balanced front) :
    ¬ Balanced (front ++ f :: back) := by
  intro h
  have hopens : isOpener f = false := by
    rw [Bool.eq_false_iff]
    intro hopens
    rw [isCloser_of_isOpener hopens] at hf
    cases hf
  have hbeginning := h.countP.2 (front.length + 1)
  rw [List.take_length_add_append] at hbeginning
  simp only [List.take_succ_cons, List.take_zero, List.countP_append, List.countP_cons, hf, hopens,
    hfront.countP.1, List.countP_nil, if_true, Bool.false_eq_true, if_false] at hbeginning
  omega

/-! ## Brackets as tokens -/

theorem pair_of_closer? {w' : String} (h : o.closer? = some w') :
    o.kind = .punctuation ∧ (o.text, w') ∈ bracketPairs := by
  unfold Token.closer? at h
  split at h
  · next hkind =>
    rcases List.lookup_eq_some_iff.mp h with ⟨before, after, hpairs, -⟩
    exact ⟨hkind, by simp [hpairs]⟩
  · cases h

theorem isSome_closer? (o : Token) : o.closer?.isSome = isOpener o.face := by
  rw [Bool.eq_iff_iff]
  constructor
  · intro hsome
    rcases Option.isSome_iff_exists.mp hsome with ⟨w', hw'⟩
    rcases pair_of_closer? hw' with ⟨hkind, hpair⟩
    rw [Token.face, hkind]
    exact (isOpener_of_mem hpair).1
  · intro hopens
    rcases exists_pair_of_isOpener hopens with ⟨hkind, w', hpair⟩
    rw [closer?_eq_of_face (Prod.ext hkind rfl) hpair]
    rfl

theorem closes_eq (o : Token) : o.closes = isCloser o.face :=
  rfl

/-! ## Open brackets -/

/-- The faces of the code from index `i` up to index `k`. -/
def facesBetween (code : List Token) (i k : Nat) : List Face :=
  ((code.take k).drop i).map Token.face

theorem facesBetween_self (code : List Token) (i : Nat) : facesBetween code i i = [] := by
  simp [facesBetween]

theorem facesBetween_append (hij : i ≤ j) (hjk : j ≤ k) :
    facesBetween code i j ++ facesBetween code j k = facesBetween code i k := by
  have hfront : (code.take j).drop i = ((code.take k).drop i).take (j - i) := by
    rw [← List.drop_take, List.take_take, Nat.min_eq_left hjk]
  have hback : (code.take k).drop j = ((code.take k).drop i).drop (j - i) := by
    rw [List.drop_drop, Nat.add_sub_cancel' hij]
  rw [facesBetween, facesBetween, facesBetween, hfront, hback, ← List.map_append,
    List.take_append_drop]

theorem facesBetween_succ (hy : code[k]? = some y) : facesBetween code k (k + 1) = [y.face] := by
  rcases List.getElem?_eq_some_iff.mp hy with ⟨hk, -⟩
  rw [facesBetween, List.take_add_one, hy, List.drop_append_of_le_length (by simp; omega)]
  simp

theorem facesBetween_of_le (hk : code.length ≤ k) :
    facesBetween code i k = facesBetween code i code.length := by
  rw [facesBetween, facesBetween, List.take_of_length_le hk, List.take_length]

theorem facesBetween_all (code : List Token) :
    facesBetween code 0 code.length = code.map Token.face := by
  simp [facesBetween]

/-- Among the brackets open in front of index `k`, the innermost one is `o` at index `j`: all that
are opened behind it are closed. -/
structure IsOpenAt (code : List Token) (k j : Nat) (o : Token) : Prop where
  token : code[j]? = some o
  opens : isOpener o.face = true
  before : j < k
  inside : Balanced (facesBetween code (j + 1) k)

theorem IsOpenAt.facesBetween_eq (h : IsOpenAt code k j o) (hi : i ≤ j) :
    facesBetween code i k =
      facesBetween code i j ++ o.face :: facesBetween code (j + 1) k := by
  rw [← facesBetween_append hi (Nat.le_of_lt h.before),
    ← facesBetween_append (Nat.le_succ j) h.before, facesBetween_succ h.token]
  rfl

/-- No bracket is open behind balanced code. -/
theorem IsOpenAt.not_balanced (h : IsOpenAt code k j o) (hi : i ≤ j) :
    ¬ Balanced (facesBetween code i k) := by
  rw [h.facesBetween_eq hi]
  exact not_balanced_of_isOpener h.opens h.inside

theorem IsOpenAt.unique {o' : Token} (h : IsOpenAt code k i o) (h' : IsOpenAt code k j o') :
    i = j := by
  rcases Nat.lt_trichotomy i j with hlt | heq | hgt
  · exact absurd h.inside (h'.not_balanced hlt)
  · exact heq
  · exact absurd h'.inside (h.not_balanced hgt)

/-- The bracket at index `k` closes the innermost one that is open there, at index `j`. -/
def IsPair (code : List Token) (j k : Nat) : Prop :=
  ∃ o y, IsOpenAt code k j o ∧ code[k]? = some y ∧ y.kind = .punctuation ∧
    (o.text, y.text) ∈ bracketPairs

theorem IsPair.isCloser (h : IsPair code j k) :
    ∃ y, code[k]? = some y ∧ isCloser y.face = true := by
  rcases h with ⟨o, y, -, hy, hkind, hpair⟩
  refine ⟨y, hy, ?_⟩
  rw [Token.face, hkind]
  exact (isOpener_of_mem hpair).2.2.2

theorem IsPair.left_unique (h : IsPair code i k) (h' : IsPair code j k) : i = j := by
  rcases h with ⟨o, y, hopen, -⟩
  rcases h' with ⟨o', y', hopen', -⟩
  exact hopen.unique hopen'

/-- An opening bracket is closed once. -/
theorem IsPair.right_unique (h : IsPair code i j) (h' : IsPair code i k) : j = k := by
  -- behind the first of two partners the brackets would not match up to the second
  have hlt : ∀ {j k : Nat}, IsPair code i j → IsPair code i k → ¬ j < k := by
    rintro j k h ⟨o', y', hopen', -⟩ hjk
    rcases h.isCloser with ⟨y, hy, hcloses⟩
    rcases h with ⟨o, -, hopen, -⟩
    have hsplit : facesBetween code (i + 1) k =
        facesBetween code (i + 1) j ++ y.face :: facesBetween code (j + 1) k := by
      rw [← facesBetween_append hopen.before (Nat.le_of_lt hjk),
        ← facesBetween_append (Nat.le_succ j) hjk, facesBetween_succ hy]
      rfl
    have hinside := hopen'.inside
    rw [hsplit] at hinside
    exact not_balanced_of_isCloser hcloses hopen.inside hinside
  have hjk := hlt h h'
  have hkj := hlt h' h
  omega

/-- The brackets open in front of an index, innermost first: each is open innermost in front of the
next one. -/
inductive AreOpenAt (code : List Token) : Nat → List (Nat × Token) → Prop
  | none {k : Nat} : Balanced (facesBetween code 0 k) → AreOpenAt code k []
  | behind {j k : Nat} {o : Token} {outer : List (Nat × Token)} :
    AreOpenAt code j outer → IsOpenAt code k j o → AreOpenAt code k ((j, o) :: outer)

/-- Balanced code changes nothing about which brackets are open. -/
theorem AreOpenAt.extend (h : AreOpenAt code j opened) (hjk : j ≤ k)
    (hbalanced : Balanced (facesBetween code j k)) : AreOpenAt code k opened := by
  cases h with
  | none hfront =>
    apply AreOpenAt.none
    rw [← facesBetween_append (Nat.zero_le j) hjk]
    exact hfront.append hbalanced
  | behind houter hopen =>
    refine .behind houter ⟨hopen.token, hopen.opens, Nat.lt_of_lt_of_le hopen.before hjk, ?_⟩
    rw [← facesBetween_append hopen.before hjk]
    exact hopen.inside.append hbalanced

theorem AreOpenAt.of_opener (h : AreOpenAt code k opened) (hy : code[k]? = some y)
    (hopens : isOpener y.face = true) : AreOpenAt code (k + 1) ((k, y) :: opened) := by
  refine .behind h ⟨hy, hopens, Nat.lt_succ_self k, ?_⟩
  rw [facesBetween_self]
  exact .nil

theorem AreOpenAt.of_plain (h : AreOpenAt code k opened) (hy : code[k]? = some y)
    (hplain : isBracket y.face = false) : AreOpenAt code (k + 1) opened := by
  apply h.extend (Nat.le_succ k)
  rw [facesBetween_succ hy]
  exact .plain hplain .nil

/-- A bracket that is closed is no longer open, and the one around it is the innermost again. -/
theorem AreOpenAt.of_pair {outer : List (Nat × Token)} (h : AreOpenAt code k ((j, o) :: outer))
    (hpair : IsPair code j k) : AreOpenAt code (k + 1) outer := by
  rcases hpair with ⟨o', y, hopen, hy, hkind, hpair⟩
  cases h with
  | behind houter _ =>
    have hjk := Nat.le_succ_of_le (Nat.le_of_lt hopen.before)
    apply houter.extend hjk
    rw [← facesBetween_append (Nat.le_of_lt hopen.before) (Nat.le_succ k),
      hopen.facesBetween_eq (Nat.le_refl j), facesBetween_self, facesBetween_succ hy]
    have hopener : o'.face = (.punctuation, o'.text) :=
      Prod.ext (exists_pair_of_isOpener hopen.opens).1 rfl
    have hcloser : y.face = (.punctuation, y.text) := Prod.ext hkind rfl
    rw [hopener, hcloser]
    exact .group hpair hopen.inside .nil

/-! ## What the stack finds -/

/-- Every closing bracket in front of index `n` closes one. -/
def ClosersMatch (code : List Token) (n : Nat) : Prop :=
  ∀ k < n, ∀ y, code[k]? = some y → isCloser y.face = true → ∃ j, IsPair code j k

/-- The first fault of brackets that do not match, and the offset it is told at: a closing bracket
where none is open, or where the innermost open one is of another kind, if all closing brackets in
front of it match; or the innermost bracket that is left open at the end. -/
inductive IsFirstFault (code : List Token) : Malformed × Nat → Prop
  | unbalanced {k : Nat} {y : Token} : ClosersMatch code k → code[k]? = some y →
    isCloser y.face = true → (∀ j o, ¬ IsOpenAt code k j o) →
      IsFirstFault code (.unbalanced y.text, y.start)
  | mismatched {k j : Nat} {o y : Token} : ClosersMatch code k → code[k]? = some y →
    isCloser y.face = true → IsOpenAt code k j o → (o.text, y.text) ∉ bracketPairs →
      IsFirstFault code (.mismatched y.text, y.start)
  | unclosed {j : Nat} {o : Token} : ClosersMatch code code.length →
    IsOpenAt code code.length j o → IsFirstFault code (.unclosed o.text, o.start)

/-- What is found from index `i` on is right: pairs only, for all closing brackets, and none is left
open; or the first fault. -/
def IsFoundFrom (code : List Token) (i : Nat) :
    Except (Malformed × Nat) (List (Nat × Nat)) → Prop
  | .ok pairs => Balanced (code.map Token.face) ∧ (∀ p ∈ pairs, IsPair code p.1 p.2) ∧
      ∀ k y, i ≤ k → code[k]? = some y → isCloser y.face = true → ∃ j, (j, k) ∈ pairs
  | .error e => IsFirstFault code e

theorem ClosersMatch.of_not_isCloser (h : ClosersMatch code i) (hy : code[i]? = some y)
    (hcloses : isCloser y.face = false) : ClosersMatch code (i + 1) := by
  intro k hk y' hy' hcloses'
  rcases Nat.lt_or_eq_of_le (Nat.le_of_lt_succ hk) with hlt | rfl
  · exact h k hlt y' hy' hcloses'
  · rw [hy, Option.some.injEq] at hy'
    rw [← hy', hcloses] at hcloses'
    cases hcloses'

theorem ClosersMatch.of_isPair (h : ClosersMatch code i) (hpair : IsPair code j i) :
    ClosersMatch code (i + 1) := by
  intro k hk y hy hcloses
  rcases Nat.lt_or_eq_of_le (Nat.le_of_lt_succ hk) with hlt | rfl
  · exact h k hlt y hy hcloses
  · exact ⟨j, hpair⟩

theorem getElem?_of_drop (h : code.drop i = y :: tokens) :
    code[i]? = some y ∧ code.drop (i + 1) = tokens := by
  constructor
  · rw [← Nat.add_zero i, ← List.getElem?_drop, h]
    rfl
  · rw [← List.drop_drop, h]
    rfl

theorem IsFoundFrom.of_succ {r : Except (Malformed × Nat) (List (Nat × Nat))}
    (h : IsFoundFrom code (i + 1) r) (hy : code[i]? = some y) (hcloses : isCloser y.face = false) :
    IsFoundFrom code i r := by
  cases r with
  | error e => exact h
  | ok pairs =>
    rcases h with ⟨hbalanced, hpairs, hall⟩
    refine ⟨hbalanced, hpairs, ?_⟩
    intro k y' hk hy' hcloses'
    rcases Nat.eq_or_lt_of_le hk with rfl | hlt
    · rw [hy, Option.some.injEq] at hy'
      rw [← hy', hcloses] at hcloses'
      cases hcloses'
    · exact hall k y' hlt hy' hcloses'

theorem IsFoundFrom.of_pair {r : Except (Malformed × Nat) (List (Nat × Nat))}
    (h : IsFoundFrom code (i + 1) r) (hpair : IsPair code j i) :
    IsFoundFrom code i (r.map ((j, i) :: ·)) := by
  cases r with
  | error e => exact h
  | ok pairs =>
    rcases h with ⟨hbalanced, hpairs, hall⟩
    refine ⟨hbalanced, List.forall_mem_cons.mpr ⟨hpair, hpairs⟩, ?_⟩
    intro k y hk hy hcloses
    rcases Nat.eq_or_lt_of_le hk with rfl | hlt
    · exact ⟨j, List.mem_cons_self⟩
    · rcases hall k y hlt hy hcloses with ⟨j', hj'⟩
      exact ⟨j', List.mem_cons_of_mem _ hj'⟩

theorem isFoundFrom_bracketsFrom (hcode : code.drop i = tokens) (hopened : AreOpenAt code i opened)
    (hmatch : ClosersMatch code i) : IsFoundFrom code i (bracketsFrom i opened tokens) := by
  -- on the tokens: which brackets are open is known, and no closing one before has failed
  fun_induction bracketsFrom i opened tokens with
  | case1 i =>
    have hend : code.length ≤ i := List.drop_eq_nil_iff.mp hcode
    cases hopened with
    | none hall =>
      rw [facesBetween_of_le hend, facesBetween_all] at hall
      refine ⟨hall, nofun, ?_⟩
      intro k y hk hy
      rw [List.getElem?_eq_none (Nat.le_trans hend hk)] at hy
      cases hy
  | case2 i j o outer =>
    have hend : code.length ≤ i := List.drop_eq_nil_iff.mp hcode
    cases hopened with
    | behind _ hopen =>
      refine .unclosed (fun k hk => hmatch k (Nat.lt_of_lt_of_le hk hend))
        ⟨hopen.token, hopen.opens, (List.getElem?_eq_some_iff.mp hopen.token).1, ?_⟩
      rw [← facesBetween_of_le hend]
      exact hopen.inside
  | case3 i opened y rest hopens ih =>
    rcases getElem?_of_drop hcode with ⟨hy, hrest⟩
    rw [isSome_closer?] at hopens
    have hcloses := isCloser_of_isOpener hopens
    have hmatch' := hmatch.of_not_isCloser hy hcloses
    exact (ih hrest (hopened.of_opener hy hopens) hmatch').of_succ hy hcloses
  | case4 i y rest hopens hcloses =>
    rcases getElem?_of_drop hcode with ⟨hy, -⟩
    refine .unbalanced hmatch hy hcloses ?_
    cases hopened with
    | none hall => exact fun j o hopen => hopen.not_balanced (Nat.zero_le j) hall
  | case5 i y rest _ hcloses j o outer hclose ih =>
    rcases getElem?_of_drop hcode with ⟨hy, hrest⟩
    rw [closes_eq] at hcloses
    have hpair : IsPair code j i := by
      cases hopened with
      | behind _ hopen =>
        exact ⟨o, y, hopen, hy, (exists_pair_of_isCloser hcloses).1, (pair_of_closer? hclose).2⟩
    exact (ih hrest (hopened.of_pair hpair) (hmatch.of_isPair hpair)).of_pair hpair
  | case6 i y rest _ hcloses j o outer hclose =>
    rcases getElem?_of_drop hcode with ⟨hy, -⟩
    cases hopened with
    | behind _ hopen =>
      refine .mismatched hmatch hy hcloses hopen ?_
      intro hpair
      apply hclose
      exact closer?_eq_of_face (Prod.ext (exists_pair_of_isOpener hopen.opens).1 rfl) hpair
  | case7 i opened y rest hopens hcloses ih =>
    rcases getElem?_of_drop hcode with ⟨hy, hrest⟩
    rw [isSome_closer?, Bool.not_eq_true] at hopens
    rw [closes_eq, Bool.not_eq_true] at hcloses
    have hplain : isBracket y.face = false := by rw [isBracket_eq, hopens, hcloses, Bool.or_false]
    have hmatch' := hmatch.of_not_isCloser hy hcloses
    exact (ih hrest (hopened.of_plain hy hplain) hmatch').of_succ hy hcloses

/-! ## Sources -/

/-- A map of brackets: it is defined on the opening ones, each closing one is the partner of just
one, and any two pairs stand in one another or apart. -/
structure IsBracketMap (code : List Token) (partner? : Nat → Option Nat) : Prop where
  domain : ∀ i, (partner? i).isSome = true ↔ ∃ x, code[i]? = some x ∧ isOpener x.face = true
  range : ∀ k, (∃ i, partner? i = some k) ↔ ∃ y, code[k]? = some y ∧ isCloser y.face = true
  injective : ∀ i j k, partner? i = some k → partner? j = some k → i = j
  sameKind : ∀ i k, partner? i = some k →
    ∃ x y, code[i]? = some x ∧ code[k]? = some y ∧ (x.text, y.text) ∈ bracketPairs
  forward : ∀ i k, partner? i = some k → i < k
  nested : ∀ i k i' k', partner? i = some k → partner? i' = some k' → i < i' → k' < k ∨ k < i'

namespace Source

variable {t : Text} {s : Source}

theorem isFoundFrom_matchBrackets (code : List Token) :
    IsFoundFrom code 0 (matchBrackets code) := by
  refine isFoundFrom_bracketsFrom List.drop_zero (.none ?_) nofun
  rw [facesBetween_self]
  exact .nil

theorem isFoundFrom_of_read [Limits] (h : Source.read t = .ok s) :
    IsFoundFrom s.code.toList 0 (.ok s.brackets) := by
  rw [← (read_eq_ok h).2.2.2.2]
  exact isFoundFrom_matchBrackets s.code.toList

/-- The partner of a bracket is the one that it is paired with in the code. -/
theorem closer?_eq_some_iff_isPair [Limits] (h : Source.read t = .ok s) :
    s.closer? j = some k ↔ IsPair s.code.toList j k := by
  obtain ⟨-, hpairs, hall⟩ := isFoundFrom_of_read h
  constructor
  · intro hj
    exact hpairs _ (mem_brackets_of_closer? hj)
  · intro hpair
    rcases hpair.isCloser with ⟨y, hy, hcloses⟩
    rcases hall k y (Nat.zero_le k) hy hcloses with ⟨j', hj'⟩
    have hsame := (hpairs _ hj').left_unique hpair
    simp only at hsame
    subst hsame
    cases hfound : s.closer? j' with
    | none =>
      have hfree := List.lookup_eq_none_iff.mp hfound _ hj'
      simp at hfree
    | some k' =>
      have hpair' := hpairs _ (mem_brackets_of_closer? hfound)
      rw [hpair.right_unique hpair']

theorem isBracketMap_of_read [Limits] (h : Source.read t = .ok s) :
    IsBracketMap s.code.toList s.closer? where
  domain i := by
    constructor
    · intro hsome
      rcases Option.isSome_iff_exists.mp hsome with ⟨k, hk⟩
      rcases (closer?_eq_some_iff_isPair h).mp hk with ⟨o, -, hopen, -⟩
      exact ⟨o, hopen.token, hopen.opens⟩
    · rintro ⟨x, hx, hopens⟩
      rw [← isSome_closer?] at hopens
      rcases (pairing_of_read h).complete i x (Nat.zero_le i) hx hopens with ⟨k, hk⟩
      rw [Option.isSome_iff_exists]
      exact ⟨k, (closer?_eq_some_iff_isPair h).mpr ((isFoundFrom_of_read h).2.1 _ hk)⟩
  range k := by
    constructor
    · rintro ⟨i, hi⟩
      exact ((closer?_eq_some_iff_isPair h).mp hi).isCloser
    · rintro ⟨y, hy, hcloses⟩
      obtain ⟨-, hpairs, hall⟩ := isFoundFrom_of_read h
      rcases hall k y (Nat.zero_le k) hy hcloses with ⟨j, hj⟩
      exact ⟨j, (closer?_eq_some_iff_isPair h).mpr (hpairs _ hj)⟩
  injective i j k hi hj :=
    ((closer?_eq_some_iff_isPair h).mp hi).left_unique ((closer?_eq_some_iff_isPair h).mp hj)
  sameKind i k hi := by
    rcases (closer?_eq_some_iff_isPair h).mp hi with ⟨x, y, hopen, hy, -, hpair⟩
    exact ⟨x, y, hopen.token, hy, hpair⟩
  forward i k hi := (lt_of_closer? h hi).1
  nested i k i' k' hi hi' hii' := by
    rcases Nat.lt_trichotomy i' k with hlt | rfl | hgt
    · exact .inl (closer?_lt_of_closer? h hi hi' hii' hlt)
    · -- one token is not both an opening and a closing bracket
      rcases ((closer?_eq_some_iff_isPair h).mp hi).isCloser with ⟨y, hy, hcloses⟩
      rcases (closer?_eq_some_iff_isPair h).mp hi' with ⟨o, -, hopen, -⟩
      rw [hopen.token, Option.some.injEq] at hy
      rw [← hy, isCloser_of_isOpener hopen.opens] at hcloses
      cases hcloses
    · exact .inr hgt

/-- The code among some tokens: all but the comments. -/
def codeAmong (tokens : List Token) : List Token :=
  tokens.filter (fun x => x.kind ≠ .comment)

theorem map_fst_documented_none (tokens : List Token) :
    (documented none tokens).map (·.1) = codeAmong tokens :=
  map_fst_documented none tokens

/-- When a script has fallen into tokens, matching its brackets decides whether it is read. -/
theorem read_of_tokenize [Limits] {tokens : List Token} (h : tokenize t = .ok tokens) :
    (∀ pairs, matchBrackets (codeAmong tokens) = .ok pairs →
        ∃ s, Source.read t = .ok s ∧ s.code.toList = codeAmong tokens) ∧
      ∀ e, matchBrackets (codeAmong tokens) = .error e →
        Source.read t = .error (Fault.ofOffset t e.1 e.2) := by
  unfold Source.read
  rw [h]
  simp only [bind, Except.bind, map_fst_documented_none]
  constructor
  · intro pairs hpairs
    rw [hpairs]
    exact ⟨_, rfl, rfl⟩
  · intro e he
    rw [he]
    rfl

/-- A script that falls into tokens is read exactly if its brackets are balanced.  Then each opening
bracket is mapped to the one that closes it; otherwise the first fault is told where its token
begins. -/
theorem read_matchesBrackets [Limits] {tokens : List Token} (h : tokenize t = .ok tokens) :
    ((∃ s, Source.read t = .ok s) ↔ Balanced ((codeAmong tokens).map Token.face)) ∧
      (∀ s, Source.read t = .ok s →
        s.code.toList = codeAmong tokens ∧ IsBracketMap (codeAmong tokens) s.closer?) ∧
      ∀ fault, Source.read t = .error fault →
        ∃ e, IsFirstFault (codeAmong tokens) e ∧ fault = Fault.ofOffset t e.1 e.2 := by
  have hfound := isFoundFrom_matchBrackets (codeAmong tokens)
  cases hbrackets : matchBrackets (codeAmong tokens) with
  | ok pairs =>
    rw [hbrackets] at hfound
    rcases (read_of_tokenize h).1 pairs hbrackets with ⟨s, hs, hcode⟩
    refine ⟨⟨fun _ => hfound.1, fun _ => ⟨s, hs⟩⟩, ?_, ?_⟩
    · intro s' hs'
      rw [hs, Except.ok.injEq] at hs'
      subst hs'
      refine ⟨hcode, ?_⟩
      rw [← hcode]
      exact isBracketMap_of_read hs
    · intro fault hfault
      rw [hs] at hfault
      cases hfault
  | error e =>
    rw [hbrackets] at hfound
    have hfails := (read_of_tokenize h).2 e hbrackets
    refine ⟨⟨?_, ?_⟩, ?_, ?_⟩
    · rintro ⟨s, hs⟩
      rw [hfails] at hs
      cases hs
    · -- balanced brackets are matched
      intro hbalanced
      rcases exists_matchBrackets hbalanced with ⟨pairs, hpairs⟩
      rw [hbrackets] at hpairs
      cases hpairs
    · intro s hs
      rw [hfails] at hs
      cases hs
    · intro fault hfault
      rw [hfails] at hfault
      cases hfault
      exact ⟨e, hfound, rfl⟩

/-- Brackets in one another, with one more in a comment; and two that stand across each other. -/
theorem read_matchesBrackets_nested :
    (∃ tokens s, tokenize "f(a[0]) // ]".toList = .ok tokens ∧
      Source.read "f(a[0]) // ]".toList = .ok s ∧ Balanced ((codeAmong tokens).map Token.face) ∧
      IsBracketMap (codeAmong tokens) s.closer?) ∧
      ∃ tokens fault, tokenize "f(a[0)]".toList = .ok tokens ∧
        Source.read "f(a[0)]".toList = .error fault ∧ fault.cause = .mismatched ")" ∧
        fault.offset = 5 ∧ ¬ Balanced ((codeAmong tokens).map Token.face) ∧
        ∃ e, IsFirstFault (codeAmong tokens) e ∧
          fault = Fault.ofOffset "f(a[0)]".toList e.1 e.2 := by
  constructor
  · obtain ⟨tokens, htokens⟩ : ∃ tokens, tokenize "f(a[0]) // ]".toList = .ok tokens :=
      ⟨[⟨.identifier, "f", 0⟩, ⟨.punctuation, "(", 1⟩, ⟨.identifier, "a", 2⟩,
        ⟨.punctuation, "[", 3⟩, ⟨.number, "0", 4⟩, ⟨.punctuation, "]", 5⟩,
        ⟨.punctuation, ")", 6⟩, ⟨.comment, "// ]", 8⟩], by decide +kernel⟩
    have hread : (Source.read "f(a[0]) // ]".toList).isOk = true := by decide +kernel
    cases hs : Source.read "f(a[0]) // ]".toList with
    | error e =>
      rw [hs] at hread
      cases hread
    | ok s =>
      rcases read_matchesBrackets htokens with ⟨hbalanced, hmap, -⟩
      exact ⟨tokens, s, htokens, rfl, hbalanced.mp ⟨s, hs⟩, (hmap s hs).2⟩
  · obtain ⟨tokens, htokens⟩ : ∃ tokens, tokenize "f(a[0)]".toList = .ok tokens :=
      ⟨[⟨.identifier, "f", 0⟩, ⟨.punctuation, "(", 1⟩, ⟨.identifier, "a", 2⟩,
        ⟨.punctuation, "[", 3⟩, ⟨.number, "0", 4⟩, ⟨.punctuation, ")", 5⟩,
        ⟨.punctuation, "]", 6⟩], by decide +kernel⟩
    have hfails : Source.read "f(a[0)]".toList = .error ⟨.mismatched ")", 5, ⟨1, 6⟩⟩ := by
      decide +kernel
    rcases read_matchesBrackets htokens with ⟨hbalanced, -, hfault⟩
    refine ⟨tokens, _, htokens, hfails, rfl, rfl, ?_, hfault _ hfails⟩
    rw [← hbalanced, hfails]
    exact nofun

end Source

end WasmPackage.Script
