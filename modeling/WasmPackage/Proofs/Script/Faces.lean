import WasmPackage.Proofs.Script.Reading
import WasmPackage.Proofs.Script.Walks

/-!
# Sources with known faces

What the outliner asks of the code at an index depends on the face of the token there, and on the
text of the comment that documents it.  Where the code is known to be balanced between two brackets,
one of them closes the other.
-/

namespace WasmPackage.Script

/-! ## Balanced code -/

/-- Is a token with this face a bracket? -/
def isBracket (f : Face) : Bool :=
  f.1 = .punctuation && (["(", "[", "\x7b"] ++ closers).contains f.2

/-- The brackets among tokens with these faces are matched. -/
inductive Balanced : List Face → Prop
  | nil : Balanced []
  | plain {f : Face} {r : List Face} : isBracket f = false → Balanced r → Balanced (f :: r)
  | group {w w' : String} {inner r : List Face} : (w, w') ∈ bracketPairs → Balanced inner →
    Balanced r → Balanced ((.punctuation, w) :: (inner ++ (.punctuation, w') :: r))

variable {faces faces' inner : List Face} {tokens : List Token} {i j : Nat} {x y : Token}
  {opened : List (Nat × Token)} {pairs : List (Nat × Nat)} {w w' : String}

theorem Balanced.append (h : Balanced faces) (h' : Balanced faces') :
    Balanced (faces ++ faces') := by
  induction h with
  | nil => exact h'
  | plain hf _ ih => exact .plain hf ih
  | group hpair hinner _ _ ih =>
    rw [List.cons_append, List.append_assoc, List.cons_append]
    exact .group hpair hinner ih

theorem Balanced.of_plain (h : ∀ f ∈ faces, isBracket f = false) : Balanced faces := by
  induction faces with
  | nil => exact .nil
  | cons f faces ih =>
    rw [List.forall_mem_cons] at h
    exact .plain h.1 (ih h.2)

theorem Balanced.flatMap {α : Type} {as : List α} {code : α → List Face}
    (h : ∀ a ∈ as, Balanced (code a)) : Balanced (as.flatMap code) := by
  induction as with
  | nil => exact .nil
  | cons a as ih =>
    rw [List.forall_mem_cons] at h
    exact h.1.append (ih h.2)

theorem closer?_eq_of_face (hx : x.face = (.punctuation, w)) (hpair : (w, w') ∈ bracketPairs) :
    x.closer? = some w' := by
  rcases Prod.mk.inj hx with ⟨hkind, rfl⟩
  rw [Token.closer?, if_pos hkind]
  simp only [bracketPairs, List.mem_cons, Prod.mk.injEq, List.not_mem_nil, or_false] at hpair ⊢
  rcases hpair with ⟨hw, rfl⟩ | ⟨hw, rfl⟩ | ⟨hw, rfl⟩ <;> rw [hw] <;> rfl

theorem closes_eq_of_face (hy : y.face = (.punctuation, w')) (hpair : (w, w') ∈ bracketPairs) :
    y.closer?.isSome = false ∧ y.closes = true := by
  rcases Prod.mk.inj hy with ⟨hkind, rfl⟩
  rw [Token.closer?, if_pos hkind, Token.closes, hkind]
  simp only [bracketPairs, List.mem_cons, Prod.mk.injEq, List.not_mem_nil, or_false] at hpair ⊢
  rcases hpair with ⟨-, hw⟩ | ⟨-, hw⟩ | ⟨-, hw⟩ <;> rw [hw] <;> decide

theorem closer?_of_isBracket (hx : isBracket x.face = false) :
    x.closer?.isSome = false ∧ x.closes = false := by
  by_cases hkind : x.kind = .punctuation
  · simp only [isBracket, Token.face, hkind, decide_true, Bool.true_and, closers, bracketPairs,
      List.map_cons, List.map_nil, List.cons_append, List.nil_append, List.contains_eq_mem,
      List.mem_cons, List.not_mem_nil, or_false, decide_eq_false_iff_not, not_or] at hx
    have hne {v : String} (h : ¬ x.text = v) : (x.text == v) = false := by simpa using h
    simp [Token.closer?, Token.closes, hkind, closers, bracketPairs, List.lookup_cons, hx, hne]
  · simp [Token.closer?, Token.closes, hkind]

theorem bracketsFrom_plain (hx : isBracket x.face = false) :
    bracketsFrom i opened (x :: tokens) = bracketsFrom (i + 1) opened tokens := by
  rcases closer?_of_isBracket hx with ⟨hopens, hcloses⟩
  cases opened <;> simp [bracketsFrom, hopens, hcloses]

theorem bracketsFrom_open (hx : x.face = (.punctuation, w)) (hpair : (w, w') ∈ bracketPairs) :
    bracketsFrom i opened (x :: tokens) = bracketsFrom (i + 1) ((i, x) :: opened) tokens := by
  cases opened <;> simp [bracketsFrom, closer?_eq_of_face hx hpair]

theorem bracketsFrom_close (hx : x.face = (.punctuation, w)) (hy : y.face = (.punctuation, w'))
    (hpair : (w, w') ∈ bracketPairs) :
    bracketsFrom i ((j, x) :: opened) (y :: tokens) =
      (bracketsFrom (i + 1) opened tokens).map ((j, i) :: ·) := by
  rcases closes_eq_of_face hy hpair with ⟨hopens, hcloses⟩
  have hsame : y.text = w' := (Prod.mk.inj hy).2
  simp [bracketsFrom, hopens, hcloses, closer?_eq_of_face hx hpair, hsame]

/-- The brackets of balanced code are matched among themselves, whatever stands around it. -/
theorem bracketsFrom_append_balanced (h : Balanced faces) (htokens : tokens.map Token.face = faces)
    (i : Nat) : ∃ pairs, (∀ p ∈ pairs, i ≤ p.1 ∧ p.2 < i + tokens.length) ∧
      ∀ opened rest, bracketsFrom i opened (tokens ++ rest) =
        (bracketsFrom (i + tokens.length) opened rest).map (pairs ++ ·) := by
  induction h generalizing tokens i with
  | nil =>
    rw [List.map_eq_nil_iff] at htokens
    subst htokens
    refine ⟨[], nofun, fun opened rest => ?_⟩
    cases hrest : bracketsFrom i opened rest <;> simp [hrest, Except.map]
  | @plain f r hf _ ih =>
    rcases List.map_eq_cons_iff.mp htokens with ⟨x, tokens, rfl, rfl, hrest⟩
    rcases ih hrest (i + 1) with ⟨pairs, hbounds, hpairs⟩
    refine ⟨pairs, ?_, fun opened rest => ?_⟩
    · intro p hp
      have := hbounds p hp
      simp only [List.length_cons]
      omega
    · rw [List.cons_append, bracketsFrom_plain hf, hpairs, List.length_cons]
      congr 2
      omega
  | @group w w' inner r hpair _ _ ihinner ih =>
    rcases List.map_eq_cons_iff.mp htokens with ⟨x, tokens, rfl, hx, htail⟩
    rcases List.map_eq_append_iff.mp htail with ⟨front, back, rfl, hfront, hback⟩
    rcases List.map_eq_cons_iff.mp hback with ⟨y, tokens, rfl, hy, hrest⟩
    rcases ihinner hfront (i + 1) with ⟨pairs, hbounds, hpairs⟩
    rcases ih hrest (i + 1 + front.length + 1) with ⟨pairs', hbounds', hpairs'⟩
    refine ⟨pairs ++ (i, i + 1 + front.length) :: pairs', ?_, fun opened rest => ?_⟩
    · intro p hp
      simp only [List.length_cons, List.length_append]
      rcases List.mem_append.mp hp with hp | hp
      · have := hbounds p hp
        omega
      · rcases List.mem_cons.mp hp with rfl | hp
        · simp only
          omega
        · have := hbounds' p hp
          omega
    · rw [List.cons_append, bracketsFrom_open hx hpair, List.append_assoc, hpairs,
        List.cons_append, bracketsFrom_close hx hy hpair, hpairs']
      simp only [List.length_cons, List.length_append]
      have hlength : i + 1 + front.length + 1 + tokens.length =
          i + (front.length + (tokens.length + 1) + 1) := by omega
      rw [hlength]
      cases bracketsFrom (i + (front.length + (tokens.length + 1) + 1)) opened rest with
      | error e => rfl
      | ok found => simp [Except.map]

/-- The brackets of balanced code are matched. -/
theorem exists_matchBrackets (h : Balanced (tokens.map Token.face)) :
    ∃ pairs, matchBrackets tokens = .ok pairs := by
  rcases bracketsFrom_append_balanced h rfl 0 with ⟨pairs, -, hpairs⟩
  have hall := hpairs [] []
  rw [List.append_nil] at hall
  exact ⟨_, by rw [matchBrackets, hall]; rfl⟩

/-- The pairs that are found in the first part of some code close there. -/
theorem bracketsFrom_append {rest : List Token}
    (h : bracketsFrom i opened (tokens ++ rest) = .ok pairs) :
    ∃ opened' front back, pairs = front ++ back ∧ (∀ p ∈ front, p.2 < i + tokens.length) ∧
      bracketsFrom (i + tokens.length) opened' rest = .ok back := by
  induction tokens generalizing i opened pairs with
  | nil => exact ⟨opened, [], pairs, rfl, nofun, h⟩
  | cons x tokens ih =>
    have hlength : i + 1 + tokens.length = i + (x :: tokens).length := by
      simp only [List.length_cons]
      omega
    rw [List.cons_append] at h
    unfold bracketsFrom at h
    split at h
    · rw [← hlength]
      exact ih h
    · split at h
      · split at h
        · cases h
        · split at h
          · next j o outer hclose =>
            cases hrest : bracketsFrom (i + 1) outer (tokens ++ rest) with
            | error e =>
              rw [hrest] at h
              cases h
            | ok found =>
              rw [hrest] at h
              cases h
              rcases ih hrest with ⟨opened', front, back, rfl, hfront, hback⟩
              rw [← hlength]
              refine ⟨opened', (j, i) :: front, back, rfl, ?_, hback⟩
              rw [List.forall_mem_cons]
              exact ⟨by simp only; omega, hfront⟩
          · cases h
      · rw [← hlength]
        exact ih h

/-! ## Cells -/

/-- What the outliner sees of a code token: its face, and the text of the comment that documents
it. -/
abbrev Cell := Face × Option Text

/-- The cells of the code among tokens with these faces; `pending` is the text of a comment met
already. -/
def cellsFrom (pending : Option Text) : List Face → List Cell
  | [] => []
  | f :: r =>
    if f.1 = .comment then
      if Text.startsWith f.2.toList "/**".toList then cellsFrom (some f.2.toList) r
      else cellsFrom pending r
    else (f, pending) :: cellsFrom none r

theorem map_documented (pending : Option DocComment) (tokens : List Token) :
    (documented pending tokens).map (fun p => (p.1.face, p.2.map DocComment.text)) =
      cellsFrom (pending.map DocComment.text) (tokens.map Token.face) := by
  fun_induction documented pending tokens with
  | case1 => rfl
  | case2 pending x r hcomment hdoc ih =>
    have hkind : x.face.1 = .comment := hcomment
    have hstart : Text.startsWith x.face.2.toList "/**".toList = true := hdoc
    rw [List.map_cons, cellsFrom, if_pos hkind, if_pos hstart, ih]
    rfl
  | case3 pending x r hcomment hdoc ih =>
    have hkind : x.face.1 = .comment := hcomment
    have hstart : ¬ Text.startsWith x.face.2.toList "/**".toList = true := hdoc
    rw [List.map_cons, cellsFrom, if_pos hkind, if_neg hstart, ih]
  | case4 pending x r hcomment ih => simpa [cellsFrom, Token.face, hcomment] using ih

/-- The code among tokens with these faces. -/
theorem map_fst_cellsFrom (pending : Option Text) (faces : List Face) :
    (cellsFrom pending faces).map Prod.fst = faces.filter (fun f => f.1 ≠ .comment) := by
  fun_induction cellsFrom pending faces with
  | case1 => rfl
  | case2 pending f r hcomment hdoc ih => simpa [hcomment] using ih
  | case3 pending f r hcomment hdoc ih => simpa [hcomment] using ih
  | case4 pending f r hcomment ih => simpa [hcomment] using ih

/-- The faces of the tokens that cells are made of: comments stand before what they document. -/
def facesOf : List Cell → List Face
  | [] => []
  | (f, none) :: r => f :: facesOf r
  | (f, some d) :: r => (.comment, String.ofList d) :: f :: facesOf r

theorem facesOf_append (cells cells' : List Cell) :
    facesOf (cells ++ cells') = facesOf cells ++ facesOf cells' := by
  fun_induction facesOf cells with
  | case1 => rfl
  | case2 f r ih => rw [List.cons_append, facesOf, ih, List.cons_append]
  | case3 f d r ih => rw [List.cons_append, facesOf, ih, List.cons_append, List.cons_append]

theorem ReadsAs.flatMap [Limits] {α : Type} {as : List α} {text : α → Text} {code : α → List Cell}
    {t : Text} (hread : ∀ a ∈ as, ∀ t faces, ReadsAs t faces →
      ReadsAs (text a ++ t) (facesOf (code a) ++ faces))
    (ht : ReadsAs t faces) :
    ReadsAs (as.flatMap text ++ t) (facesOf (as.flatMap code) ++ faces) := by
  induction as with
  | nil => exact ht
  | cons a as ih =>
    rw [List.forall_mem_cons] at hread
    rw [List.flatMap_cons, List.flatMap_cons, facesOf_append, List.append_assoc, List.append_assoc]
    exact hread.1 _ _ (ih hread.2)

/-- Code, and none of its comments is one that documents nothing. -/
def IsCode (cells : List Cell) : Prop :=
  ∀ cell ∈ cells, cell.1.1 ≠ .comment ∧ ∀ d ∈ cell.2, Text.startsWith d "/**".toList = true

theorem IsCode.of_undocumented {cells : List Cell}
    (h : ∀ cell ∈ cells, cell.1.1 ≠ .comment ∧ cell.2 = none) : IsCode cells := by
  intro cell hcell
  obtain ⟨hkind, hdoc⟩ := h cell hcell
  rw [hdoc]
  exact ⟨hkind, nofun⟩

theorem IsCode.append {cells cells' : List Cell} (h : IsCode cells) (h' : IsCode cells') :
    IsCode (cells ++ cells') := by
  intro cell hcell
  rcases List.mem_append.mp hcell with hcell | hcell
  · exact h cell hcell
  · exact h' cell hcell

theorem IsCode.flatMap {α : Type} {as : List α} {code : α → List Cell}
    (h : ∀ a ∈ as, IsCode (code a)) : IsCode (as.flatMap code) := by
  intro cell hcell
  obtain ⟨a, ha, hcell⟩ := List.mem_flatMap.mp hcell
  exact h a ha cell hcell

theorem cellsFrom_append {cells : List Cell} (h : IsCode cells) (faces : List Face) :
    cellsFrom none (facesOf cells ++ faces) = cells ++ cellsFrom none faces := by
  fun_induction facesOf cells with
  | case1 => rfl
  | case2 f r ih =>
    obtain ⟨⟨hkind, -⟩, hr⟩ := List.forall_mem_cons.mp h
    rw [List.cons_append, cellsFrom, if_neg hkind, ih hr, List.cons_append]
  | case3 f d r ih =>
    obtain ⟨⟨hkind, hdoc⟩, hr⟩ := List.forall_mem_cons.mp h
    rw [List.cons_append, List.cons_append, cellsFrom, if_pos rfl, String.toList_ofList,
      if_pos (hdoc d rfl), cellsFrom, if_neg hkind, ih hr, List.cons_append]

namespace Source

variable {t : Text} {s : Source} {cells cells' : List Cell} {cell : Cell} {k : TokenKind}
  {doc doc' : Option Text} {words : List String}

/-- What stands at an index of the code. -/
def cell? (s : Source) (i : Nat) : Option Cell :=
  s.code[i]?.map fun x => (x.face, (s.doc? i).map DocComment.text)

/-- From index `i` on, the code of the source reads like this. -/
def Shows (s : Source) (i : Nat) (cells : List Cell) : Prop :=
  ∀ k, ∀ cell ∈ cells[k]?, s.cell? (i + k) = some cell

theorem shows_cons_iff :
    s.Shows i (cell :: cells) ↔ s.cell? i = some cell ∧ s.Shows (i + 1) cells := by
  constructor
  · intro h
    refine ⟨h 0 cell rfl, ?_⟩
    intro k c hc
    rw [Nat.add_assoc, Nat.add_comm 1 k]
    exact h (k + 1) c hc
  · rintro ⟨hfirst, hrest⟩ k c hc
    cases k with
    | zero =>
      cases hc
      exact hfirst
    | succ k =>
      rw [Nat.add_comm k 1, ← Nat.add_assoc]
      exact hrest k c hc

theorem Shows.append_left (h : s.Shows i (cells ++ cells')) : s.Shows i cells := by
  intro k c hc
  rw [Option.mem_def] at hc
  apply h k c
  rw [Option.mem_def, List.getElem?_append_left (List.getElem?_eq_some_iff.mp hc).1, hc]

theorem Shows.append_right (h : s.Shows i (cells ++ cells')) :
    s.Shows (i + cells.length) cells' := by
  intro k c hc
  rw [Nat.add_assoc]
  apply h (cells.length + k) c
  rwa [List.getElem?_append_right (Nat.le_add_right _ _), Nat.add_sub_cancel_left]

/-- The code tokens from index `i` on, as far as they are known. -/
theorem Shows.drop_eq (h : s.Shows i cells) :
    ∃ tokens rest, s.code.toList.drop i = tokens ++ rest ∧
      tokens.map Token.face = cells.map Prod.fst := by
  induction cells generalizing i with
  | nil => exact ⟨[], _, rfl, rfl⟩
  | cons cell cells ih =>
    rcases shows_cons_iff.mp h with ⟨hfirst, hrest⟩
    rcases ih hrest with ⟨tokens, rest, hdrop, hfaces⟩
    rcases Option.map_eq_some_iff.mp hfirst with ⟨x, hx, rfl⟩
    rw [← Array.getElem?_toList] at hx
    rcases List.getElem?_eq_some_iff.mp hx with ⟨hi, rfl⟩
    refine ⟨s.code.toList[i] :: tokens, rest, ?_, ?_⟩
    · rw [List.drop_eq_getElem_cons hi, hdrop]
      rfl
    · simp [hfaces]

/-! ### Reading -/

/-- A text that is read as tokens with these faces, and whose brackets are matched, is a script. -/
theorem read_of_readsAs [Limits] (h : ReadsAs t faces)
    (hbalanced : Balanced ((cellsFrom none faces).map Prod.fst)) :
    ∃ s, Source.read t = .ok s ∧ s.size = (cellsFrom none faces).length ∧
      s.Shows 0 (cellsFrom none faces) := by
  rcases h 0 none with ⟨tokens, hread, rfl⟩
  have hcells := map_documented none tokens
  rw [Option.map_none] at hcells
  have hcode : ((documented none tokens).map Prod.fst).map Token.face =
      (cellsFrom none (tokens.map Token.face)).map Prod.fst := by
    rw [← hcells]
    simp [Function.comp_def]
  rw [← hcode] at hbalanced
  rcases exists_matchBrackets hbalanced with ⟨pairs, hpairs⟩
  refine ⟨⟨t, tokens, ((documented none tokens).map (·.1)).toArray,
    ((documented none tokens).map (·.2)).toArray, pairs⟩, ?_, ?_, ?_⟩
  · rw [Source.read, tokenize, hread]
    simp only [Except.mapError, bind, Except.bind, hpairs]
    rfl
  · simp [size, ← hcells]
  · intro k cell hcell
    rw [← hcells, List.getElem?_map, Option.mem_def, Option.map_eq_some_iff] at hcell
    rcases hcell with ⟨p, hp, rfl⟩
    simp [cell?, doc?, hp]

/-! ### Asking -/

theorem is_eq_of_cell? (h : s.cell? i = some ((k, w'), doc)) (w : String) :
    s.is w i = (w' = w && (k = .punctuation || k = .identifier)) := by
  rcases Option.map_eq_some_iff.mp h with ⟨x, hx, hface⟩
  cases hface
  simp [is, hx, Token.is]

theorem word?_eq_of_cell? (h : s.cell? i = some ((k, w), doc)) : s.word? i = some w := by
  rcases Option.map_eq_some_iff.mp h with ⟨x, hx, hface⟩
  cases hface
  exact word?_eq hx

theorem wordIn_eq_of_cell? (h : s.cell? i = some ((k, w), doc)) (words : List String) :
    s.wordIn words i = words.contains w := by
  rw [wordIn, word?_eq_of_cell? h, Option.any_some]

theorem kind?_eq_of_cell? (h : s.cell? i = some ((k, w), doc)) : s.kind? i = some k := by
  rcases Option.map_eq_some_iff.mp h with ⟨x, hx, hface⟩
  cases hface
  exact kind?_eq hx

theorem doc?_of_cell? (h : s.cell? i = some ((k, w), doc)) :
    (s.doc? i).map DocComment.text = doc := by
  rcases Option.map_eq_some_iff.mp h with ⟨x, hx, hface⟩
  cases hface
  rfl

theorem lt_size_of_cell? (h : s.cell? i = some cell) : i < s.size := by
  rcases Option.map_eq_some_iff.mp h with ⟨x, hx, -⟩
  exact lt_size_of_getElem? hx

/-- A token that is no bracket is not closed. -/
theorem closer?_eq_none [Limits] (hs : Source.read t = .ok s) (h : s.cell? i = some cell)
    (hbracket : isBracket cell.1 = false) : s.closer? i = none := by
  rcases Option.map_eq_some_iff.mp h with ⟨x, hx, rfl⟩
  cases hj : s.closer? i with
  | none => rfl
  | some j =>
    rcases (pairing_of_read hs).closed _ (mem_brackets_of_closer? hj)
      with ⟨x', y, hx', -, hclose, -⟩
    rw [Array.getElem?_toList, hx, Option.some.injEq] at hx'
    subst hx'
    have hopens := (closer?_of_isBracket hbracket).1
    rw [hclose] at hopens
    cases hopens

/-- Behind balanced code the bracket is closed that was opened before it. -/
theorem closer?_eq_some [Limits] (hs : Source.read t = .ok s)
    (h : s.Shows i (((.punctuation, w), doc) :: (cells ++ [((.punctuation, w'), doc')])))
    (hpair : (w, w') ∈ bracketPairs) (hinner : Balanced (cells.map Prod.fst)) :
    s.closer? i = some (i + cells.length + 1) := by
  rcases h.drop_eq with ⟨tokens, rest, hdrop, hfaces⟩
  rw [List.map_cons, List.map_append] at hfaces
  rcases List.map_eq_cons_iff.mp hfaces with ⟨x, tokens, rfl, hx, hfaces⟩
  rcases List.map_eq_append_iff.mp hfaces with ⟨inner, last, rfl, hinside, hlast⟩
  rcases List.map_eq_cons_iff.mp hlast with ⟨y, last, rfl, hy, hlast⟩
  rw [List.map_nil, List.map_eq_nil_iff] at hlast
  subst hlast
  have hi : i < s.code.toList.length := by
    by_contra hge
    rw [List.drop_eq_nil_of_le (Nat.le_of_not_lt hge)] at hdrop
    cases hdrop
  have hlength : inner.length = cells.length := by
    simpa using congrArg List.length hinside
  have hbrackets := (read_eq_ok hs).2.2.2.2
  rw [matchBrackets, ← List.take_append_drop i s.code.toList, hdrop] at hbrackets
  rcases bracketsFrom_append hbrackets with ⟨opened, front, back, hpairs, hfront, hback⟩
  rw [List.length_take_of_le (Nat.le_of_lt hi), Nat.zero_add] at hfront hback
  rcases bracketsFrom_append_balanced hinner hinside (i + 1) with ⟨pairs, hbounds, hmatched⟩
  rw [List.cons_append, bracketsFrom_open hx hpair, List.append_assoc, hmatched,
    List.singleton_append, bracketsFrom_close hx hy hpair] at hback
  cases hrest : bracketsFrom (i + 1 + inner.length + 1) opened rest with
  | error e =>
    rw [hrest] at hback
    cases hback
  | ok found =>
    rw [hrest] at hback
    cases hback
    -- what closes before the bracket opens before it, and what is inside opens behind it
    have hother : ∀ p ∈ front ++ pairs, (i != p.1) = true := by
      intro p hp
      rw [bne_iff_ne]
      rcases List.mem_append.mp hp with hp | hp
      · have hmem : p ∈ s.brackets := by
          rw [hpairs]
          exact List.mem_append_left _ hp
        have := ((pairing_of_read hs).bounds p hmem).2.1
        have := hfront p hp
        omega
      · have := hbounds p hp
        omega
    rw [closer?, List.lookup_eq_some_iff]
    refine ⟨front ++ pairs, found, ?_, hother⟩
    rw [hpairs, List.append_assoc, hlength, Nat.add_right_comm i 1]

end Source

end WasmPackage.Script
