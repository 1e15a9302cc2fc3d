import Mathlib.Data.List.Pairwise
import WasmPackage.Proofs.Script.Cuts

/-!
# Names that a script binds at its top level

A class and a function bind their names.  The names that a statement binds are found by one walk
over its tokens, which knows at each place what may stand there: in a list of variables or of
imports a name or a pattern, in the pattern of an object the name of a property, and elsewhere what
binds nothing.  What stands in brackets that are no pattern binds nothing at the top level: a `var`
in a block or in the head of a loop, whose names a script hoists out of it, is not counted.
-/

namespace WasmPackage.Script

/-! ## The walk -/

/-- What may stand at a place of a statement. -/
inductive Expected
  /-- what binds no name -/
  | anything
  /-- a name or a pattern to bind -/
  | target
  /-- the name of a property in the pattern of an object, or of what is imported -/
  | property
  /-- the word between the name of a property and what is bound to it -/
  | separator
  /-- the name of a class or a function -/
  | name
deriving DecidableEq, Repr

/-- A place in a statement: what may stand there, and what behind the next comma. -/
structure Spot where
  here : Expected
  behindComma : Expected
deriving DecidableEq, Repr

namespace Spot

/-- The words between the name of a property and what is bound to it. -/
def separators : List String := [":", "as"]

/-- A place that binds nothing. -/
def loose : Spot := ⟨.anything, .anything⟩

/-- A place in a list of names and patterns. -/
def targets : Spot := ⟨.target, .target⟩

/-- A place in the pattern of an object. -/
def properties : Spot := ⟨.property, .property⟩

/-- The place behind a bracket that opens. -/
def inside (p : Spot) (bracket : String) : Spot :=
  if p.here = .target && bracket = "[" then targets
  else if p.here = .target && bracket = "\x7b" then properties
  else loose

/-- The place behind brackets; the name of a property may be computed in them. -/
def past (p : Spot) : Spot :=
  { p with here := if p.here = .property then .separator else .anything }

/-- Does the token bind its text, with `next` behind it? -/
def binds (p : Spot) (x : Token) (next : Option Token) : Bool :=
  x.kind = .identifier &&
    match p.here with
    | .target => true
    | .property => !next.any (fun y => separators.contains y.text)
    -- a class without a name may extend another
    | .name => x.text ≠ "extends"
    | .separator | .anything => false

/-- The place behind a token that is no bracket. -/
def behind (p : Spot) (x : Token) (next : Option Token) : Spot :=
  if x.text = "," then { p with here := p.behindComma }
  else
    { p with here :=
        match p.here with
        | .target =>
          if x.text = "..." then .target
          -- all that a module exports is imported under one name
          else if x.text = "*" then .separator
          else .anything
        | .property =>
          if x.text = "..." then .target
          else if p.binds x next then .anything
          else .separator
        | .separator => if separators.contains x.text then .target else .anything
        | .name => if x.text = "*" then .name else .anything
        | .anything => .anything }

end Spot

/-- The words that begin declarations of names. -/
def declaringWords : List String := Outline.variableWords ++ ["import", "class", "function"]

/-- The place behind a word that begins a declaration, at the front of a statement or behind a
semicolon that is missing.  An `import` may also be an expression, and so may a class and a function
where an operand may stand. -/
def declaration? (previous : Option Token) (x : Token) (next : Option Token) : Option Spot :=
  let isList := Outline.variableWords.contains x.text ||
    (x.text = "import" && !next.any (fun y => ["(", "."].contains y.text))
  if isList then
    if previous.any (fun p => p.text = ".") then none else some .targets
  else if ["class", "function"].contains x.text then
    if previous.all (fun p => !regexMayFollow (some p) && p.text ≠ "extends") then
      some ⟨.name, .anything⟩
    else none
  else none

/-- The tokens that bind names in the rest of a statement, at the place `p` in brackets that are
followed by the places `outer`. -/
def boundFrom (outer : List Spot) (p : Spot) (previous : Option Token) : List Token → List Token
  | [] => []
  | x :: r =>
    if x.closer?.isSome then boundFrom (p.past :: outer) (p.inside x.text) (some x) r
    else if x.closes then
      match outer with
      | [] => boundFrom [] .loose (some x) r
      | q :: outer => boundFrom outer q (some x) r
    else
      let isFree := outer.isEmpty && p.here = .anything
      let q :=
        ((if isFree then declaration? previous x r.head? else none)).getD (p.behind x r.head?)
      -- a function that is asynchronous stands where this word does
      let before :=
        if x.text = "async" && r.head?.any (fun y => y.text = "function") then previous else some x
      if p.binds x r.head? then x :: boundFrom outer q before r else boundFrom outer q before r

/-- The tokens that bind names in a statement. -/
def boundIn (tokens : List Token) : List Token :=
  boundFrom [] .loose none tokens

/-! ## Items -/

/-- The token that names the class which these tokens begin, if it has a name. -/
def className (tokens : List Token) : List Token :=
  match tokens.dropWhile (fun x => declarationModifiers.contains x.text) with
  | _ :: x :: _ => if x.kind = .identifier && x.text ≠ "extends" then [x] else []
  | _ => []

/-- The tokens that bind names in an item, by declarations that are not in a block or in the head of
a loop. -/
def Item.bound (it : Item) (tokens : List Token) : List Token :=
  match it with
  | .classDecl _ => className tokens
  | .function f => tokens.filter (fun x => x.start = f.nameStart && x.kind = .identifier)
  | .statement _ => boundIn tokens

/-- The first name of a list of variables that is not exported. -/
def firstVariable? : List Token → Option Token
  | x :: y :: _ => if Outline.variableWords.contains x.text then some y else none
  | _ => none

/-- Do the names of the outline miss what this token binds in an item?  They have, of a statement,
only the first name of a list of variables. -/
def Item.misses (it : Item) (tokens : List Token) (x : Token) : Bool :=
  match it with
  | .statement _ => firstVariable? tokens ≠ some x
  | _ => false

namespace Outline

/-- The code tokens of an item. -/
def tokensOf (o : Outline) (it : Item) : List Token :=
  o.tokensWithin it.start it.stop

/-- The tokens that bind names at the top level, but for what is hoisted out of blocks and loops. -/
def bound (o : Outline) : List Token :=
  o.items.flatMap (fun it => it.bound (o.tokensOf it))

/-- The tokens that bind names at the top level which the names of the outline miss. -/
def missed (o : Outline) : List Token :=
  o.items.flatMap (fun it => (it.bound (o.tokensOf it)).filter (it.misses (o.tokensOf it)))

end Outline

/-! ## What is bound stands in the item -/

variable {t : Text} {o : Outline} {s : Source} {it : Item} {x y : Token} {tokens : List Token}
  {outer : List Spot} {p : Spot} {previous : Option Token} {i j keyword next : Nat}

theorem boundFrom_sublist : (boundFrom outer p previous tokens).Sublist tokens := by
  fun_induction boundFrom outer p previous tokens with
  | case1 => exact .slnil
  | case2 outer p previous x r hopens ih => exact ih.cons x
  | case3 p previous x r hopens hcloses ih => exact ih.cons x
  | case4 p previous x r hopens hcloses q outer ih => exact ih.cons x
  | case5 outer p previous x r hopens hcloses isFree q before hbinds ih => exact ih.cons_cons x
  | case6 outer p previous x r hopens hcloses isFree q before hbinds ih => exact ih.cons x

theorem kind_of_boundFrom (hx : x ∈ boundFrom outer p previous tokens) : x.kind = .identifier := by
  fun_induction boundFrom outer p previous tokens with
  | case1 => cases hx
  | case2 outer p previous y r hopens ih => exact ih hx
  | case3 p previous y r hopens hcloses ih => exact ih hx
  | case4 p previous y r hopens hcloses q outer ih => exact ih hx
  | case5 outer p previous y r hopens hcloses isFree q before hbinds ih =>
    rcases List.mem_cons.mp hx with rfl | hx
    · rw [Spot.binds, Bool.and_eq_true, decide_eq_true_eq] at hbinds
      exact hbinds.1
    · exact ih hx
  | case6 outer p previous y r hopens hcloses isFree q before hbinds ih => exact ih hx

/-- Without a word that begins a declaration a statement binds nothing. -/
theorem boundFrom_eq_nil (houter : ∀ q ∈ outer, q = .loose)
    (h : ∀ x ∈ tokens, x.text ∉ declaringWords) : boundFrom outer .loose previous tokens = [] := by
  have hnone {x : Token} {previous next : Option Token} (hx : x.text ∉ declaringWords) :
      declaration? previous x next = none := by
    simp only [declaringWords, Outline.variableWords, List.cons_append, List.nil_append,
      List.mem_cons, List.not_mem_nil, or_false, not_or] at hx
    simp [declaration?, Outline.variableWords, hx]
  have hloose (x : Token) (next : Option Token) : Spot.behind .loose x next = .loose := by
    unfold Spot.behind
    split <;> rfl
  -- on the tokens; no place binds anything, nor does any behind the brackets that are open
  induction tokens generalizing outer previous with
  | nil => rfl
  | cons x r ih =>
    obtain ⟨hx, hr⟩ := List.forall_mem_cons.mp h
    unfold boundFrom
    split
    · exact ih (List.forall_mem_cons.mpr ⟨rfl, houter⟩) hr
    · split
      · cases outer with
        | nil => exact ih houter hr
        | cons q outer =>
          obtain ⟨rfl, hrest⟩ := List.forall_mem_cons.mp houter
          exact ih hrest hr
      · have hbinds : Spot.loose.binds x r.head? = false := Bool.and_false _
        simp only [hnone hx, ite_self, Option.getD_none, hloose, hbinds]
        exact ih houter hr

theorem className_sublist (tokens : List Token) : (className tokens).Sublist tokens := by
  unfold className
  split
  · next first x rest hdrop =>
    split
    · have hsub := List.dropWhile_sublist (fun x : Token => declarationModifiers.contains x.text)
        (l := tokens)
      rw [hdrop] at hsub
      exact (List.singleton_sublist.mpr (by simp)).trans hsub
    · exact List.nil_sublist tokens
  · exact List.nil_sublist tokens

theorem kind_of_className (hx : x ∈ className tokens) : x.kind = .identifier := by
  unfold className at hx
  split at hx
  · split at hx
    · next hname =>
      rw [Bool.and_eq_true, decide_eq_true_eq] at hname
      rw [List.mem_singleton.mp hx]
      exact hname.1
    · cases hx
  · cases hx

theorem Item.bound_sublist (it : Item) (tokens : List Token) :
    (it.bound tokens).Sublist tokens := by
  cases it with
  | classDecl c => exact className_sublist tokens
  | function f => exact List.filter_sublist
  | statement st => exact boundFrom_sublist

theorem Item.kind_of_bound (hx : x ∈ it.bound tokens) : x.kind = .identifier := by
  cases it with
  | classDecl c => exact kind_of_className hx
  | function f =>
    have hfound := (List.mem_filter.mp hx).2
    rw [Bool.and_eq_true, decide_eq_true_eq, decide_eq_true_eq] at hfound
    exact hfound.2
  | statement st => exact kind_of_boundFrom hx

/-! ## The tokens of an item -/

/-- An identifier is a word. -/
theorem IsLexeme.isWord [Limits] {flag : Bool} (h : IsLexeme flag x)
    (hkind : x.kind = .identifier) :
    isWord x.text = true := by
  obtain ⟨c, r, htext, -, hlexes⟩ := h
  rw [hkind] at hlexes
  generalize hn : r.length = n at hlexes
  cases hlexes with
  | identifier hstart =>
    have hrun : r.takeWhile continuesIdentifier = r :=
      (List.takeWhile_prefix continuesIdentifier).eq_of_length hn.symm
    rw [Script.isWord, htext]
    simp only [hstart, Bool.true_and]
    rw [← hrun]
    exact List.all_takeWhile

namespace Source

/-- No character of an identifier is a blank. -/
theorem isInkAt_of_identifier [Limits] (hs : Source.read t = .ok s) (hx : x ∈ s.code.toList)
    (hkind : x.kind = .identifier) (hstart : x.start ≤ i) (hi : i < x.stop) : t.IsInkAt i := by
  obtain ⟨flag, hlexeme⟩ := isLexeme_of_code hs hx
  have hplace := (standIn_code hs).within x hx
  have hlength : i < t.length := by omega
  refine ⟨t[i], List.getElem?_eq_getElem hlength, ?_⟩
  have hmem : t[i] ∈ x.text.toList := by
    rw [← slice_of_code hs hx]
    exact Text.mem_slice_iff.mpr ⟨i, hstart, hi, List.getElem?_eq_getElem hlength⟩
  have hname := continuesIdentifier_of_isWord (hlexeme.isWord hkind) _ hmem
  rw [Bool.eq_false_iff]
  intro hblank
  rw [continuesIdentifier_of_isBlank hblank] at hname
  cases hname

theorem toList_extract_cons (hx : s.code[i]? = some x) (hij : i < j) :
    (s.code.extract i j).toList = x :: (s.code.extract (i + 1) j).toList := by
  rw [← Array.getElem?_toList] at hx
  obtain ⟨hlt, rfl⟩ := List.getElem?_eq_some_iff.mp hx
  rw [Array.toList_extract, Array.toList_extract, List.extract_eq_take_drop,
    List.extract_eq_take_drop, List.drop_eq_getElem_cons hlt]
  have hlength : j - i = j - (i + 1) + 1 := by omega
  rw [hlength, List.take_succ_cons]

/-- The code tokens from where one begins to where one ends are those between their indices. -/
theorem codeIn_eq_extract [Limits] (hs : Source.read t = .ok s) (hij : i < j) (hj : j ≤ s.size) :
    s.codeIn (s.startAt i) (s.stopAt (j - 1)) = (s.code.extract i j).toList := by
  have hsize : s.size = s.code.toList.length := Array.length_toList.symm
  have hi : i < s.code.toList.length := by omega
  have hlast : j - 1 - i < (s.code.toList.drop i).length := by
    rw [List.length_drop]
    omega
  have hstand := standIn_code hs
  have hstart : s.startAt i = s.code.toList[i].start :=
    startAt_eq (by rw [← Array.getElem?_toList, List.getElem?_eq_getElem hi])
  have hstop : s.stopAt (j - 1) = (s.code.toList.drop i)[j - 1 - i].stop := by
    refine stopAt_eq ?_
    rw [← Array.getElem?_toList, List.getElem_drop, ← List.getElem?_eq_getElem]
    congr 1
    omega
  -- what begins behind the first token, and of this what ends before the last one
  have hbehind : s.code.toList.filter (s.startAt i ≤ ·.start) = s.code.toList.drop i := by
    have hsplit : s.code.toList.take i ++ s.code.toList[i] :: s.code.toList.drop (i + 1) =
        s.code.toList := by
      rw [← List.drop_eq_getElem_cons hi, List.take_append_drop]
    have hfilter := StandIn.filter_start (hsplit.symm ▸ hstand)
    rw [hsplit, ← List.drop_eq_getElem_cons hi] at hfilter
    rw [hstart]
    exact hfilter.1
  have hbefore : (s.code.toList.drop i).filter (·.stop ≤ s.stopAt (j - 1)) =
      (s.code.toList.drop i).take (j - i) := by
    have hsplit : (s.code.toList.drop i).take (j - 1 - i) ++ (s.code.toList.drop i)[j - 1 - i] ::
        (s.code.toList.drop i).drop (j - 1 - i + 1) = s.code.toList.drop i := by
      rw [← List.drop_eq_getElem_cons hlast, List.take_append_drop]
    have hstand' := hstand.sublist (List.drop_sublist i s.code.toList)
    have hfilter := StandIn.filter_stop (hsplit.symm ▸ hstand')
    rw [hsplit, ← List.take_succ_eq_append_getElem hlast] at hfilter
    have hlength : j - i = j - 1 - i + 1 := by omega
    rw [hstop, hlength]
    exact hfilter.1
  rw [Array.toList_extract, List.extract_eq_take_drop, ← hbefore, ← hbehind, List.filter_filter,
    codeIn]
  apply List.filter_congr
  intro x _
  exact Bool.and_comm _ _

/-- The code tokens of a class or a statement are those from where it was read on up to where the
next item is. -/
theorem codeIn_of_item [Limits] (hs : Source.read t = .ok s) (hi : i < s.size)
    (h : s.item i = .ok (it, next)) (hit : ∀ f, it ≠ .function f) :
    s.codeIn it.start it.stop = (s.code.extract i next).toList := by
  obtain ⟨last, hle, -, hnext, hstart, hstop, hends⟩ := item_span hs hi h
  have hlast : last + 1 = next := hends.mpr fun f hf => (hit f hf).elim
  subst hlast
  have hcode := codeIn_eq_extract hs (Nat.lt_succ_of_le hle) hnext
  rwa [Nat.succ_sub_one, ← hstart, ← hstop] at hcode

theorem dropWhile_modifiers (hj : s.behindModifiers i < j) (hsize : j ≤ s.size) :
    (s.code.extract i j).toList.dropWhile (fun x => declarationModifiers.contains x.text) =
      (s.code.extract (s.behindModifiers i) j).toList := by
  have htoken {k : Nat} (hk : k < s.size) : s.code[k]? = some s.code[k] :=
    Array.getElem?_eq_getElem hk
  fun_induction behindModifiers s i with
  | case1 i hi hmodifier ih =>
    have hle := s.le_behindModifiers (i := i + 1)
    rw [toList_extract_cons (htoken hi) (by omega), List.dropWhile_cons_of_pos, ih hj]
    simpa [wordIn, word?, htoken hi] using hmodifier
  | case2 i hi hother =>
    rw [toList_extract_cons (htoken hi) hj, List.dropWhile_cons_of_neg]
    simpa [wordIn, word?, htoken hi] using hother
  | case3 i hi => omega

/-- The name of a class is the text of the token that names it, which stands before its body. -/
theorem className_of_item [Limits] {c : ClassShape} (hs : Source.read t = .ok s) (hi : i < s.size)
    (h : s.item i = .ok (.classDecl c, next)) (hx : x ∈ className (s.codeIn c.start c.stop)) :
    x.text = c.name ∧ x.stop ≤ c.bodyOpen := by
  have hplaced := (isPlaced_of_read hs).2
  have hcode : s.codeIn c.start c.stop = (s.code.extract i next).toList :=
    codeIn_of_item hs hi h nofun
  obtain ⟨left, close, hleft, hclose, -, rfl, rfl⟩ := classDecl_eq_ok hs (classDecl_of_item h)
  have hlt := lt_of_closer? hs hclose
  have hkeyword : s.behindModifiers i < s.size := by omega
  have hname : s.behindModifiers i + 1 < s.size := by omega
  -- behind the modifiers stand the keyword and the name
  rw [hcode, className, dropWhile_modifiers (by omega) (by omega),
    toList_extract_cons (Array.getElem?_eq_getElem hkeyword) (by omega),
    toList_extract_cons (Array.getElem?_eq_getElem hname) (by omega)] at hx
  simp only at hx
  split at hx
  · rw [List.mem_singleton.mp hx]
    have hget := Array.getElem?_eq_getElem hname
    constructor
    · simp [word?_eq hget]
    · rw [← stopAt_eq hget]
      exact hplaced.stopAt_le_startAt hname (by omega)
  · cases hx

/-- A function stands at its name. -/
theorem functionDecl_name {f : FunctionShape} {exported : ExportKind}
    (h : s.functionDecl i keyword exported = .ok (f, next)) :
    ∃ x ∈ s.code.toList, x.text = f.name ∧ x.start = f.nameStart ∧ x.stop = f.nameStop := by
  unfold functionDecl at h
  simp only at h
  generalize (if s.is "async" keyword then keyword + 2 else keyword + 1) = behindKeyword at h
  generalize (if s.is "*" behindKeyword then behindKeyword + 1 else behindKeyword) = name at h
  cases hget : s.code[name]? with
  | none =>
    rw [word?, hget] at h
    cases h
  | some x =>
    rw [word?_eq hget] at h
    simp only at h
    split at h
    · cases h
      rw [← Array.getElem?_toList] at hget
      refine ⟨x, List.mem_of_getElem? hget, rfl, ?_, ?_⟩
      · exact (startAt_eq (by rwa [Array.getElem?_toList] at hget)).symm
      · exact (stopAt_eq (by rwa [Array.getElem?_toList] at hget)).symm
    · cases h

end Source

/-! ## Names of an outline -/

/-- Tokens of a script that begin at the same place are the same. -/
theorem StandIn.eq_of_start_eq {start stop : Nat} (h : StandIn start stop tokens) (hx : x ∈ tokens)
    (hy : y ∈ tokens) (hstart : x.start = y.start) : x = y := by
  by_contra hne
  have hsymm : Std.Symm fun a b : Token => a.stop ≤ b.start ∨ b.stop ≤ a.start :=
    ⟨fun _ _ => Or.symm⟩
  have happart : tokens.Pairwise (fun a b => a.stop ≤ b.start ∨ b.stop ≤ a.start) :=
    h.ordered.imp .inl
  have hplace := happart.forall hx hy hne
  have hx' := h.within x hx
  have hy' := h.within y hy
  omega

theorem words_of_statement [Limits] {st : Statement} (h : outline t = .ok o)
    (hst : .statement st ∈ o.items) : st.words = (o.tokensOf (.statement st)).map (·.text) := by
  obtain ⟨hs, hitems⟩ := outline_eq_ok_iff.mp h
  obtain ⟨i, next, hitem, hi⟩ := Source.exists_item_of_mem hitems hst
  have hcode : o.tokensOf (.statement st) = (o.source.code.extract i next).toList :=
    Source.codeIn_of_item hs hi hitem nofun
  rw [hcode, Source.eq_of_item_statement hitem, Source.words]

/-- A function whose name is one binds it. -/
theorem bound_function [Limits] {f : FunctionShape} (h : outline t = .ok o)
    (hf : .function f ∈ o.items) (hname : f.name.toList.head?.any startsIdentifier = true) :
    ∃ x, (Item.function f).bound (o.tokensOf (.function f)) = [x] ∧ x.text = f.name ∧
      x.start = f.nameStart ∧ x.stop = f.nameStop := by
  obtain ⟨hs, hitems⟩ := outline_eq_ok_iff.mp h
  obtain ⟨i, next, hitem, hi⟩ := Source.exists_item_of_mem hitems hf
  obtain ⟨x, hx, htext, hstart, hstop⟩ :=
    Source.functionDecl_name (Source.functionDecl_of_item hitem)
  obtain ⟨hparts, -⟩ := parts_of_function h (mem_functions_iff.mpr hf)
  have hkeyword := hparts.keyword
  have hplace := hparts.name
  have hmem : x ∈ o.tokensOf (.function f) := Source.mem_codeIn_iff.mpr
    ⟨hx, by simp only [Item.start]; omega, by simp only [Item.stop]; omega⟩
  have hkind : x.kind = .identifier := by
    obtain ⟨flag, hlexeme⟩ := Source.isLexeme_of_code hs hx
    exact hlexeme.kind_of_startsIdentifier (by rwa [htext])
  refine ⟨x, ?_, htext, hstart, hstop⟩
  -- no other token begins where the name does
  have hstand : StandIn _ _ (o.tokensOf (.function f)) := Source.standIn_codeIn hs
  obtain ⟨front, back, hsplit⟩ := List.append_of_mem hmem
  have hothers : ∀ y ∈ front ++ back, ¬ (y.start = f.nameStart && y.kind = .identifier) = true := by
    have hnodup := hstand.nodup
    rw [hsplit, List.perm_middle.nodup_iff, List.nodup_cons] at hnodup
    intro y hy hfound
    rw [Bool.and_eq_true, decide_eq_true_eq] at hfound
    have hy' : y ∈ o.tokensOf (.function f) := by
      rw [hsplit]
      simp only [List.mem_append, List.mem_cons] at hy ⊢
      tauto
    exact hnodup.1 (hstand.eq_of_start_eq hy' hmem (hfound.1.trans hstart.symm) ▸ hy)
  rw [List.forall_mem_append] at hothers
  rw [Item.bound, hsplit, List.filter_append, List.filter_cons_of_pos (by simp [hstart, hkind]),
    List.filter_eq_nil_iff.mpr hothers.1, List.filter_eq_nil_iff.mpr hothers.2, List.nil_append]

/-- What an item binds is a name of the outline if they do not miss it. -/
theorem mem_names_of_bound [Limits] (h : outline t = .ok o) (hit : it ∈ o.items)
    (hx : x ∈ it.bound (o.tokensOf it)) (hnot : it.misses (o.tokensOf it) x = false) :
    x.text ∈ o.names := by
  obtain ⟨hs, hitems⟩ := outline_eq_ok_iff.mp h
  obtain ⟨i, next, hitem, hi⟩ := Source.exists_item_of_mem hitems hit
  rw [Outline.names, List.mem_append, List.mem_append]
  cases it with
  | classDecl c =>
    have hname := (Source.className_of_item hs hi hitem hx).1
    exact .inl (.inl (List.mem_map.mpr ⟨c, mem_classes_iff.mpr hit, hname.symm⟩))
  | function f =>
    obtain ⟨y, hy, hname, hstart, -⟩ := Source.functionDecl_name (Source.functionDecl_of_item hitem)
    obtain ⟨hmem, hfound⟩ := List.mem_filter.mp hx
    rw [Bool.and_eq_true, decide_eq_true_eq] at hfound
    have hsame : x = y := (Source.standIn_code hs).eq_of_start_eq
      (Source.mem_code_of_codeIn hmem) hy (hfound.1.trans hstart.symm)
    exact .inl (.inr (List.mem_map.mpr ⟨f, mem_functions_iff.mpr hit, by rw [hsame, hname]⟩))
  | statement st =>
    -- it is the first variable, which is the second word of the statement
    have hfirst : firstVariable? (o.tokensOf (.statement st)) = some x := by
      simpa [Item.misses] using hnot
    refine .inr (List.mem_filterMap.mpr ⟨st, List.mem_filterMap.mpr ⟨_, hit, rfl⟩, ?_⟩)
    unfold firstVariable? at hfirst
    split at hfirst
    · next w y rest htokens =>
      split at hfirst
      · next hvariable =>
        cases hfirst
        rw [Outline.declaredName?, words_of_statement h hit, htokens, List.map_cons, List.map_cons]
        exact if_pos hvariable
      · cases hfirst
    · cases hfirst

/-- The tokens that bind a name which is none of the outline's are missed. -/
theorem filter_bound [Limits] {name : String} (h : outline t = .ok o) (hname : name ∉ o.names) :
    o.bound.filter (·.text = name) = o.missed.filter (·.text = name) := by
  rw [Outline.bound, Outline.missed, List.filter_flatMap, List.filter_flatMap]
  apply List.flatMap_congr
  intro it hit
  rw [List.filter_filter]
  apply List.filter_congr
  intro x hx
  cases hmisses : it.misses (o.tokensOf it) x with
  | true => rw [Bool.and_true]
  | false =>
    rw [Bool.and_false, decide_eq_false_iff_not]
    rintro rfl
    exact hname (mem_names_of_bound h hit hx hmisses)

example : (outline "import\x7ba as b\x7dfrom\"c\";let d,\x7be:[f]\x7d=g;".toList).toOption.map
    (fun o => (o.names, o.missed.map (·.text))) = some (["d"], ["b", "f"]) := by
  decide +kernel

end WasmPackage.Script
