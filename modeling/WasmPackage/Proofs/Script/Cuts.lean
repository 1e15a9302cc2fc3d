import WasmPackage.Proofs.Script.Parts
import WasmPackage.Proofs.Script.Stretches

/-!
# Cuts at tokens and at bodies

A script that is read can be cut where a token begins or ends.  The code tokens of a part are those
of the script that stand in it, and a body is cut between its braces.
-/

namespace WasmPackage.Script

variable {t : Text} {s : Source} {tokens front back : List Token} {x y : Token}
  {a b k start stop : Nat}

/-! ## Tokens that stand in order -/

theorem StandIn.isCut (h : StandIn start stop tokens) (hx : x ∈ tokens) :
    IsCut tokens x.start ∧ IsCut tokens x.stop := by
  obtain ⟨front, back, rfl⟩ := List.append_of_mem hx
  obtain ⟨-, htail, hfront⟩ := List.pairwise_append.mp h.ordered
  have hlt := (h.within x hx).2.1
  have hplace : ∀ y ∈ front ++ x :: back, y.stop ≤ x.start ∨ y = x ∨ x.stop ≤ y.start := by
    intro y hy
    rcases List.mem_append.mp hy with hy | hy
    · exact .inl (hfront y hy x List.mem_cons_self)
    · rcases List.mem_cons.mp hy with rfl | hy
      · exact .inr (.inl rfl)
      · exact .inr (.inr (List.rel_of_pairwise_cons htail hy))
  constructor
  · intro y hy
    rcases hplace y hy with hbefore | rfl | hbehind
    · exact .inl hbefore
    · exact .inr (Nat.le_refl _)
    · exact .inr (by omega)
  · intro y hy
    rcases hplace y hy with hbefore | rfl | hbehind
    · exact .inl (by omega)
    · exact .inl (Nat.le_refl _)
    · exact .inr hbehind

/-- At a cut the tokens are parted into those in front of it and those behind it. -/
theorem StandIn.filter_append_filter (h : StandIn start stop tokens) (hcut : IsCut tokens k) :
    tokens.filter (·.stop ≤ k) ++ tokens.filter (k ≤ ·.start) = tokens := by
  induction tokens with
  | nil => rfl
  | cons x tokens ih =>
    obtain ⟨hx, hrest⟩ := List.forall_mem_cons.mp hcut
    have hplace := h.within x List.mem_cons_self
    rcases hx with hbefore | hbehind
    · rw [List.filter_cons_of_pos (by simpa using hbefore),
        List.filter_cons_of_neg (by simp; omega), List.cons_append,
        ih (h.sublist (List.sublist_cons_self x tokens)) hrest]
    · -- all tokens from this one on are behind the cut
      have hall : ∀ y ∈ x :: tokens, k ≤ y.start ∧ ¬ y.stop ≤ k := by
        intro y hy
        have hy' := h.within y hy
        rcases List.mem_cons.mp hy with rfl | hy
        · omega
        · have := List.rel_of_pairwise_cons h.ordered hy
          omega
      rw [List.filter_eq_nil_iff.mpr (fun y hy => by simpa using (hall y hy).2), List.nil_append,
        List.filter_eq_self.mpr (fun y hy => by simpa using (hall y hy).1)]

theorem StandIn.nodup (h : StandIn start stop tokens) : tokens.Nodup := by
  refine h.ordered.imp_of_mem ?_
  rintro x y hx - hxy rfl
  have := h.within x hx
  omega

/-- The tokens that end where one of them does are that and those in front of it. -/
theorem StandIn.filter_stop (h : StandIn start stop (front ++ x :: back)) :
    (front ++ x :: back).filter (·.stop ≤ x.stop) = front ++ [x] ∧
      (front ++ x :: back).filter (·.stop ≤ x.start) = front := by
  obtain ⟨-, htail, hfront⟩ := List.pairwise_append.mp h.ordered
  have hbefore : ∀ y ∈ front, y.stop ≤ x.start := fun y hy => hfront y hy x List.mem_cons_self
  have hbehind : ∀ y ∈ back, x.stop ≤ y.start ∧ y.start < y.stop := fun y hy =>
    ⟨List.rel_of_pairwise_cons htail hy, (h.within y (by simp [hy])).2.1⟩
  have hx := (h.within x (by simp)).2.1
  constructor
  · rw [List.filter_append, List.filter_cons_of_pos (by simp),
      List.filter_eq_self.mpr (fun y hy => by have := hbefore y hy; simp; omega),
      List.filter_eq_nil_iff.mpr (fun y hy => by have := hbehind y hy; simp; omega)]
  · rw [List.filter_append, List.filter_cons_of_neg (by simp; omega),
      List.filter_eq_self.mpr (fun y hy => by simpa using hbefore y hy),
      List.filter_eq_nil_iff.mpr (fun y hy => by have := hbehind y hy; simp; omega),
      List.append_nil]

/-- The tokens that begin where one of them does or ends are that and those behind it. -/
theorem StandIn.filter_start (h : StandIn start stop (front ++ x :: back)) :
    (front ++ x :: back).filter (x.start ≤ ·.start) = x :: back ∧
      (front ++ x :: back).filter (x.stop ≤ ·.start) = back := by
  obtain ⟨-, htail, hfront⟩ := List.pairwise_append.mp h.ordered
  have hbefore : ∀ y ∈ front, y.stop ≤ x.start ∧ y.start < y.stop := fun y hy =>
    ⟨hfront y hy x List.mem_cons_self, (h.within y (by simp [hy])).2.1⟩
  have hbehind : ∀ y ∈ back, x.stop ≤ y.start := fun y hy => List.rel_of_pairwise_cons htail hy
  have hx := (h.within x (by simp)).2.1
  constructor
  · rw [List.filter_append, List.filter_cons_of_pos (by simp),
      List.filter_eq_nil_iff.mpr (fun y hy => by have := hbefore y hy; simp; omega),
      List.filter_eq_self.mpr (fun y hy => by have := hbehind y hy; simp; omega), List.nil_append]
  · rw [List.filter_append, List.filter_cons_of_neg (by simp; omega),
      List.filter_eq_nil_iff.mpr (fun y hy => by have := hbefore y hy; simp; omega),
      List.filter_eq_self.mpr (fun y hy => by simpa using hbehind y hy), List.nil_append]

namespace Source

/-! ## Parts of a script -/

/-- The faces of the tokens that stand between two places, comments included. -/
def facesIn (s : Source) (a b : Nat) : List Face :=
  (s.tokens.filter (fun x => a ≤ x.start && x.stop ≤ b)).map Token.face

/-- The code tokens that stand between two places. -/
def codeIn (s : Source) (a b : Nat) : List Token :=
  s.code.toList.filter (fun x => a ≤ x.start && x.stop ≤ b)

/-- The last code token in front of a place. -/
def codeBefore (s : Source) (k : Nat) : Option Token :=
  (s.code.toList.filter (·.stop ≤ k)).getLast?

theorem codeIn_left (hk : k ≤ b) : s.codeIn a k = (s.codeIn a b).filter (·.stop ≤ k) := by
  rw [codeIn, codeIn, List.filter_filter]
  apply List.filter_congr
  intro x _
  rw [Bool.eq_iff_iff]
  simp only [Bool.and_eq_true, decide_eq_true_eq]
  omega

theorem codeIn_right (hk : a ≤ k) : s.codeIn k b = (s.codeIn a b).filter (k ≤ ·.start) := by
  rw [codeIn, codeIn, List.filter_filter]
  apply List.filter_congr
  intro x _
  rw [Bool.eq_iff_iff]
  simp only [Bool.and_eq_true, decide_eq_true_eq]
  omega

theorem mem_codeIn_iff :
    x ∈ s.codeIn a b ↔ x ∈ s.code.toList ∧ a ≤ x.start ∧ x.stop ≤ b := by
  rw [codeIn, List.mem_filter, Bool.and_eq_true, decide_eq_true_eq, decide_eq_true_eq]

theorem mem_code_of_codeIn (hx : x ∈ s.codeIn a b) : x ∈ s.code.toList :=
  List.mem_of_mem_filter hx

section

variable [Limits] (hs : Source.read t = .ok s)

include hs

theorem standIn_tokens : StandIn 0 t.length s.tokens := by
  obtain ⟨-, htokens, -⟩ := read_eq_ok hs
  have hstand := standIn_tokensFrom (tokensFrom_of_tokenize htokens)
  rwa [Nat.zero_add] at hstand

theorem code_eq_filter : s.code.toList = s.tokens.filter (fun x => x.kind ≠ .comment) := by
  rw [(read_eq_ok hs).2.2.1, map_fst_documented]

theorem standIn_code : StandIn 0 t.length s.code.toList := by
  rw [code_eq_filter hs]
  exact (standIn_tokens hs).sublist List.filter_sublist

theorem mem_tokens_of_code (hx : x ∈ s.code.toList) : x ∈ s.tokens := by
  rw [code_eq_filter hs] at hx
  exact List.mem_of_mem_filter hx

theorem kind_ne_of_code (hx : x ∈ s.code.toList) : x.kind ≠ .comment := by
  rw [code_eq_filter hs, List.mem_filter, decide_eq_true_eq] at hx
  exact hx.2

theorem isCut_of_code (hx : x ∈ s.code.toList) :
    IsCut s.tokens x.start ∧ IsCut s.tokens x.stop :=
  (standIn_tokens hs).isCut (mem_tokens_of_code hs hx)

theorem slice_of_code (hx : x ∈ s.code.toList) : t.slice x.start x.stop = x.text.toList :=
  slice_of_tokensFrom (tokensFrom_of_tokenize (read_eq_ok hs).2.1) List.drop_zero
    (mem_tokens_of_code hs hx)

theorem drop_start (hx : x ∈ s.code.toList) : t.drop x.start = x.text.toList ++ t.drop x.stop := by
  have hplace := (standIn_code hs).within x hx
  rw [← slice_of_code hs hx, Text.slice_append_drop (Nat.le_of_lt hplace.2.1)]

theorem isLexeme_of_tokens (hx : x ∈ s.tokens) : ∃ flag, IsLexeme flag x :=
  (legible_of_tokensFrom (tokensFrom_of_tokenize (read_eq_ok hs).2.1)).isLexeme hx

/-- No comment is read as a point. -/
theorem text_ne_of_comment (hx : x ∈ s.tokens) (hkind : x.kind = .comment) : x.text ≠ "." := by
  intro htext
  obtain ⟨flag, hlexeme⟩ := isLexeme_of_tokens hs hx
  have hmark := hlexeme.kind_of_isMark (c := '.') (by rw [htext]; rfl) (by decide)
  rw [hkind] at hmark
  cases hmark

theorem isLexeme_of_code (hx : x ∈ s.code.toList) : ∃ flag, IsLexeme flag x :=
  isLexeme_of_tokens hs (mem_tokens_of_code hs hx)

theorem codeOf_facesIn : codeOf (s.facesIn a b) = (s.codeIn a b).map Token.face := by
  rw [facesIn, codeOf_map_face, codeIn, code_eq_filter hs, List.filter_filter, List.filter_filter]
  congr 1
  apply List.filter_congr
  intro x _
  exact Bool.and_comm _ _

/-- The part of a script between two cuts is a stretch of it. -/
theorem stretch_of_read (hab : a ≤ b) (hb : b ≤ t.length) (hcut : IsCut s.tokens a)
    (hcut' : IsCut s.tokens b) :
    Stretch (t.drop b) (regexMayFollow (s.codeBefore a)) (t.slice a b) (s.facesIn a b)
      (regexMayFollow (s.codeBefore b)) := by
  have hstand := standIn_tokens hs
  have htokens := tokensFrom_of_tokenize (read_eq_ok hs).2.1
  have hbefore (k : Nat) : s.codeBefore k = lastCode none (s.tokens.filter (·.stop ≤ k)) := by
    rw [codeBefore, lastCode, code_eq_filter hs, Option.or_none, List.filter_filter,
      List.filter_filter]
    congr 1
    apply List.filter_congr
    intro x _
    exact Bool.and_comm _ _
  obtain ⟨-, hread⟩ := stretch_of_tokensFrom htokens (Nat.zero_le a) (by omega) hcut
  have hcutRest : IsCut (s.tokens.filter (a ≤ ·.start)) b :=
    fun x hx => hcut' x (List.mem_of_mem_filter hx)
  rw [Nat.sub_zero] at hread
  obtain ⟨hstretch, -⟩ := stretch_of_tokensFrom hread hab (by rw [List.length_drop]; omega) hcutRest
  -- the code in front of the second cut is that in front of the first one and that between them
  have hsplit : s.tokens.filter (·.stop ≤ b) = s.tokens.filter (·.stop ≤ a) ++
      (s.tokens.filter (a ≤ ·.start)).filter (·.stop ≤ b) := by
    conv_lhs => rw [← hstand.filter_append_filter hcut, List.filter_append]
    rw [List.filter_filter, List.filter_filter]
    congr 1
    apply List.filter_congr
    intro x _
    by_cases hx : x.stop ≤ a
    · simp only [hx, decide_true, Bool.and_true, decide_eq_true_eq]
      omega
    · simp [hx]
  have hlast : s.codeBefore b = lastCode (s.codeBefore a)
      ((s.tokens.filter (a ≤ ·.start)).filter (·.stop ≤ b)) := by
    rw [hbefore, hbefore, hsplit, lastCode, lastCode, lastCode, List.filter_append,
      List.getLast?_append, Option.or_assoc]
  have hfaces : s.facesIn a b =
      ((s.tokens.filter (a ≤ ·.start)).filter (·.stop ≤ b)).map Token.face := by
    rw [facesIn, List.filter_filter]
    congr 1
    apply List.filter_congr
    intro x _
    exact Bool.and_comm _ _
  rw [hlast, hfaces, hbefore, Text.slice]
  rwa [List.drop_drop, Nat.add_sub_cancel' hab] at hstretch

theorem standIn_codeIn : StandIn a b (s.codeIn a b) := by
  have hstand := standIn_code hs
  refine ⟨?_, hstand.ordered.sublist List.filter_sublist⟩
  intro x hx
  obtain ⟨hcode, hfirst, hlast⟩ := mem_codeIn_iff.mp hx
  exact ⟨hfirst, (hstand.within x hcode).2.1, hlast⟩

/-- The code tokens of a part in front of one of them, up to it, from it on, and behind it. -/
theorem codeIn_of_split {front back : List Token} (h : s.codeIn a b = front ++ x :: back) :
    s.codeIn a x.start = front ∧ s.codeIn a x.stop = front ++ [x] ∧
      s.codeIn x.start b = x :: back ∧ s.codeIn x.stop b = back := by
  have hstand : StandIn a b (front ++ x :: back) := h ▸ standIn_codeIn hs
  have hx := hstand.within x (by simp)
  obtain ⟨hstop, hbefore⟩ := hstand.filter_stop
  obtain ⟨hstart, hbehind⟩ := hstand.filter_start
  refine ⟨?_, ?_, ?_, ?_⟩
  · rw [codeIn_left (b := b) (by omega), h, hbefore]
  · rw [codeIn_left (b := b) (by omega), h, hstop]
  · rw [codeIn_right (a := a) (by omega), h, hstart]
  · rw [codeIn_right (a := a) (by omega), h, hbehind]

/-- The code in front of a place between two cuts is the code up to the first one, and that between
them. -/
theorem codeBefore_eq (hak : a ≤ k) (hcut : IsCut s.tokens a) :
    s.codeBefore k = (s.codeIn a k).getLast?.or (s.codeBefore a) := by
  have hstand := standIn_code hs
  have hcut' : IsCut s.code.toList a := fun x hx => hcut x (mem_tokens_of_code hs hx)
  have hsplit : s.code.toList.filter (·.stop ≤ k) =
      s.code.toList.filter (·.stop ≤ a) ++ s.codeIn a k := by
    conv_lhs => rw [← hstand.filter_append_filter hcut', List.filter_append]
    rw [codeIn, List.filter_filter, List.filter_filter]
    congr 1
    · apply List.filter_congr
      intro x _
      rw [Bool.eq_iff_iff]
      simp only [Bool.and_eq_true, decide_eq_true_eq]
      omega
    · apply List.filter_congr
      intro x _
      exact Bool.and_comm _ _
  rw [codeBefore, codeBefore, hsplit, List.getLast?_append]

/-- In front of the place where a code token ends stands this token. -/
theorem codeBefore_stop (hx : x ∈ s.code.toList) : s.codeBefore x.stop = some x := by
  obtain ⟨front, back, hcode⟩ := List.append_of_mem hx
  have hstand := standIn_code hs
  rw [hcode] at hstand
  rw [codeBefore, hcode, hstand.filter_stop.1, List.getLast?_concat]

/-- The part that ends with a code token has this as its last token. -/
theorem getLast?_facesIn (hx : x ∈ s.code.toList) (ha : a ≤ x.start) :
    (s.facesIn a x.stop).getLast? = some x.face := by
  obtain ⟨front, back, htokens⟩ := List.append_of_mem (mem_tokens_of_code hs hx)
  have hstand := standIn_tokens hs
  rw [htokens] at hstand
  have hfilter : s.tokens.filter (fun y => a ≤ y.start && y.stop ≤ x.stop) =
      (front ++ [x]).filter (a ≤ ·.start) := by
    rw [← hstand.filter_stop.1, ← htokens, List.filter_filter]
  rw [facesIn, hfilter, List.filter_append, List.filter_cons_of_pos (by simpa using ha),
    List.filter_nil, List.map_append, List.map_singleton, List.getLast?_concat]

end

/-! ## Bodies -/

/-- The span is that of a brace, of the one that closes it, and of all between them. -/
structure IsBody (s : Source) (body : Nat × Nat) : Prop where
  braces : ∃ x ∈ s.code.toList, ∃ y ∈ s.code.toList, x.face = (.punctuation, "\x7b") ∧
    y.face = (.punctuation, "\x7d") ∧ x.stop ≤ y.start ∧ body = (x.start, y.stop)

variable {i j : Nat} {body : Nat × Nat}

theorem isBody_of_closer? [Limits] (hs : Source.read t = .ok s) (hopen : s.is "\x7b" i = true)
    (hclose : s.closer? i = some j) : s.IsBody (s.startAt i, s.stopAt j) := by
  obtain ⟨j', hj', hbrace⟩ := closer?_of_is hs (v := "\x7d") (by decide) hopen
  rw [hclose, Option.some.injEq] at hj'
  subst hj'
  obtain ⟨x, hx, hkind, htext⟩ := kind_of_is hs (by decide) hopen
  obtain ⟨y, hy, hkind', htext'⟩ := kind_of_is hs (by decide) hbrace
  have hlt := lt_of_closer? hs hclose
  have hordered := (isPlaced_of_read hs).2.stopAt_le_startAt (by omega) hlt.1
  rw [stopAt_eq hx, startAt_eq hy] at hordered
  refine ⟨x, ?_, y, ?_, Prod.ext hkind htext, Prod.ext hkind' htext', hordered, ?_⟩
  · rw [Array.mem_toList_iff]
    exact Array.mem_of_getElem? hx
  · rw [Array.mem_toList_iff]
    exact Array.mem_of_getElem? hy
  · rw [startAt_eq hx, stopAt_eq hy]

/-- From a brace to the one that closes it is a body. -/
theorem isBody_of_braces [Limits] (hs : Source.read t = .ok s) (hbody : body ∈
    if s.is "\x7b" i then some (s.startAt i, s.stopAt ((s.closer? i).getD i)) else none) :
    s.IsBody body := by
  split at hbody
  · next hopen =>
    obtain ⟨k, hk, -⟩ := closer?_of_is hs (v := "\x7d") (by decide) hopen
    rw [hk, Option.getD_some, Option.mem_some_iff] at hbody
    subst hbody
    exact isBody_of_closer? hs hopen hk
  · cases hbody

theorem isBody_of_memberAt [Limits] (hs : Source.read t = .ok s) {close start first last : Nat}
    {modifiers : Modifiers} {name : String}
    (hbody : body ∈ (s.memberAt close start modifiers first name last).1.body) : s.IsBody body := by
  rw [memberAt_body] at hbody
  exact isBody_of_braces hs hbody

theorem isBody_of_classDecl [Limits] (hs : Source.read t = .ok s) {keyword next : Nat}
    {c : ClassShape} {m : Member} (h : s.classDecl start keyword = .ok (c, next))
    (hm : m ∈ c.members) (hbody : body ∈ m.body) : s.IsBody body := by
  obtain ⟨left, close, -, hclose, -, -, rfl⟩ := classDecl_eq_ok hs h
  obtain ⟨begin', modifiers, first, name, last, -, -, -, -, rfl⟩ :=
    mem_membersFrom hs hclose (Nat.lt_succ_self left) hm
  exact isBody_of_memberAt hs hbody

theorem isBody_of_functionDecl [Limits] (hs : Source.read t = .ok s) {keyword next : Nat}
    {f : FunctionShape} {exported : ExportKind}
    (h : s.functionDecl start keyword exported = .ok (f, next)) (hbody : body ∈ f.body) :
    s.IsBody body := by
  obtain ⟨name, params, close, -, -, -, -, -, -, -, -, hshape, -⟩ := functionDecl_eq_ok hs h
  rw [hshape] at hbody
  exact isBody_of_braces hs hbody

/-- A body can be cut out of the script. -/
theorem IsBody.cut [Limits] (h : s.IsBody body) (hs : Source.read t = .ok s) :
    IsCut s.tokens body.1 ∧ IsCut s.tokens body.2 := by
  obtain ⟨x, hx, y, hy, -, -, -, rfl⟩ := h.braces
  exact ⟨(isCut_of_code hs hx).1, (isCut_of_code hs hy).2⟩

/-- A body is its braces and what stands between them, and can be cut behind the first brace and in
front of the last one. -/
theorem IsBody.cuts [Limits] (h : s.IsBody body) (hs : Source.read t = .ok s) :
    body.1 + 1 ≤ body.2 - 1 ∧ body.1 + 1 < body.2 ∧ body.2 ≤ t.length ∧
      IsCut s.tokens (body.1 + 1) ∧ IsCut s.tokens (body.2 - 1) ∧
      t.slice body.1 (body.1 + 1) = ['\x7b'] ∧ t.slice (body.2 - 1) body.2 = ['\x7d'] ∧
      regexMayFollow (s.codeBefore (body.1 + 1)) = true := by
  obtain ⟨x, hx, y, hy, hopen, hclose, hordered, rfl⟩ := h.braces
  have hx' := (standIn_code hs).within x hx
  have hy' := (standIn_code hs).within y hy
  obtain ⟨hkind, htext⟩ := Prod.mk.inj hopen
  obtain ⟨-, htext'⟩ := Prod.mk.inj hclose
  have hstop : x.stop = x.start + 1 := by
    rw [Token.stop, htext]
    rfl
  have hstart : y.start = y.stop - 1 := by
    rw [Token.stop, htext']
    rfl
  have hslice := slice_of_code hs hx
  have hslice' := slice_of_code hs hy
  rw [htext, hstop] at hslice
  rw [htext', hstart] at hslice'
  simp only
  refine ⟨by omega, by omega, hy'.2.2, hstop ▸ (isCut_of_code hs hx).2,
    hstart ▸ (isCut_of_code hs hy).1, hslice, hslice', ?_⟩
  rw [← hstop, codeBefore_stop hs hx, regexMayFollow, hkind, htext]
  rfl

end Source

/-! ## Bodies of an outline -/

variable {o : Outline} {c : ClassShape} {m : Member} {f : FunctionShape} {body : Nat × Nat}

theorem isBody_of_member [Limits] (h : outline t = .ok o) (hc : c ∈ o.classes) (hm : m ∈ c.members)
    (hbody : body ∈ m.body) : o.source.IsBody body := by
  obtain ⟨hs, hitems⟩ := outline_eq_ok_iff.mp h
  obtain ⟨i, next, hitem, -⟩ := Source.exists_item_of_mem hitems (mem_classes_iff.mp hc)
  exact Source.isBody_of_classDecl hs (Source.classDecl_of_item hitem) hm hbody

theorem isBody_of_function [Limits] (h : outline t = .ok o) (hf : f ∈ o.functions)
    (hbody : body ∈ f.body) :
    o.source.IsBody body := by
  obtain ⟨hs, hitems⟩ := outline_eq_ok_iff.mp h
  obtain ⟨i, next, hitem, -⟩ := Source.exists_item_of_mem hitems (mem_functions_iff.mp hf)
  exact Source.isBody_of_functionDecl hs (Source.functionDecl_of_item hitem) hbody

end WasmPackage.Script
