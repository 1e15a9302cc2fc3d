import WasmPackage.Proofs.Script.Parameters

/-!
# Typed signatures of members

A member that is declared with types is read back: its name, its type, and its parameters with their
types, all as they are written.  The types of parameters are the exception: the parameters are the
written ones if, and only if, none of their types has a comma outside of parentheses and brackets.
-/

namespace WasmPackage.Script

/-! ## Signatures -/

/-- The declaration of a member with typed parameters and a type. -/
structure TypedSignature where
  modifiers : List String
  name : String
  params : List TypedParam
  result : TypeExpr
  areModifiers : ∀ w ∈ modifiers, memberModifiers.contains w = true

/-- The code of a signature behind its parameters. -/
def TypedSignature.back (sig : TypedSignature) : List Face :=
  .mark ":" :: (sig.result.faces ++ [.mark ";"])

/-- The code of a signature. -/
def TypedSignature.faces (sig : TypedSignature) : List Face :=
  sig.modifiers.map Face.word ++
    .word sig.name :: .mark "(" :: (paramFaces sig.params ++ .mark ")" :: sig.back)

namespace Source

variable {t : Text} {s : Source} {i j close stop : Nat} {f : Face} {doc : Option Text}
  {faces : List Face} {sig : TypedSignature} {c : ClassShape}

/-! ## Members -/

variable {name : String} {ws : List String} {modifiers : Modifiers} {m : Member}

/-- Modifiers stand before a word that a parenthesis follows: the word is the name. -/
theorem memberHead_of_words [Limits] (hs : Source.read t = .ok s)
    (hws : ∀ w ∈ ws, memberModifiers.contains w = true)
    (h : s.Reads i (ws.map Face.word ++ .word name :: .mark "(" :: faces))
    (hstop : i + ws.length < stop) :
    s.memberHead stop i modifiers = .name (ws.foldl Modifiers.push modifiers) (i + ws.length) := by
  induction ws generalizing i modifiers with
  | nil =>
    obtain ⟨doc, hopen⟩ := h.tail.cell?
    have hcall : s.wordIn nameFollowers (i + 1) = true := by
      rw [wordIn_eq_of_cell? hopen]
      decide
    rw [memberHead, if_pos (by omega), if_neg (by simp [hcall])]
    rfl
  | cons w ws ih =>
    obtain ⟨hw, hrest⟩ := List.forall_mem_cons.mp hws
    obtain ⟨doc, hmodifier⟩ := h.cell?
    have htail := h.tail
    rw [List.length_cons] at hstop ⊢
    -- the next token is one more modifier or the name
    obtain ⟨v, doc', hnext⟩ : ∃ v doc', s.cell? (i + 1) = some (.word v, doc') := by
      cases ws with
      | nil => exact ⟨name, htail.cell?⟩
      | cons v ws => exact ⟨v, htail.cell?⟩
    have hword := isWord_of_cell? hs hnext
    have hfollows : s.wordIn nameFollowers (i + 1) = false := by
      rw [wordIn_eq_of_cell? hnext]
      exact contains_eq_false_of_isWord hword (by decide)
    have hblock : s.is "\x7b" (i + 1) = false := is_eq_false_of_isWord hnext hword (by decide)
    have hfirst : s.wordIn memberModifiers i = true := by rw [wordIn_eq_of_cell? hmodifier, hw]
    rw [memberHead, if_pos (by omega), if_pos (by rw [hfirst, hfollows]; rfl),
      if_neg (by simp [hblock]), word?_eq_of_cell? hmodifier, Option.getD_some,
      ih hrest htail (by omega), List.foldl_cons, Nat.add_assoc, Nat.add_comm 1]

/-- A member whose name stands before a parenthesis. -/
theorem member_of_words [Limits] (hs : Source.read t = .ok s)
    (hws : ∀ w ∈ ws, memberModifiers.contains w = true)
    (h : s.Reads i (ws.map Face.word ++ .word name :: .mark "(" :: faces))
    (hstop : i + ws.length < stop) :
    s.member stop i =
      (some (s.memberAt stop i (ws.foldl Modifiers.push ⟨false, .method⟩) (i + ws.length) name
        (i + ws.length)).1, s.behindMember stop (i + ws.length)) := by
  obtain ⟨-, hname⟩ := reads_append_iff.mp h
  rw [List.length_map] at hname
  obtain ⟨doc, hname⟩ := hname.cell?
  have hhead : s.memberHead stop i ⟨false, .method⟩ =
      .name (ws.foldl Modifiers.push ⟨false, .method⟩) (i + ws.length) :=
    memberHead_of_words hs hws h hstop
  have hstar : s.is "*" (i + ws.length) = false :=
    is_eq_false_of_isWord hname (isWord_of_cell? hs hname) (by decide)
  have hfound : s.memberName? stop (i + ws.length) = some (name, i + ws.length) := by
    rw [memberName?, kind?_eq_of_cell? hname, word?_eq_of_cell? hname]
    rfl
  simp only [member, hhead, hstar, Bool.false_eq_true, if_false, hstop, if_true, hfound]
  rw [memberAt_snd]

end Source

/-- The index behind the opening parenthesis of a signature that begins at index `i`. -/
def TypedSignature.paramsAt (sig : TypedSignature) (i : Nat) : Nat :=
  i + sig.modifiers.length + 2

/-- The index of the closing parenthesis of a signature that begins at index `i`. -/
def TypedSignature.closeAt (sig : TypedSignature) (i : Nat) : Nat :=
  sig.paramsAt i + (paramFaces sig.params).length

/-- The type of a signature that begins at index `i`, as it is written. -/
def TypedSignature.resultNote (sig : TypedSignature) (s : Source) (i : Nat) : TypeNote :=
  let first := sig.closeAt i + 2
  let behind := first + sig.result.faces.length
  ⟨s.written first behind, s.startAt first, s.stopAt (behind - 1)⟩

/-- A member with the name and the type of a signature that begins at index `i`. -/
structure TypedSignature.IsReadAs (sig : TypedSignature) (s : Source) (i : Nat) (m : Member) :
    Prop where
  start : m.start = s.startAt i
  name : m.name = sig.name
  returnType : m.returnType = some (sig.resultNote s i)

namespace Source

variable {t : Text} {s : Source} {i stop : Nat} {sig : TypedSignature}

theorem member_of_signature [Limits] (hs : Source.read t = .ok s) (h : s.Reads i sig.faces)
    (hstop : i + sig.faces.length ≤ stop) :
    ∃ m, s.member stop i = (some m, i + sig.faces.length) ∧ sig.IsReadAs s i m ∧
      m.params = s.paramsFrom (sig.closeAt i) (sig.paramsAt i) := by
  have hlength : i + sig.faces.length = sig.closeAt i + 2 + sig.result.faces.length + 1 := by
    simp only [TypedSignature.faces, TypedSignature.back, TypedSignature.closeAt,
      TypedSignature.paramsAt, List.length_append, List.length_map, List.length_cons,
      List.length_nil]
    omega
  have hbefore : i + sig.modifiers.length + 2 ≤ sig.closeAt i := Nat.le_add_right _ _
  obtain ⟨-, hname⟩ := reads_append_iff.mp h
  rw [List.length_map] at hname
  -- the parentheses of the parameters
  have hgroup := hname.tail
  obtain ⟨doc, hopen⟩ := hgroup.cell?
  have hcall : s.is "(" (i + sig.modifiers.length + 1) = true := by
    rw [is_eq_of_face hs hopen (by decide)]
    decide
  have hclose : s.closer? (i + sig.modifiers.length + 1) = some (sig.closeAt i) := by
    rw [closer?_of_reads hs (by decide) (balanced_paramFaces sig.params) hgroup]
    exact congrArg some (Nat.add_right_comm _ _ 1)
  -- the type and the semicolon
  obtain ⟨-, hbehind⟩ := reads_append_iff.mp hgroup.tail
  have hback : s.Reads (sig.closeAt i + 1) sig.back := hbehind.tail
  obtain ⟨doc', hcolon⟩ := hback.cell?
  obtain ⟨hresult, hend⟩ := reads_append_iff.mp hback.tail
  obtain ⟨doc'', hend⟩ := hend.cell?
  have hmark : s.is ":" (sig.closeAt i + 1) = true := by
    rw [is_eq_of_face hs hcolon (by decide)]
    decide
  have hsemicolon : s.is ";" (sig.closeAt i + 2 + sig.result.faces.length) = true := by
    rw [is_eq_of_face hs hend (by decide)]
    decide
  have hnote : s.typeNote stop (sig.closeAt i + 1) =
      (some (sig.resultNote s i), sig.closeAt i + 2 + sig.result.faces.length) :=
    typeNote_of_type hs hmark hresult rfl hsemicolon (by omega)
  obtain ⟨htype, hmember⟩ := memberType_of_note hs hcall hclose hnote hsemicolon
  refine ⟨(s.memberAt stop i (sig.modifiers.foldl Modifiers.push ⟨false, .method⟩)
    (i + sig.modifiers.length) sig.name (i + sig.modifiers.length)).1, ?_, ⟨rfl, rfl, ?_⟩, ?_⟩
  · rw [member_of_words hs sig.areModifiers h (by omega), hmember, hlength]
  · exact congrArg Prod.fst htype
  · rw [(memberAt_of_call hcall).2.1, params, hclose, Option.getD_some]
    rfl

/-! ## Classes -/

/-- The indices at which the members of a class are looked for: the first one, behind each
semicolon, and behind each member. -/
inductive MemberPlace (s : Source) (close first : Nat) : Nat → Prop
  | first : MemberPlace s close first first
  | semicolon {i : Nat} : MemberPlace s close first i → i < close → s.is ";" i = true →
    MemberPlace s close first (i + 1)
  | member {i : Nat} : MemberPlace s close first i → i < close → s.is ";" i = false →
    MemberPlace s close first (max (i + 1) (s.member close i).2)

/-- What is found at such an index and behind it are members of the class. -/
theorem membersFrom_of_memberPlace {first : Nat} (h : s.MemberPlace close first i) :
    ∃ front, s.membersFrom close first = front ++ s.membersFrom close i := by
  induction h with
  | first => exact ⟨[], rfl⟩
  | semicolon _ hlt hsemicolon ih =>
    obtain ⟨front, hfront⟩ := ih
    refine ⟨front, ?_⟩
    rw [hfront, membersFrom.eq_def s close, if_pos hlt, if_pos hsemicolon]
  | @member i _ hlt hsemicolon ih =>
    obtain ⟨front, hfront⟩ := ih
    refine ⟨front ++ (s.member close i).1.toList, ?_⟩
    rw [hfront, membersFrom.eq_def s close, if_pos hlt, hsemicolon, List.append_assoc]
    rfl

end Source

/-- A signature begins with a word. -/
theorem TypedSignature.exists_faces_eq_cons (sig : TypedSignature) :
    ∃ w rest, sig.faces = .word w :: rest := by
  unfold TypedSignature.faces
  cases sig.modifiers with
  | nil => exact ⟨_, _, rfl⟩
  | cons w ws => exact ⟨w, _, rfl⟩

theorem TypedSignature.brace_notMem_faces (sig : TypedSignature) :
    Face.mark "\x7d" ∉ sig.faces := by
  have hparams := brace_notMem_paramFaces sig.params
  have hresult := sig.result.brace_notMem_faces
  simp [TypedSignature.faces, TypedSignature.back, hparams, hresult]

namespace Source

variable {t : Text} {s : Source} {i close : Nat} {sig : TypedSignature}

theorem of_reads_signature [Limits] (hs : Source.read t = .ok s) (h : s.Reads i sig.faces) :
    0 < sig.faces.length ∧ s.is ";" i = false := by
  obtain ⟨w, rest, hfaces⟩ := sig.exists_faces_eq_cons
  obtain ⟨doc, hfirst⟩ := (hfaces ▸ h).cell?
  constructor
  · simp [hfaces]
  · rw [is_eq_of_face hs hfirst (by decide)]
    simp

/-- Behind a signature the next member is looked for. -/
theorem MemberPlace.behind_signature [Limits] {first : Nat} (hs : Source.read t = .ok s)
    (hplace : s.MemberPlace close first i) (h : s.Reads i sig.faces)
    (hstop : i + sig.faces.length ≤ close) :
    s.MemberPlace close first (i + sig.faces.length) := by
  obtain ⟨m, hmember, -⟩ := member_of_signature hs h hstop
  obtain ⟨hpos, hsemicolon⟩ := of_reads_signature hs h
  have hnext := hplace.member (by omega) hsemicolon
  rwa [hmember, Nat.max_eq_right (by omega)] at hnext

/-- Behind each of some signatures, one behind another, the next member is looked for. -/
theorem MemberPlace.behind_signatures [Limits] {first : Nat} {sigs : List TypedSignature}
    (hs : Source.read t = .ok s) (hplace : s.MemberPlace close first i)
    (h : s.Reads i (sigs.flatMap TypedSignature.faces))
    (hstop : i + (sigs.flatMap TypedSignature.faces).length ≤ close) :
    s.MemberPlace close first (i + (sigs.flatMap TypedSignature.faces).length) := by
  induction sigs generalizing i with
  | nil => exact hplace
  | cons sig sigs ih =>
    rw [List.flatMap_cons] at h hstop ⊢
    obtain ⟨hfirst, hrest⟩ := reads_append_iff.mp h
    rw [List.length_append, ← Nat.add_assoc] at hstop ⊢
    exact ih (hplace.behind_signature hs hfirst (by omega)) hrest hstop

end Source

/-- The class `c` of the script declares signatures, one behind another, whose code begins at index
`i`: its members are looked for there. -/
def Outline.Declares (o : Outline) (c : ClassShape) (i : Nat) (sigs : List TypedSignature) : Prop :=
  ∃ opening close, o.source.startAt opening = c.bodyOpen ∧ o.source.closer? opening = some close ∧
    o.source.MemberPlace close (opening + 1) i ∧ i < close ∧
      o.source.Reads i (sigs.flatMap TypedSignature.faces)

variable {t : Text} {o : Outline} {c : ClassShape} {i : Nat} {sig : TypedSignature}
  {sigs : List TypedSignature}

theorem brace_notMem_flatMap_faces (sigs : List TypedSignature) :
    Face.mark "\x7d" ∉ sigs.flatMap TypedSignature.faces := by
  rw [List.mem_flatMap]
  rintro ⟨sig, -, hmem⟩
  exact sig.brace_notMem_faces hmem

/-- The members of a class that declares signatures are looked for up to the brace behind them. -/
theorem Outline.Declares.exists_members [Limits] (houtline : outline t = .ok o)
    (hc : c ∈ o.classes) (h : o.Declares c i sigs) :
    ∃ first close, c.members = o.source.membersFrom close first ∧
      o.source.MemberPlace close first i ∧
      o.source.Reads i (sigs.flatMap TypedSignature.faces) ∧
      i + (sigs.flatMap TypedSignature.faces).length ≤ close := by
  obtain ⟨opening, close, hopening, hclose, hplace, hlt, hreads⟩ := h
  obtain ⟨hs, hitems⟩ := outline_eq_ok_iff.mp houtline
  obtain ⟨k, next, hitem, -⟩ := Source.exists_item_of_mem hitems (mem_classes_iff.mp hc)
  obtain ⟨opening', close', -, hclose', hbrace, -, hclass⟩ :=
    Source.classDecl_eq_ok hs (Source.classDecl_of_item hitem)
  have hopening' : o.source.startAt opening' = c.bodyOpen := by rw [hclass]
  have hmembers : c.members = o.source.membersFrom close' (opening' + 1) := by rw [hclass]
  -- the braces of the class are these ones
  have hsize := Source.lt_of_closer? hs hclose
  have hsize' := Source.lt_of_closer? hs hclose'
  obtain rfl : opening' = opening :=
    (Source.isPlaced_of_read hs).2.eq_of_startAt_eq (by omega) (by omega)
      (hopening'.trans hopening.symm)
  obtain rfl : close = close' := Option.some.inj (hclose.symm.trans hclose')
  obtain ⟨x, hx, hkind, htext⟩ := Source.kind_of_is hs (by decide) hbrace
  have hend : o.source.cell? close =
      some (.mark "\x7d", (o.source.doc? close).map DocComment.text) := by
    rw [Source.cell?, hx, Option.map_some, Token.face, hkind, htext]
  exact ⟨opening' + 1, close, hmembers, hplace, hreads,
    Source.le_of_reads hreads hend (brace_notMem_flatMap_faces sigs) (Nat.le_of_lt hlt)⟩

/-- A signature where a member is looked for is read as a member: its name and its type are the
written ones, and its parameters just if no type of a parameter has an outer comma.  Each of these
makes one parameter more. -/
theorem Source.MemberPlace.exists_member [Limits] {s : Source} {first close : Nat}
    (hs : Source.read t = .ok s) (hplace : s.MemberPlace close first i)
    (hreads : s.Reads i sig.faces) (hstop : i + sig.faces.length ≤ close) :
    ∃ m ∈ s.membersFrom close first, sig.IsReadAs s i m ∧
      m.params.length = sig.params.length + typeCommas sig.params ∧
      (m.params = s.paramShapes (sig.paramsAt i) sig.params ↔
        ∀ p ∈ sig.params, p.type.commas = 0) := by
  obtain ⟨m, hmember, hread, hparams⟩ := Source.member_of_signature hs hreads hstop
  obtain ⟨hpos, hsemicolon⟩ := Source.of_reads_signature hs hreads
  obtain ⟨front, hfront⟩ := Source.membersFrom_of_memberPlace hplace
  have hmem : m ∈ s.membersFrom close first := by
    rw [hfront, Source.membersFrom_of_member (by omega) hsemicolon hmember (by omega)]
    exact List.mem_append_right _ List.mem_cons_self
  have hlist : s.Reads (sig.paramsAt i) (paramFaces sig.params) := by
    obtain ⟨-, hbehind⟩ := Source.reads_append_iff.mp hreads
    rw [List.length_map] at hbehind
    exact (Source.reads_append_iff.mp hbehind.tail.tail).1
  have hlength := Source.length_paramsFrom_of_typed hs hlist rfl
  refine ⟨m, hmem, hread, hparams ▸ hlength, ?_⟩
  constructor
  · intro hexact
    have hcount := congrArg List.length (hparams.symm.trans hexact)
    rw [Source.length_paramShapes] at hcount
    exact typeCommas_eq_zero_iff.mp (Nat.add_eq_left.mp (hlength.symm.trans hcount))
  · intro hcommas
    rw [hparams]
    exact Source.paramsFrom_of_typed hs hcommas hlist rfl

/-- Each of the signatures that a class declares is read as a member: its name and its type are the
written ones, and its parameters just if no type of a parameter has an outer comma.  Each of these
makes one parameter more. -/
theorem signature_readsBack_iff [Limits] (houtline : outline t = .ok o) (hc : c ∈ o.classes)
    (h : o.Declares c i sigs) :
    ∀ front sig behind, sigs = front ++ sig :: behind →
      ∃ m ∈ c.members, sig.IsReadAs o.source (i + (front.flatMap TypedSignature.faces).length) m ∧
        m.params.length = sig.params.length + typeCommas sig.params ∧
        (m.params = o.source.paramShapes
            (sig.paramsAt (i + (front.flatMap TypedSignature.faces).length)) sig.params ↔
          ∀ p ∈ sig.params, p.type.commas = 0) := by
  rintro front sig behind rfl
  obtain ⟨hs, -⟩ := outline_eq_ok_iff.mp houtline
  obtain ⟨first, close, hmembers, hplace, hreads, hstop⟩ := h.exists_members houtline hc
  rw [List.flatMap_append, List.flatMap_cons] at hreads hstop
  rw [List.length_append, List.length_append] at hstop
  obtain ⟨hfront, hrest⟩ := Source.reads_append_iff.mp hreads
  obtain ⟨hsig, -⟩ := Source.reads_append_iff.mp hrest
  have hplace' := hplace.behind_signatures hs hfront (by omega)
  rw [hmembers]
  exact hplace'.exists_member hs hsig (by omega)

/-! ## Some signatures -/

/-- A signature without parameters. -/
def mapResult : TypedSignature :=
  ⟨[], "g", [], .generic "M" (.cons (.name "K") (.one (.name "V"))), nofun⟩

/-- A signature with a generic type in parentheses. -/
def mapInParentheses : TypedSignature :=
  ⟨["static"], "f", [⟨"a", true, .array (.name "B")⟩,
    ⟨"b", false, .paren (.generic "M" (.cons (.name "K") (.one (.name "V"))))⟩],
    .union (.name "C") (.name "D"), by decide⟩

theorem signature_readsBack_iff_mapInParentheses :
    ∃ o c, outline "class A\x7bg():M<K,V>;static f(a?:B[],b:(M<K,V>)):C|D;\x7d".toList = .ok o ∧
      c ∈ o.classes ∧ o.Declares c 3 [mapResult, mapInParentheses] ∧
      (∃ m ∈ c.members, mapResult.IsReadAs o.source 3 m ∧ m.params = []) ∧
      ∃ m ∈ c.members, mapInParentheses.IsReadAs o.source 14 m ∧ m.params.length = 2 ∧
        m.params = o.source.paramShapes 17 mapInParentheses.params := by
  have hfound : (outline
      "class A\x7bg():M<K,V>;static f(a?:B[],b:(M<K,V>)):C|D;\x7d".toList).toOption.any
      (fun o => decide (∃ c ∈ o.classes, o.source.startAt 2 = c.bodyOpen ∧
        o.source.closer? 2 = some 40 ∧
        o.source.Reads 3 ([mapResult, mapInParentheses].flatMap TypedSignature.faces))) = true := by
    decide +kernel
  obtain ⟨o, houtline, hfound⟩ := exists_ok_of_any hfound
  obtain ⟨c, hc, hopening, hclose, hreads⟩ := of_decide_eq_true hfound
  have hdeclares : o.Declares c 3 [mapResult, mapInParentheses] :=
    ⟨2, 40, hopening, hclose, .first, by decide, hreads⟩
  have hall := signature_readsBack_iff houtline hc hdeclares
  obtain ⟨m, hm, hread, hnone, -⟩ := hall [] mapResult [mapInParentheses] rfl
  obtain ⟨m', hm', hread', hlength, hparams⟩ := hall [mapResult] mapInParentheses [] rfl
  exact ⟨o, c, houtline, hc, hdeclares, ⟨m, hm, hread, List.eq_nil_of_length_eq_zero hnone⟩,
    m', hm', hread', hlength, hparams.mpr (by decide)⟩

/-- A parameter with a generic type of two arguments. -/
def mapParam : TypedSignature :=
  ⟨[], "f", [⟨"a", false, .generic "M" (.cons (.name "K") (.one (.name "V")))⟩], .name "R", nofun⟩

/-- Such a parameter is read as two. -/
theorem signature_not_readBack :
    ∃ o c, outline "class A\x7bf(a:M<K,V>):R;\x7d".toList = .ok o ∧ c ∈ o.classes ∧
      o.Declares c 3 [mapParam] ∧
      c.members.map (fun m => m.params.map (fun p => (p.name, p.type))) =
        [[("a", some "M<K"), ("V", none)]] := by
  have hfound : (outline "class A\x7bf(a:M<K,V>):R;\x7d".toList).toOption.any
      (fun o => decide (∃ c ∈ o.classes, o.source.startAt 2 = c.bodyOpen ∧
        o.source.closer? 2 = some 17 ∧ o.source.Reads 3 ([mapParam].flatMap TypedSignature.faces) ∧
        c.members.map (fun m => m.params.map (fun p => (p.name, p.type))) =
          [[("a", some "M<K"), ("V", none)]])) = true := by
    decide +kernel
  obtain ⟨o, houtline, hfound⟩ := exists_ok_of_any hfound
  obtain ⟨c, hc, hopening, hclose, hreads, hparams⟩ := of_decide_eq_true hfound
  exact ⟨o, c, houtline, hc, ⟨2, 17, hopening, hclose, .first, by decide, hreads⟩, hparams⟩

end WasmPackage.Script
