import WasmPackage.Proofs.Script.Brackets
import WasmPackage.Proofs.Text.Lines

/-!
# Formatting

Scripts with the same tokens in different layouts have the same outline, apart from where its parts
stand.  The outliner asks for the kinds and texts of code tokens, for the partners of brackets and
for comments; all its walks take the same steps through two sources that agree in these.
-/

namespace WasmPackage.Script

variable {t t' : Text} {s s' : Source} {tokens tokens' : List Token} {i j : Nat}

/-! ## Faces -/

/-- A member's name, if it is not written in brackets. -/
def plainName (name : String) : Option String :=
  if name.toList.head? = some '[' then none else some name

/-- What a member is, wherever it stands and however the types in it are written. -/
structure MemberFace where
  name : Option String
  kind : MemberKind
  isStatic : Bool
  doc : Option Text
  params : List String
deriving DecidableEq, Repr

/-- What an item is, wherever it stands. -/
inductive ItemFace
  | classDecl (name : String) (members : List MemberFace)
  | function (name : String) (exported : ExportKind) (params : List String)
  | statement (words : List String)
deriving DecidableEq, Repr

def Member.face (m : Member) : MemberFace where
  name := plainName m.name
  kind := m.kind
  isStatic := m.isStatic
  doc := m.doc.map (·.text)
  params := m.params.map (·.name)

def Item.face : Item → ItemFace
  | .classDecl c => .classDecl c.name (c.members.map Member.face)
  | .function f => .function f.name f.exported (f.params.map (·.name))
  | .statement st => .statement st.words

/-- What an outline lists, in order. -/
def Outline.faces (o : Outline) : List ItemFace :=
  o.items.map Item.face

namespace Source

/-- The sources have the same code, comments and brackets, in whatever layout. -/
structure SameCode (s s' : Source) : Prop where
  faces : s.code.map Token.face = s'.code.map Token.face
  comments : s.docs.map (Option.map DocComment.text) = s'.docs.map (Option.map DocComment.text)
  pairs : s.brackets = s'.brackets

/-! ## Walks -/

namespace SameCode

variable (h : s.SameCode s') (w : String) (words : List String) (i j stop : Nat)

include h

theorem face? : s.code[i]?.map Token.face = s'.code[i]?.map Token.face := by
  rw [← Array.getElem?_map, ← Array.getElem?_map, h.faces]

theorem size : s.size = s'.size := by
  have hsize := congrArg Array.size h.faces
  rwa [Array.size_map, Array.size_map] at hsize

theorem word? : s.word? i = s'.word? i := by
  have htext := congrArg (Option.map Prod.snd) (h.face? i)
  rwa [Option.map_map, Option.map_map] at htext

theorem kind? : s.kind? i = s'.kind? i := by
  have hkind := congrArg (Option.map Prod.fst) (h.face? i)
  rwa [Option.map_map, Option.map_map] at hkind

theorem is : s.is w i = s'.is w i := by
  have hboth (s : Source) : s.is w i = (s.code[i]?.map Token.face).any
      (fun f => f.2 = w && (f.1 = .punctuation || f.1 = .identifier)) := by
    unfold Source.is
    cases s.code[i]? <;> rfl
  rw [hboth, hboth, h.face?]

theorem wordIn : s.wordIn words i = s'.wordIn words i := by
  rw [Source.wordIn, Source.wordIn, h.word?]

theorem closer? : s.closer? i = s'.closer? i := by
  rw [Source.closer?, Source.closer?, h.pairs]

theorem skip : s.skip i = s'.skip i := by
  rw [Source.skip, Source.skip, h.closer?]

theorem words_eq : s.words i j = s'.words i j := by
  have hboth (s : Source) : s.words i j =
      (((s.code.map Token.face).extract i j).map Prod.snd).toList := by
    simp [Source.words, Token.face, Function.comp_def]
  rw [hboth, hboth, h.faces]

theorem doc? : (s.doc? i).map DocComment.text = (s'.doc? i).map DocComment.text := by
  have hboth (s : Source) : (s.doc? i).map DocComment.text =
      (s.docs.map (Option.map DocComment.text))[i]?.join := by
    rw [Source.doc?, Array.getElem?_map]
    cases s.docs[i]? <;> rfl
  rw [hboth, hboth, h.comments]

theorem find? : s.find? w i = s'.find? w i := by
  fun_induction Source.find? s w i
  all_goals
    conv_rhs => rw [Source.find?, ← h.size, ← h.is]
    simp [*]

theorem paramMarks (close : Nat) (colon default : Option Nat) :
    s.paramMarks close i colon default = s'.paramMarks close i colon default := by
  fun_induction Source.paramMarks s close i colon default
  all_goals
    conv_rhs => rw [Source.paramMarks]
    simp only [← h.is, ← h.closer?, ← h.skip]
    simp [*]

theorem typeStopsAt : s.typeStopsAt i = s'.typeStopsAt i := by
  simp only [Source.typeStopsAt, Source.endsType, h.is, h.kind?, h.wordIn]

theorem typeStop (angles : Nat) : s.typeStop stop i angles = s'.typeStop stop i angles := by
  fun_induction Source.typeStop s stop i angles
  all_goals
    conv_rhs => rw [Source.typeStop]
    simp only [← h.is, ← h.typeStopsAt, ← h.skip]
    simp [*]

theorem typeParamsStop (depth : Nat) : s.typeParamsStop i depth = s'.typeParamsStop i depth := by
  fun_induction Source.typeParamsStop s i depth
  all_goals
    conv_rhs => rw [Source.typeParamsStop]
    simp only [← h.size, ← h.is]
    simp [*]

theorem behindTypeParameters : s.behindTypeParameters i = s'.behindTypeParameters i := by
  rw [Source.behindTypeParameters, Source.behindTypeParameters, h.is, h.typeParamsStop]

theorem memberHead (modifiers : Modifiers) :
    s.memberHead stop i modifiers = s'.memberHead stop i modifiers := by
  fun_induction Source.memberHead s stop i modifiers
  all_goals
    conv_rhs => rw [Source.memberHead]
    simp only [← h.is, ← h.wordIn, ← h.word?]
    simp [*]

theorem skipMarks : s.skipMarks i = s'.skipMarks i := by
  fun_induction Source.skipMarks s i
  all_goals
    conv_rhs => rw [Source.skipMarks]
    simp only [← h.size, ← h.wordIn]
    simp [*]

theorem initialValueStop : s.initialValueStop stop i = s'.initialValueStop stop i := by
  fun_induction Source.initialValueStop s stop i
  all_goals
    conv_rhs => rw [Source.initialValueStop]
    simp only [← h.is, ← h.skip]
    simp [*]

theorem behindModifiers : s.behindModifiers i = s'.behindModifiers i := by
  fun_induction Source.behindModifiers s i
  all_goals
    conv_rhs => rw [Source.behindModifiers]
    simp only [← h.size, ← h.wordIn]
    simp [*]

theorem statementStop : s.statementStop i = s'.statementStop i := by
  have hstep (i : Nat) : s'.statementStop i =
      if i < s.size then
        if (s.closer? i).isSome then
          if s.is "\x7b" i && (s.size ≤ s.skip i || s.wordIn statementStarters (s.skip i)) then
            s.skip i
          else s'.statementStop (s.skip i)
        else if s.is ";" i then i + 1
        else s'.statementStop (i + 1)
      else i := by
    rw [Source.statementStop]
    simp only [← h.size, ← h.is, ← h.wordIn, ← h.closer?, ← h.skip]
  fun_induction Source.statementStop s i with
  | case1 i hi hopens j hends => rw [hstep, if_pos hi, if_pos hopens, if_pos hends]
  | case2 i hi hopens j hends ih => rw [hstep, if_pos hi, if_pos hopens, if_neg hends, ih]
  | case3 i hi hopens hends => rw [hstep, if_pos hi, if_neg hopens, if_pos hends]
  | case4 i hi hopens hends ih => rw [ih, hstep i, if_pos hi, if_neg hopens, if_neg hends]
  | case5 i hi => rw [hstep, if_neg hi]

/-! ## Members -/

theorem typeNote : (s.typeNote stop i).2 = (s'.typeNote stop i).2 := by
  simp only [Source.typeNote, h.is, h.typeStop]
  split
  · split <;> rfl
  · rfl

theorem paramsFrom (close : Nat) :
    (s.paramsFrom close i).map (·.name) = (s'.paramsFrom close i).map (·.name) := by
  fun_induction Source.paramsFrom s close i with
  | case1 i hi marks ih =>
    have hmarks : s'.paramMarks close i none none = marks := (h.paramMarks i close none none).symm
    have hname : (s.param i marks).name = (s'.param i marks).name := by
      simp only [Source.param, h.is, h.word?]
    conv_rhs => rw [Source.paramsFrom, if_pos hi, hmarks]
    rw [List.map_cons, List.map_cons, hname, ih]
  | case2 i hi =>
    conv_rhs => rw [Source.paramsFrom, if_neg hi]

theorem params : (s.params i).map (·.name) = (s'.params i).map (·.name) := by
  rw [Source.params, Source.params, h.closer?, h.paramsFrom]

theorem memberAt {name name' : String} (hname : plainName name = plainName name')
    (start first last : Nat) (modifiers : Modifiers) :
    (s.memberAt stop start modifiers first name last).map Member.face id =
      (s'.memberAt stop start modifiers first name' last).map Member.face id := by
  simp only [Source.memberAt, Prod.map, Member.face, hname, h.is, h.behindTypeParameters,
    h.skipMarks, h.skip, h.typeNote, h.initialValueStop, h.doc?, Option.isSome_ite, id]
  congr 2
  split
  · exact h.params _
  · rfl

end SameCode

/-! ## Names -/

theorem plainName_eq_some {name : String} (h : name.toList.head? ≠ some '[') :
    plainName name = some name :=
  if_neg h

/-- An excerpt from a code token on begins with it. -/
theorem head?_excerpt [Limits] (hs : Source.read t = .ok s) {x : Token} (hx : s.code[i]? = some x)
    (hij : i ≤ j) : (s.excerpt (s.startAt i) (s.stopAt j)).toList.head? = x.text.toList.head? := by
  rcases read_eq_ok hs with ⟨htext, htokens, hcode, -, -⟩
  rcases Array.getElem?_eq_some_iff.mp hx with ⟨hi, rfl⟩
  have hmem : s.code[i] ∈ s.tokens := by
    apply (sublist_documented none s.tokens).subset
    rw [← hcode]
    exact Array.getElem_mem_toList hi
  have hslice := slice_of_tokensFrom (tokensFrom_of_tokenize htokens) List.drop_zero hmem
  have hplaced := (isPlaced_of_read hs).2
  have hstart : s.startAt i = s.code[i].start := by simp [startAt, hx]
  have hself := hplaced.startAt_lt_stopAt hi (Nat.le_refl i)
  have hlong := hplaced.startAt_lt_stopAt hi hij
  have hstop : s.stopAt i = s.code[i].stop := by simp [stopAt, hx]
  rw [excerpt, String.toList_ofList, ← hslice, ← htext, ← hstart, ← hstop, List.head?_eq_getElem?,
    List.head?_eq_getElem?, Text.getElem?_slice (by omega), Text.getElem?_slice (by omega)]

/-- The name at an index, apart from what stands in brackets. -/
theorem plainName_memberName? [Limits] (hs : Source.read t = .ok s) (stop : Nat) :
    (s.memberName? stop i).map (fun p => (plainName p.1, p.2)) =
      match s.kind? i with
      | some .identifier | some .string | some .number => some (s.word? i, i)
      | _ =>
        if s.is "[" i then some (none, (s.closer? i).getD i)
        else if s.is "#" i && i + 1 < stop then
          some (some ("#" ++ (s.word? (i + 1)).getD ""), i + 1)
        else none := by
  have hplain : ∀ kind, kind ≠ .punctuation → s.kind? i = some kind →
      plainName ((s.word? i).getD "") = s.word? i := by
    intro kind hkind hi
    unfold Source.kind? at hi
    rcases Option.map_eq_some_iff.mp hi with ⟨x, hx, rfl⟩
    rcases isLexeme_of_read hs hx with ⟨flag, hlexeme⟩
    rw [word?, hx]
    exact plainName_eq_some (hlexeme.head?_ne hkind)
  have hbracket : s.is "[" i = true →
      plainName (s.excerpt (s.startAt i) (s.stopAt ((s.closer? i).getD i))) = none := by
    intro his
    rcases kind_of_is hs (by decide) his with ⟨x, hx, -, htext⟩
    rcases closer?_of_is hs (v := "]") (by decide) his with ⟨close, hclose, -⟩
    have hlt := (lt_of_closer? hs hclose).1
    rw [hclose, Option.getD_some, plainName, head?_excerpt hs hx (Nat.le_of_lt hlt), htext]
    rfl
  have hsharp : ∀ name, plainName ("#" ++ name) = some ("#" ++ name) := by
    intro name
    apply plainName_eq_some
    simp
  have hother : ((if s.is "[" i then
        let close := (s.closer? i).getD i
        some (s.excerpt (s.startAt i) (s.stopAt close), close)
      else if s.is "#" i && i + 1 < stop then some ("#" ++ (s.word? (i + 1)).getD "", i + 1)
      else none).map (fun p => (plainName p.1, p.2))) =
      if s.is "[" i then some (none, (s.closer? i).getD i)
      else if s.is "#" i && i + 1 < stop then
        some (some ("#" ++ (s.word? (i + 1)).getD ""), i + 1)
      else none := by
    split
    case isTrue his => simp [hbracket his]
    case isFalse =>
      split
      case isTrue => simp [hsharp]
      case isFalse => rfl
  unfold memberName?
  cases hkind : s.kind? i with
  | none => exact hother
  | some kind =>
    cases kind with
    | identifier | string | number => simp [hplain _ (by decide) hkind]
    | comment | template | regex | punctuation => exact hother

/-! ## Items -/

theorem toOption_map {ε α β : Type} (f : α → β) (x : Except ε α) :
    (x.map f).toOption = x.toOption.map f := by
  cases x <;> rfl

section

variable [Limits] (h : s.SameCode s') (hs : Source.read t = .ok s) (hs' : Source.read t' = .ok s')

include h hs hs'

theorem SameCode.memberName? (stop : Nat) :
    (s.memberName? stop i).map (fun p => (plainName p.1, p.2)) =
      (s'.memberName? stop i).map (fun p => (plainName p.1, p.2)) := by
  rw [plainName_memberName? hs, plainName_memberName? hs', h.kind?, h.word?, h.word?, h.is, h.is,
    h.closer?]

theorem SameCode.member (stop start : Nat) :
    (s.member stop start).map (Option.map Member.face) id =
      (s'.member stop start).map (Option.map Member.face) id := by
  unfold Source.member
  rw [h.memberHead]
  cases s'.memberHead stop start ⟨false, .method⟩ with
  | staticBlock i => simp [h.skip]
  | name modifiers i =>
    simp only [h.is]
    generalize (if s'.is "*" i then i + 1 else i) = first
    split
    · have hname := h.memberName? hs hs' (i := first) stop
      cases hfound : s.memberName? stop first with
      | none =>
        rw [hfound] at hname
        have hnone : s'.memberName? stop first = none := by simpa using hname.symm
        rw [hnone]
      | some p =>
        rw [hfound] at hname
        rcases Option.map_eq_some_iff.mp hname.symm with ⟨p', hfound', hsame⟩
        rcases p with ⟨name, last⟩
        rcases p' with ⟨name', last'⟩
        rw [hfound']
        simp only [Prod.mk.injEq] at hsame
        rcases hsame with ⟨hplain, rfl⟩
        have hmember := h.memberAt stop hplain.symm start first last' modifiers
        simp only [Prod.map, Option.map_some, id, Prod.mk.injEq] at hmember ⊢
        exact ⟨congrArg some hmember.1, hmember.2⟩
    · rfl

theorem SameCode.membersFrom (stop i : Nat) :
    (s.membersFrom stop i).map Member.face = (s'.membersFrom stop i).map Member.face := by
  fun_induction Source.membersFrom s stop i with
  | case1 i hi hempty ih =>
    rw [h.is] at hempty
    conv_rhs => rw [Source.membersFrom, if_pos hi, if_pos hempty]
    exact ih
  | case2 i hi hempty m next hmember ih =>
    have hsame := h.member hs hs' stop i
    rw [hmember] at hsame
    rw [h.is] at hempty
    conv_rhs => rw [Source.membersFrom, if_pos hi, if_neg hempty]
    cases hmember' : s'.member stop i with
    | mk m' next' =>
      rw [hmember'] at hsame
      simp only [Prod.map, Prod.mk.injEq, id] at hsame
      rcases hsame with ⟨hface, rfl⟩
      rw [List.map_append, List.map_append, ih, ← Option.toList_map, ← Option.toList_map, hface]
  | case3 i hi =>
    conv_rhs => rw [Source.membersFrom, if_neg hi]

theorem SameCode.classDecl (start keyword : Nat) :
    (s.classDecl start keyword).toOption.map (fun p => ((Item.classDecl p.1).face, p.2)) =
      (s'.classDecl start keyword).toOption.map (fun p => ((Item.classDecl p.1).face, p.2)) := by
  unfold Source.classDecl
  rw [h.find?]
  cases s'.find? "\x7b" (keyword + 2) with
  | none => rfl
  | some i =>
    simp only [Except.toOption, Option.map_some, Item.face, h.word?, h.closer?, h.skip,
      h.membersFrom hs hs']

omit [Limits] hs hs' in
theorem SameCode.functionDecl (start keyword : Nat) (exported : ExportKind) :
    (s.functionDecl start keyword exported).toOption.map
        (fun p => ((Item.function p.1).face, p.2)) =
      (s'.functionDecl start keyword exported).toOption.map
        (fun p => ((Item.function p.1).face, p.2)) := by
  unfold Source.functionDecl
  simp only [h.is, h.word?, h.behindTypeParameters, h.size, h.skip, h.typeNote, Option.isSome_ite,
    Bool.or_eq_true]
  generalize (if s'.is "async" keyword then keyword + 2 else keyword + 1) = behindKeyword
  generalize (if s'.is "*" behindKeyword then behindKeyword + 1 else behindKeyword) = name
  generalize s'.behindTypeParameters (name + 1) = i
  cases s'.word? name with
  | none => rfl
  | some text =>
    cases s'.is "(" i with
    | false => rfl
    | true => simp only [if_true, Except.toOption, Option.map_some, Item.face, h.params]

theorem SameCode.item (start : Nat) :
    (s.item start).toOption.map (fun p => (p.1.face, p.2)) =
      (s'.item start).toOption.map (fun p => (p.1.face, p.2)) := by
  unfold Source.item
  simp only [h.is, h.size, h.behindModifiers, h.statementStop, h.words_eq]
  split
  · rw [toOption_map, toOption_map, Option.map_map, Option.map_map]
    exact h.classDecl hs hs' start _
  · split
    · rw [toOption_map, toOption_map, Option.map_map, Option.map_map]
      exact h.functionDecl start _ _
    · rfl

theorem SameCode.itemsFrom (i : Nat) :
    (s.itemsFrom i).toOption.map (List.map Item.face) =
      (s'.itemsFrom i).toOption.map (List.map Item.face) := by
  fun_induction Source.itemsFrom s i with
  | case1 i hi e hitem =>
    have hsame := h.item hs hs' i
    rw [hitem] at hsame
    rw [h.size] at hi
    conv_rhs => rw [Source.itemsFrom, if_pos hi]
    cases hitem' : s'.item i with
    | error e => rfl
    | ok p =>
      rw [hitem'] at hsame
      cases hsame
  | case2 i hi it next hitem ih =>
    have hsame := h.item hs hs' i
    rw [hitem] at hsame
    rw [h.size] at hi
    conv_rhs => rw [Source.itemsFrom, if_pos hi]
    cases hitem' : s'.item i with
    | error e =>
      rw [hitem'] at hsame
      cases hsame
    | ok p =>
      rcases p with ⟨it', next'⟩
      rw [hitem'] at hsame
      simp only [Except.toOption, Option.map_some, Option.some.injEq, Prod.mk.injEq] at hsame
      rcases hsame with ⟨hface, rfl⟩
      have hcons (x : Option (List Item)) (it : Item) : (x.map (it :: ·)).map (List.map Item.face) =
          (x.map (List.map Item.face)).map (it.face :: ·) := by
        cases x <;> rfl
      rw [toOption_map, toOption_map, hcons, hcons, ih, hface]
  | case3 i hi =>
    rw [h.size] at hi
    conv_rhs => rw [Source.itemsFrom, if_neg hi]

end

/-! ## Reading -/

theorem documented_of_faces {pending pending' : Option DocComment}
    (hpending : pending.map DocComment.text = pending'.map DocComment.text)
    (hsame : tokens.map Token.face = tokens'.map Token.face) :
    (documented pending tokens).map (fun p => (p.1.face, p.2.map DocComment.text)) =
      (documented pending' tokens').map (fun p => (p.1.face, p.2.map DocComment.text)) := by
  induction tokens generalizing tokens' pending pending' with
  | nil =>
    rw [List.map_nil] at hsame
    rw [List.map_eq_nil_iff.mp hsame.symm]
    rfl
  | cons x tokens ih =>
    cases tokens' with
    | nil => cases hsame
    | cons x' tokens' =>
      rcases List.cons.inj hsame with ⟨hface, hsame⟩
      rcases Prod.mk.inj hface with ⟨hkind, htext⟩
      rw [documented, documented, ← hkind, ← htext]
      split
      · split
        · exact ih rfl hsame
        · exact ih hpending hsame
      · rw [List.map_cons, List.map_cons, hface, hpending, ih rfl hsame]

theorem closer?_of_face {x x' : Token} (h : x.face = x'.face) : x.closer? = x'.closer? := by
  rcases Prod.mk.inj h with ⟨hkind, htext⟩
  rw [Token.closer?, Token.closer?, hkind, htext]

theorem closes_of_face {x x' : Token} (h : x.face = x'.face) : x.closes = x'.closes := by
  rcases Prod.mk.inj h with ⟨hkind, htext⟩
  rw [Token.closes, Token.closes, hkind, htext]

theorem bracketsFrom_of_faces {opened opened' : List (Nat × Token)}
    (hopened : opened.map (fun o => (o.1, o.2.face)) = opened'.map (fun o => (o.1, o.2.face)))
    (hsame : tokens.map Token.face = tokens'.map Token.face) :
    (bracketsFrom i opened tokens).toOption = (bracketsFrom i opened' tokens').toOption := by
  induction tokens generalizing tokens' opened opened' i with
  | nil =>
    rw [List.map_nil] at hsame
    rw [List.map_eq_nil_iff.mp hsame.symm]
    cases opened with
    | nil =>
      rw [List.map_nil] at hopened
      rw [List.map_eq_nil_iff.mp hopened.symm]
    | cons o outer =>
      cases opened' with
      | nil => cases hopened
      | cons o' outer' => rfl
  | cons x tokens ih =>
    cases tokens' with
    | nil => cases hsame
    | cons x' tokens' =>
      rcases List.cons.inj hsame with ⟨hface, hsame⟩
      have htext : x.text = x'.text := congrArg Prod.snd hface
      unfold bracketsFrom
      rw [← closer?_of_face hface, ← closes_of_face hface]
      split
      · apply ih _ hsame
        rw [List.map_cons, List.map_cons, hface, hopened]
      · split
        · cases opened with
          | nil =>
            rw [List.map_nil] at hopened
            rw [List.map_eq_nil_iff.mp hopened.symm]
            rfl
          | cons o outer =>
            cases opened' with
            | nil => cases hopened
            | cons o' outer' =>
              rcases List.cons.inj hopened with ⟨hfirst, houter⟩
              rcases Prod.mk.inj hfirst with ⟨hindex, hface'⟩
              simp only [← closer?_of_face hface', ← htext, hindex]
              split
              · rw [toOption_map, toOption_map, ih houter hsame]
              · rfl
        · exact ih hopened hsame

/-- Texts with the same tokens are read alike, if they are read at all. -/
theorem read_of_faces [Limits] (h : tokenize t = .ok tokens) (h' : tokenize t' = .ok tokens')
    (hsame : tokens.map Token.face = tokens'.map Token.face) :
    (∃ s s', Source.read t = .ok s ∧ Source.read t' = .ok s' ∧ s.SameCode s') ∨
      (Source.read t).toOption = none ∧ (Source.read t').toOption = none := by
  have hdocumented : (documented none tokens).map (fun p => (p.1.face, p.2.map DocComment.text)) =
      (documented none tokens').map (fun p => (p.1.face, p.2.map DocComment.text)) :=
    documented_of_faces rfl hsame
  have hfaces := congrArg (List.map Prod.fst) hdocumented
  have hcomments := congrArg (List.map Prod.snd) hdocumented
  simp only [List.map_map, Function.comp_def] at hfaces hcomments
  have hcode : ((documented none tokens).map (·.1)).map Token.face =
      ((documented none tokens').map (·.1)).map Token.face := by
    simpa only [List.map_map, Function.comp_def] using hfaces
  have hpairs : (bracketsFrom 0 [] ((documented none tokens).map (·.1))).toOption =
      (bracketsFrom 0 [] ((documented none tokens').map (·.1))).toOption :=
    bracketsFrom_of_faces rfl hcode
  unfold Source.read
  rw [h, h']
  simp only [bind, Except.bind, matchBrackets]
  cases hbrackets : bracketsFrom 0 [] ((documented none tokens).map (·.1)) with
  | error e =>
    rw [hbrackets] at hpairs
    cases hbrackets' : bracketsFrom 0 [] ((documented none tokens').map (·.1)) with
    | error e' => exact .inr ⟨rfl, rfl⟩
    | ok pairs' =>
      rw [hbrackets'] at hpairs
      cases hpairs
  | ok pairs =>
    rw [hbrackets] at hpairs
    cases hbrackets' : bracketsFrom 0 [] ((documented none tokens').map (·.1)) with
    | error e' =>
      rw [hbrackets'] at hpairs
      cases hpairs
    | ok pairs' =>
      rw [hbrackets'] at hpairs
      cases hpairs
      refine .inl ⟨_, _, rfl, rfl, ?_, ?_, rfl⟩
      · simpa [Function.comp_def] using hfaces
      · simpa [Function.comp_def] using hcomments

end Source

/-! ## Outlines -/

/-- A script and any layout of its tokens have the same tokens and the same outline, or have none
both of them. -/
theorem outline_isLayout [Limits] (h : tokenize t = .ok tokens) (hlayout : IsLayout tokens t') :
    (∃ tokens', tokenize t' = .ok tokens' ∧ tokens'.map Token.face = tokens.map Token.face) ∧
      (outline t').toOption.map Outline.faces = (outline t).toOption.map Outline.faces := by
  rcases tokenize_isLayout h hlayout with ⟨tokens', h', hsame⟩
  refine ⟨⟨tokens', h', hsame⟩, ?_⟩
  unfold outline
  rcases Source.read_of_faces h' h hsame with ⟨s', s, hs', hs, hcode⟩ | ⟨hnone', hnone⟩
  · have hitems := hcode.itemsFrom hs' hs 0
    have hfaces (s : Source) : (((s.itemsFrom 0).map (Outline.mk s)).toOption).map Outline.faces =
        (s.itemsFrom 0).toOption.map (List.map Item.face) := by
      rw [Source.toOption_map, Option.map_map]
      rfl
    rw [hs', hs]
    exact (hfaces s').trans (hitems.trans (hfaces s).symm)
  · cases hread : Source.read t with
    | ok s =>
      rw [hread] at hnone
      cases hnone
    | error e =>
      cases hread' : Source.read t' with
      | ok s' =>
        rw [hread'] at hnone'
        cases hnone'
      | error e' => rfl

/-- A class on one line and on several has one outline. -/
theorem outline_isLayout_class :
    ∃ tokens, tokenize "class A\x7bm()\x7b\x7d\x7d// e".toList = .ok tokens ∧
      IsLayout tokens "\tclass A\n\x7b m ( ) \x7b \x7d \x7d // e\n".toList ∧
      (∃ tokens', tokenize "\tclass A\n\x7b m ( ) \x7b \x7d \x7d // e\n".toList = .ok tokens' ∧
        tokens'.map Token.face = tokens.map Token.face) ∧
      (outline "\tclass A\n\x7b m ( ) \x7b \x7d \x7d // e\n".toList).toOption.map Outline.faces =
        (outline "class A\x7bm()\x7b\x7d\x7d// e".toList).toOption.map Outline.faces := by
  obtain ⟨tokens, htokens, hlayout⟩ : ∃ tokens,
      tokenize "class A\x7bm()\x7b\x7d\x7d// e".toList = .ok tokens ∧
        IsLayout tokens "\tclass A\n\x7b m ( ) \x7b \x7d \x7d // e\n".toList := by
    have hspace : ∀ c ∈ [' '], isBlank c = true := List.forall_mem_singleton.mpr rfl
    have hnewline : ∀ c ∈ ['\n'], isBlank c = true := List.forall_mem_singleton.mpr rfl
    exact ⟨[⟨.identifier, "class", 0⟩, ⟨.identifier, "A", 6⟩, ⟨.punctuation, "\x7b", 7⟩,
      ⟨.identifier, "m", 8⟩, ⟨.punctuation, "(", 9⟩, ⟨.punctuation, ")", 10⟩,
      ⟨.punctuation, "\x7b", 11⟩, ⟨.punctuation, "\x7d", 12⟩, ⟨.punctuation, "\x7d", 13⟩,
      ⟨.comment, "// e", 14⟩], by decide +kernel, ['\t'], _, List.forall_mem_singleton.mpr rfl,
      .cons hspace (by simp) (by decide +kernel) <|
      .cons hnewline (by simp) (by decide +kernel) <|
      .cons hspace (by simp) (by decide +kernel) <|
      .cons hspace (by simp) (by decide +kernel) <|
      .cons hspace (by simp) (by decide +kernel) <|
      .cons hspace (by simp) (by decide +kernel) <|
      .cons hspace (by simp) (by decide +kernel) <|
      .cons hspace (by simp) (by decide +kernel) <|
      .cons hspace (by simp) (by decide +kernel) <|
      .cons hnewline (by simp) (by decide +kernel) .nil, by decide +kernel⟩
  exact ⟨tokens, htokens, hlayout, outline_isLayout htokens hlayout⟩

end WasmPackage.Script
