import WasmPackage.Proofs.Bindings.Bodies
import WasmPackage.Proofs.Bindings.Outcomes
import WasmPackage.Proofs.Bindings.Recorded
import WasmPackage.Proofs.Bindings.Statements

/-!
# The loader and its references

The loader gets another name, in its declaration and wherever its body refers to it.  A word of the
body is taken for a reference if it is spelled like the name of the loader and does not follow a
point; so the key of an object literal is taken for one too.
-/

namespace WasmPackage.Bindings

open Script (ClassShape Face FunctionShape HasCode Member Outline Source Stretch Token isWord)

variable {t : Text} {o : Outline} {x y : Token} {tokens front back : List Token} {i : Nat}
  {previous : Option Token} {internal : String} {loader : FunctionShape} {body : Nat × Nat}

/-! ## What is taken for a reference -/

/-- The token is the word that names the loader. -/
def IsLoaderName (tokens : List Token) (i : Nat) : Prop :=
  tokens[i]?.any (fun x => x.face = word loaderName) = true

/-- A point stands in front of the token. -/
def FollowsPoint (tokens : List Token) (i : Nat) : Prop :=
  0 < i ∧ tokens[i - 1]?.any (fun x => x.text = ".") = true

/-- The token stands between a brace or a comma and a colon, as the key of an object literal
does. -/
def IsKey (tokens : List Token) (i : Nat) : Prop :=
  0 < i ∧ tokens[i - 1]?.any (fun x => ["\x7b", ","].contains x.text) = true ∧
    tokens[i + 1]?.any (fun x => x.text = ":") = true

instance (tokens : List Token) (i : Nat) : Decidable (IsLoaderName tokens i) :=
  inferInstanceAs (Decidable (_ = true))

instance (tokens : List Token) (i : Nat) : Decidable (FollowsPoint tokens i) :=
  inferInstanceAs (Decidable (_ ∧ _))

instance (tokens : List Token) (i : Nat) : Decidable (IsKey tokens i) :=
  inferInstanceAs (Decidable (_ ∧ _))

theorem IsLoaderName.lt_length (h : IsLoaderName tokens i) : i < tokens.length := by
  by_contra hge
  rw [IsLoaderName, List.getElem?_eq_none (Nat.le_of_not_lt hge)] at h
  cases h

/-- The code of the tokens with another name in these places. -/
def renamedAt (refers : Nat → Bool) (name : String) (tokens : List Token) : List Face :=
  tokens.mapIdx (fun i x => if refers i then word name else x.face)

/-- The token in front of one, or what stands before all of them. -/
def tokenBefore (previous : Option Token) (tokens : List Token) : Nat → Option Token
  | 0 => previous
  | i + 1 => tokens[i]?

theorem mem_loaderReferences_iff : x ∈ loaderReferences previous tokens ↔
    ∃ i, tokens[i]? = some x ∧ x.face = word loaderName ∧
      (tokenBefore previous tokens i).any (fun p => p.text = ".") = false := by
  induction tokens generalizing previous with
  | nil => simp [loaderReferences]
  | cons y tokens ih =>
    have hbehind (i : Nat) : tokenBefore previous (y :: tokens) (i + 1) =
        tokenBefore (some y) tokens i := by
      cases i <;> rfl
    have hface : y.face = word loaderName ↔ y.kind = .identifier ∧ y.text = loaderName :=
      Prod.mk.injEq _ _ _ _ ▸ Iff.rfl
    have hcons : x ∈ loaderReferences previous (y :: tokens) ↔
        (x = y ∧ y.face = word loaderName ∧ previous.any (fun p => p.text = ".") = false) ∨
          x ∈ loaderReferences (some y) tokens := by
      rw [loaderReferences, hface]
      by_cases hname : y.kind = .identifier ∧ y.text = loaderName
      · cases previous.any (fun p => p.text = ".") <;> simp [hname]
      · have hother : (y.kind = .identifier && y.text = loaderName &&
            !previous.any (fun p => p.text = ".")) = false := by
          rw [not_and_or] at hname
          rcases hname with hname | hname <;> simp [hname]
        simp [hname, hother]
    rw [hcons, ih]
    constructor
    · rintro (⟨rfl, hname, hpoint⟩ | ⟨i, hx, hname, hpoint⟩)
      · exact ⟨0, rfl, hname, hpoint⟩
      · exact ⟨i + 1, hx, hname, by rwa [hbehind]⟩
    · rintro ⟨i, hx, hname, hpoint⟩
      cases i with
      | zero =>
        cases hx
        exact .inl ⟨rfl, hname, hpoint⟩
      | succ i => exact .inr ⟨i, hx, hname, by rwa [hbehind] at hpoint⟩

/-! ## The code of the renamed loader -/

/-- The code tokens of a body, with its braces. -/
abbrev bracedCode (o : Outline) (body : Nat × Nat) : List Token :=
  o.tokensWithin body.1 body.2

section

variable [Limits] (houtline : Script.outline t = .ok o) (hbody : o.source.IsBody body)

include houtline hbody

/-- The code of a body is a brace, and what stands behind it. -/
theorem bracedCode_eq : ∃ brace, bracedCode o body = brace :: o.source.codeIn (body.1 + 1) body.2 ∧
    brace.face = mark "\x7b" ∧ brace.start = body.1 := by
  obtain ⟨hs, -⟩ := Script.outline_eq_ok_iff.mp houtline
  obtain ⟨brace, hbrace, close, hclose, hopen, -, hle, heq⟩ := hbody.braces
  have hplace := (Source.standIn_code hs).within brace hbrace
  have hplace' := (Source.standIn_code hs).within close hclose
  have hstart : body.1 = brace.start := by rw [heq]
  have hlast : body.2 = close.stop := by rw [heq]
  obtain ⟨front, back, hsplit⟩ := List.append_of_mem (Source.mem_codeIn_iff.mpr
    ⟨hbrace, Nat.le_of_eq hstart, by omega⟩ : brace ∈ o.source.codeIn body.1 body.2)
  obtain ⟨hfront, -, -, hback⟩ := Source.codeIn_of_split hs hsplit
  have hstop : brace.stop = body.1 + 1 := by
    rw [Token.stop, (Prod.mk.inj hopen).2, hstart]
    rfl
  have hnone : front = [] := by
    rw [← hfront, ← hstart, List.eq_nil_iff_forall_not_mem]
    intro y hy
    have := (Source.standIn_codeIn hs).within y hy
    omega
  refine ⟨brace, ?_, hopen, hstart.symm⟩
  rw [hnone, List.nil_append, ← hback, hstop] at hsplit
  exact hsplit

/-- A reference to the loader stands behind the brace that opens the body. -/
theorem mem_referencesIn_iff : x ∈ referencesIn o body ↔
    ∃ i, (bracedCode o body)[i + 1]? = some x ∧ x.face = word loaderName ∧
      (bracedCode o body)[i]?.any (fun p => p.text = ".") = false := by
  obtain ⟨brace, hcode, hbrace, -⟩ := bracedCode_eq houtline hbody
  rw [referencesIn, mem_loaderReferences_iff]
  constructor
  · rintro ⟨i, hx, hname, hpoint⟩
    cases i with
    | zero =>
      change (bracedCode o body)[0]? = some x at hx
      rw [hcode] at hx
      cases hx
      rw [hbrace] at hname
      cases hname
    | succ i => exact ⟨i, hx, hname, hpoint⟩
  · rintro ⟨i, hx, hname, hpoint⟩
    exact ⟨i + 1, hx, hname, hpoint⟩

theorem isReplaceable_of_mem (hname : internal ∉ Script.wordsBeforeRegex)
    (hx : x ∈ referencesIn o body) : o.source.IsReplaceable internal x := by
  obtain ⟨hs, -⟩ := Script.outline_eq_ok_iff.mp houtline
  obtain ⟨i, hget, hface, hpoint⟩ := (mem_referencesIn_iff houtline hbody).mp hx
  obtain ⟨hkind, htext⟩ := Prod.mk.inj hface
  have hmem : x ∈ bracedCode o body := List.mem_of_getElem? hget
  refine ⟨Source.mem_code_of_codeIn hmem, by rw [htext]; decide, hkind, ?_, ?_⟩
  · simp [Script.regexMayFollow, hkind, htext, hname]
    decide
  · intro y hy hdot
    obtain ⟨hlt, hx'⟩ := List.getElem?_eq_some_iff.mp hget
    have hsplit : o.source.codeIn body.1 body.2 = (bracedCode o body).take (i + 1) ++
        x :: (bracedCode o body).drop (i + 1 + 1) := by
      rw [← hx', ← List.drop_eq_getElem_cons hlt, List.take_append_drop]
      rfl
    have hplace := (Source.standIn_codeIn hs).within x hmem
    have hlt' : i < (bracedCode o body).length := by omega
    have hget' : (bracedCode o body)[i]? = some (bracedCode o body)[i] :=
      List.getElem?_eq_getElem hlt'
    rw [Source.codeBefore_eq hs hplace.1 (hbody.cut hs).1, (Source.codeIn_of_split hs hsplit).1,
      List.getLast?_take, if_neg (Nat.succ_ne_zero i), Nat.add_sub_cancel, hget'] at hy
    cases hy
    rw [hget', Option.any_some, (Prod.mk.inj hdot).2] at hpoint
    cases hpoint

/-- The body of the renamed loader has the new name in the place of each reference. -/
theorem hasCode_loader (offsets : OffsetTable) (hnested : ∀ c ∈ o.classes, c.IsNested)
    (hloader : o.function? loaderName = some loader) (hsome : loader.body = some body)
    (hword : isWord internal = true) (hname : internal ∉ Script.wordsBeforeRegex) :
    HasCode (t.editedSpan (glueEdits o offsets internal) body.1 body.2)
      ((bracedCode o body).map (Script.renamedFace (referencesIn o body) internal)) := by
  obtain ⟨hs, -⟩ := Script.outline_eq_ok_iff.mp houtline
  obtain ⟨hab, hlt, hlength, hcut, -, hopen, -, hflag⟩ := hbody.cuts hs
  obtain ⟨brace, hcode, hbrace, hstart⟩ := bracedCode_eq houtline hbody
  have hstand : Script.StandIn body.1 body.2 (brace :: o.source.codeIn (body.1 + 1) body.2) :=
    hcode ▸ Source.standIn_codeIn hs
  -- no reference is the brace
  have hbehind : ∀ x ∈ referencesIn o body, body.1 + 1 ≤ x.start := by
    intro x hx
    obtain ⟨i, hget, -⟩ := (mem_referencesIn_iff houtline hbody).mp hx
    rw [hcode, List.getElem?_cons_succ] at hget
    exact ((Source.standIn_codeIn hs).within x (List.mem_of_getElem? hget)).1
  have hrefs : Script.StandIn (body.1 + 1) body.2 (referencesIn o body) := by
    have hstand' : Script.StandIn body.1 body.2 (referencesIn o body) :=
      standIn_referencesIn houtline
    exact ⟨fun x hx => ⟨hbehind x hx, (hstand'.within x hx).2⟩, hstand'.ordered⟩
  obtain ⟨faces, hstretch, hfaces⟩ := Source.stretch_renamed hs hword hrefs
    (fun x hx => isReplaceable_of_mem houtline hbody hname hx) (by omega) hlength hcut
    (hbody.cut hs).2
  have hedited : t.editedSpan (glueEdits o offsets internal) body.1 body.2 =
      "\x7b".toList ++ Revision.splice (t.take body.2) (body.1 + 1)
        ((referencesIn o body).map (Script.renameEdit internal)) := by
    rw [editedSpan_loaderBody houtline hnested hloader hsome (Nat.le_refl _) (by omega)
        (fun x hx => Nat.le_of_succ_le (hbehind x hx)),
      Text.splice_eq_append (Nat.le_succ body.1) ?_, Text.slice_take (by omega), hopen]
    · rfl
    · intro e he
      obtain ⟨x, hx, rfl⟩ := List.mem_map.mp he
      exact hbehind x hx
  rw [hflag] at hstretch
  have hall : Stretch (t.drop body.2) true ("\x7b".toList ++ Revision.splice (t.take body.2)
      (body.1 + 1) ((referencesIn o body).map (Script.renameEdit internal)))
      (mark "\x7b" :: faces) (Script.regexMayFollow (o.source.codeBefore body.2)) :=
    .token (Script.isLexeme_of_isMark (by decide) (by decide) (by decide))
      (by simp [Script.runsOn]) hstretch
  rw [hedited]
  refine HasCode.of_stretch hall.to_end ?_
  have hother : Script.renamedFace (referencesIn o body) internal brace = mark "\x7b" := by
    rw [Script.renamedFace, if_neg ?_, hbrace]
    intro hmem
    have := hbehind brace hmem
    omega
  rw [hcode, List.map_cons, hother, ← hfaces]
  rfl

end

/-! ## References and keys -/

section

variable [Limits] (houtline : Script.outline t = .ok o) (hbody : o.source.IsBody body)

include houtline hbody

/-- What is renamed is the name of the loader where it does not follow a point. -/
theorem mem_referencesIn_iff_of_get (hget : (bracedCode o body)[i]? = some x) :
    x ∈ referencesIn o body ↔
      IsLoaderName (bracedCode o body) i ∧ ¬ FollowsPoint (bracedCode o body) i := by
  obtain ⟨hs, -⟩ := Script.outline_eq_ok_iff.mp houtline
  have hstand : Script.StandIn body.1 body.2 (bracedCode o body) := Source.standIn_codeIn hs
  have hlt := (List.getElem?_eq_some_iff.mp hget).1
  rw [mem_referencesIn_iff houtline hbody, IsLoaderName, FollowsPoint, hget, Option.any_some,
    decide_eq_true_eq]
  constructor
  · rintro ⟨j, hget', hface, hpoint⟩
    have hindex : i = j + 1 :=
      (List.getElem?_inj hlt hstand.nodup).mp (hget.trans hget'.symm)
    subst hindex
    refine ⟨hface, ?_⟩
    rintro ⟨-, hpoint'⟩
    rw [Nat.add_sub_cancel, hpoint] at hpoint'
    cases hpoint'
  · rintro ⟨hface, hpoint⟩
    obtain ⟨brace, hcode, hbrace, -⟩ := bracedCode_eq houtline hbody
    cases i with
    | zero =>
      rw [hcode] at hget
      cases hget
      rw [hbrace] at hface
      cases hface
    | succ j =>
      refine ⟨j, hget, hface, ?_⟩
      simpa using hpoint

/-- The names that refer to the loader get the new name and no others, if all that do not follow a
point refer to it. -/
theorem renamed_eq_iff {refers : Nat → Bool} (hne : internal ≠ loaderName)
    (hrefers : ∀ i, refers i = true →
      IsLoaderName (bracedCode o body) i ∧ ¬ FollowsPoint (bracedCode o body) i) :
    (bracedCode o body).map (Script.renamedFace (referencesIn o body) internal) =
        renamedAt refers internal (bracedCode o body) ↔
      ∀ i, IsLoaderName (bracedCode o body) i → ¬ FollowsPoint (bracedCode o body) i →
        refers i = true := by
  have hmem {i : Nat} {x : Token} (hget : (bracedCode o body)[i]? = some x) :=
    mem_referencesIn_iff_of_get houtline hbody hget
  rw [List.ext_getElem?_iff]
  simp only [renamedAt, List.getElem?_map, List.getElem?_mapIdx]
  constructor
  · intro hsame i hname hpoint
    cases hget : (bracedCode o body)[i]? with
    | none => simp [IsLoaderName, hget] at hname
    | some x =>
      have hx := (hmem hget).mpr ⟨hname, hpoint⟩
      have hface := hsame i
      by_contra hnot
      rw [IsLoaderName, hget, Option.any_some, decide_eq_true_eq] at hname
      simp [hget, Script.renamedFace, hx, hnot, hname] at hface
      exact hne hface
  · intro hall i
    cases hget : (bracedCode o body)[i]? with
    | none => rfl
    | some x =>
      have hiff : x ∈ referencesIn o body ↔ refers i = true := by
        rw [hmem hget]
        exact ⟨fun h => hall i h.1 h.2, hrefers i⟩
      by_cases hx : x ∈ referencesIn o body
      · simp [Script.renamedFace, hx, hiff.mp hx]
      · have hnot : refers i = false := by
          rw [Bool.eq_false_iff]
          exact fun h => hx (hiff.mpr h)
        simp [Script.renamedFace, hx, hnot]

end

/-- Glue that is revised has the new name of the loader in its declaration, and in its body in the
places that refer to it and in no others, if each name of the loader in the body that does not
follow a point refers to it. -/
theorem reviseGlue_renames [Limits] {offsets : OffsetTable} {r : Revised}
    (h : reviseGlue t offsets internal = .ok r) :
    ∃ o edits loader body, Script.outline t = .ok o ∧ edits = glueEdits o offsets internal ∧
      o.function? loaderName = some loader ∧ loader.body = some body ∧ r.text = t.edited edits ∧
      (KeepsMembers o → isWord internal = true → internal ∉ Script.wordsBeforeRegex →
        ∃ renamed, t.edited edits = t.editedSpan edits 0 loader.nameStart ++ internal.toList ++
            t.editedSpan edits loader.nameStop body.1 ++ renamed ++
            t.editedSpan edits body.2 (t.length + 1) ∧
          ∀ refers : Nat → Bool,
            (∀ i, refers i = true → IsLoaderName (bracedCode o body) i ∧
              ¬ FollowsPoint (bracedCode o body) i ∧ ¬ IsKey (bracedCode o body) i) →
            (HasCode renamed (renamedAt refers internal (bracedCode o body)) ↔
              ∀ i, IsLoaderName (bracedCode o body) i → ¬ FollowsPoint (bracedCode o body) i →
                refers i = true)) := by
  obtain ⟨o, houtline, hsuits, hsound, rfl⟩ := reviseGlue_eq_ok_iff.mp h
  obtain ⟨loader, body, hloader, hsome⟩ := hsuits.loader
  have hfree := hsuits.free
  refine ⟨o, _, loader, body, houtline, rfl, hloader, hsome, hsound.apply_eq, ?_⟩
  intro hkeeps hword hname
  have hnested := (Script.isNested_classes_iff houtline).mpr hkeeps
  obtain ⟨hmem, hparts, hlength⟩ := Script.parts_of_function? houtline hloader
  have hbody := Script.isBody_of_function houtline hmem (Option.mem_def.mpr hsome)
  have hplace := hparts.name
  have hend := hparts.body body hsome
  have hcode := hasCode_loader houtline hbody offsets hnested hloader hsome hword hname
  refine ⟨t.editedSpan (glueEdits o offsets internal) body.1 body.2, ?_, ?_⟩
  · rw [Text.edited_eq_append (a := body.1) (b := body.2) _ (by omega) (by omega),
      ← Text.editedSpan_append (b := loader.nameStop) _ (Nat.zero_le _) hend.1,
      ← Text.editedSpan_append (b := loader.nameStart) _ (Nat.zero_le _) (Nat.le_of_lt hplace.1),
      editedSpan_name houtline hnested hloader hsome]
  · intro refers hrefers
    have hiff := renamed_eq_iff houtline hbody (ne_loaderName hloader hfree)
      (fun i hi => ⟨(hrefers i hi).1, (hrefers i hi).2.1⟩)
    rw [← hiff]
    constructor
    · intro hrenamed
      exact hcode.unique hrenamed
    · intro hsame
      rwa [← hsame]

/-- Glue whose loader refers to itself and to a property of its own name. -/
def selfReference : Text :=
  "class V\x7bget elements()\x7b\x7d/**@param\x7bV\x7dout@return\x7bvoid\x7d*/".toList ++
    "static z(out)\x7b\x7d\x7dfunction init()\x7breturn init.init\x7d".toList

theorem reviseGlue_renames_selfReference : ∃ r o edits loader body renamed,
    reviseGlue selfReference ⟨[("V", 1)]⟩ defaultInternalName = .ok r ∧
      Script.outline selfReference = .ok o ∧ o.function? loaderName = some loader ∧
      loader.body = some body ∧ r.text = selfReference.edited edits ∧ KeepsMembers o ∧
      isWord defaultInternalName = true ∧ defaultInternalName ∉ Script.wordsBeforeRegex ∧
      (bracedCode o body).map Token.face =
        [mark "\x7b", word "return", word "init", mark ".", word "init", mark "\x7d"] ∧
      r.text = selfReference.editedSpan edits 0 loader.nameStart ++ defaultInternalName.toList ++
        selfReference.editedSpan edits loader.nameStop body.1 ++ renamed ++
        selfReference.editedSpan edits body.2 (selfReference.length + 1) ∧
      HasCode renamed (renamedAt (· = 2) defaultInternalName (bracedCode o body)) := by
  have hchecks : (Script.outline selfReference).toOption.any (fun o => KeepsMembers o ∧
      (o.function? loaderName).all (fun loader => loader.body.all (fun body =>
        (bracedCode o body).map Token.face =
          [mark "\x7b", word "return", word "init", mark ".", word "init", mark "\x7d"] ∧
        ∀ i < (bracedCode o body).length, (i = 2 ↔
          IsLoaderName (bracedCode o body) i ∧ ¬ FollowsPoint (bracedCode o body) i) ∧
          (i = 2 → ¬ IsKey (bracedCode o body) i)))) = true := by
    decide +kernel
  obtain ⟨r, h⟩ : ∃ r, reviseGlue selfReference ⟨[("V", 1)]⟩ defaultInternalName = .ok r :=
    exists_eq_ok_of_isOk (by decide +kernel)
  obtain ⟨o, edits, loader, body, houtline, -, hloader, hbody, htext, hrenames⟩ :=
    reviseGlue_renames h
  rw [houtline] at hchecks
  simp only [Except.toOption, Option.any_some, hloader, Option.all_some, hbody,
    decide_eq_true_eq] at hchecks
  obtain ⟨hkeeps, hcode, hnames⟩ := hchecks
  obtain ⟨renamed, hparts, hiff⟩ := hrenames hkeeps (by decide) (by decide)
  refine ⟨r, o, edits, loader, body, renamed, h, houtline, hloader, hbody, htext, hkeeps,
    by decide, by decide, hcode, htext.trans hparts, (hiff (· = 2) ?_).mpr ?_⟩
  · intro i hi
    have hi' : i = 2 := by simpa using hi
    have hlength : i < (bracedCode o body).length := by
      have := congrArg List.length hcode
      rw [List.length_map] at this
      simp only [List.length_cons, List.length_nil] at this
      omega
    obtain ⟨hiff, hkey⟩ := hnames i hlength
    exact ⟨(hiff.mp hi').1, (hiff.mp hi').2, hkey hi'⟩
  · intro i hname hpoint
    simpa using ((hnames i hname.lt_length).1.mpr ⟨hname, hpoint⟩)

/-- Glue whose loader writes an object literal with a key of its own name. -/
def ownKey : Text :=
  "class V\x7bget elements()\x7b\x7d/**@param\x7bV\x7dout@return\x7bvoid\x7d*/".toList ++
    "static z(out)\x7b\x7d\x7dfunction init()\x7bx=\x7binit:f\x7d\x7d".toList

/-- A key of an object literal that is spelled like the loader is renamed with it. -/
theorem ownKey_renamed : ∃ r o loader body,
    reviseGlue ownKey ⟨[("V", 1)]⟩ defaultInternalName = .ok r ∧ Script.outline ownKey = .ok o ∧
      o.function? loaderName = some loader ∧ loader.body = some body ∧
      IsKey (bracedCode o body) 4 ∧ IsLoaderName (bracedCode o body) 4 ∧
      ownKey.slice body.1 body.2 = "\x7bx=\x7binit:f\x7d\x7d".toList ∧
      r.text = ownKey.editedSpan (glueEdits o ⟨[("V", 1)]⟩ defaultInternalName) 0 body.1 ++
        "\x7bx=\x7binitModule:f\x7d\x7d".toList ++ ownKey.editedSpan
          (glueEdits o ⟨[("V", 1)]⟩ defaultInternalName) body.2 (ownKey.length + 1) := by
  have hchecks : (Script.outline ownKey).toOption.any (fun o =>
      (o.function? loaderName).all (fun loader => loader.body.all (fun body =>
        IsKey (bracedCode o body) 4 ∧ IsLoaderName (bracedCode o body) 4 ∧
        ownKey.slice body.1 body.2 = "\x7bx=\x7binit:f\x7d\x7d".toList ∧
        body.1 ≤ body.2 ∧ body.2 ≤ ownKey.length ∧
        ownKey.editedSpan (glueEdits o ⟨[("V", 1)]⟩ defaultInternalName) body.1 body.2 =
          "\x7bx=\x7binitModule:f\x7d\x7d".toList))) = true := by
    decide +kernel
  obtain ⟨r, h⟩ : ∃ r, reviseGlue ownKey ⟨[("V", 1)]⟩ defaultInternalName = .ok r :=
    exists_eq_ok_of_isOk (by decide +kernel)
  obtain ⟨o, houtline, hsuits, hsound, rfl⟩ := reviseGlue_eq_ok_iff.mp h
  obtain ⟨loader, body, hloader, hbody⟩ := hsuits.loader
  rw [houtline] at hchecks
  simp only [Except.toOption, Option.any_some, hloader, Option.all_some, hbody,
    decide_eq_true_eq] at hchecks
  obtain ⟨hkey, hname, hslice, hle, hlength, hedited⟩ := hchecks
  refine ⟨_, o, loader, body, h, houtline, hloader, hbody, hkey, hname, hslice, ?_⟩
  rw [hsound.apply_eq, Text.edited_eq_append _ hle hlength, hedited]

end WasmPackage.Bindings
