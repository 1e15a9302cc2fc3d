import WasmPackage.Proofs.Bindings.Bodies
import WasmPackage.Proofs.Bindings.Outcomes
import WasmPackage.Proofs.Bindings.Recorded
import WasmPackage.Proofs.Script.Bound

/-!
# The internal name of the loader

The new name of the loader must not be one that the script defines already.  The pass looks for it
among the names of the outline, which are those of classes and functions and the first name of each
list of variables that is not exported.  What other statements bind is missed: an import, a variable
that is exported, the later names of a list, and the names in a pattern.  All that is bound at the
top level stays as it is except for the name of the loader, so the revised script binds the new name
once more than the script did.
-/

namespace WasmPackage.Bindings

open Script (ClassShape FunctionShape Item Member Outline Source Statement Token)

variable {t : Text} {o : Outline} {offsets : OffsetTable} {internal : String}
  {loader : FunctionShape} {it : Item} {x : Token} {a b : Nat}

section

variable [Limits] (houtline : Script.outline t = .ok o) (hnested : ∀ c ∈ o.classes, c.IsNested)
  (hloader : o.function? loaderName = some loader) (hbody : loader.body.isSome = true)

include houtline hnested hloader hbody

/-- What stands apart from the members, from the loader and from what is removed stays as it is. -/
theorem editedSpan_of_apart (hle : a ≤ b) (hlength : b ≤ t.length)
    (hmembers : ∀ c ∈ membersOf o, Apart (reachOf c.2) (a, b))
    (hzone : Apart (loader.start, loader.stop) (a, b))
    (hremovals : ∀ st ∈ o.statementsOf ["export", "default", loaderName, ";"],
      Apart (removalOf t st).span (a, b)) :
    t.editedSpan (glueEdits o offsets internal) a b = t.slice a b := by
  obtain ⟨haccessors, houtputs⟩ := misses_members houtline hnested offsets hmembers
  have hmisses : ∀ e ∈ glueEdits o offsets internal, Text.Misses a b e := by
    intro e he
    rw [glueEdits, List.mem_append, List.mem_append] at he
    rcases he with (he | he) | he
    · exact haccessors e he
    · rcases loaderEdits_cases houtline hloader hbody he with hinside | ⟨st, hst, rfl⟩
      · exact hinside.misses hzone (Nat.le_refl _) (Nat.le_refl _)
      · exact (removalOf_inside houtline (by simp) hst).1.misses (hremovals st hst)
          (Nat.le_refl _) (Nat.le_refl _)
    · exact houtputs e he
  have hedited : t.editedSpan (glueEdits o offsets internal ++ [] ++ []) a b =
      t.editedSpan [] a b :=
    Text.editedSpan_of_misses hmisses (List.forall_mem_nil _)
  rw [List.append_nil, List.append_nil] at hedited
  rw [hedited, Text.editedSpan_nil hle hlength]

omit hnested hloader hbody in
/-- A statement that exports the loader binds nothing. -/
theorem bound_of_statementsOf {st : Statement}
    (hst : st ∈ o.statementsOf ["export", "default", loaderName, ";"]) :
    (Item.statement st).bound (o.tokensOf (.statement st)) = [] := by
  have hwords := Script.words_of_statement houtline (mem_items_of_statementsOf hst)
  rw [of_decide_eq_true (List.mem_filter.mp hst).2] at hwords
  refine Script.boundFrom_eq_nil (List.forall_mem_nil _) ?_
  intro x hx
  have htext : x.text ∈ ["export", "default", loaderName, ";"] :=
    hwords ▸ List.mem_map_of_mem hx
  have hnone : ∀ w ∈ ["export", "default", loaderName, ";"], w ∉ Script.declaringWords := by
    decide
  exact hnone _ htext

/-- What an item other than the loader binds stays as it is. -/
theorem editedSpan_bound (hit : it ∈ o.items) (hne : it ≠ .function loader)
    (hx : x ∈ it.bound (o.tokensOf it)) :
    t.editedSpan (glueEdits o offsets internal) x.start x.stop = x.text.toList := by
  obtain ⟨hs, hitems⟩ := Script.outline_eq_ok_iff.mp houtline
  obtain ⟨hcode, hfirst, hlast⟩ :=
    Source.mem_codeIn_iff.mp ((it.bound_sublist (o.tokensOf it)).subset hx)
  have hkind := it.kind_of_bound hx
  have hplace := (Source.standIn_code hs).within x hcode
  have hink {i : Nat} (hstart : x.start ≤ i) (hi : i < x.stop) : t.IsInkAt i :=
    Source.isInkAt_of_identifier hs hcode hkind hstart hi
  have hother {it' : Item} (hit' : it' ∈ o.items) (hne' : it' ≠ it) :
      Apart (it'.start, it'.stop) (x.start, x.stop) :=
    (items_apart houtline hit' hit hne').narrow hfirst hlast
  rw [← Source.slice_of_code hs hcode]
  refine editedSpan_of_apart houtline hnested hloader hbody
    (Nat.le_of_lt hplace.2.1) hplace.2.2 ?_ ?_ ?_
  · intro c hc
    obtain ⟨hclass, hmember⟩ := mem_of_mem_membersOf hc
    have hclass' := Script.mem_classes_iff.mp hclass
    by_cases hsame : Item.classDecl c.1 = it
    · -- the name of a class stands before its members
      subst hsame
      obtain ⟨i, next, hitem, hi⟩ := Source.exists_item_of_mem hitems hit
      have hname := (Source.className_of_item hs hi hitem hx).2
      have hopen := bodyOpen_lt_reachOf (hnested c.1 hclass) hmember
      exact .inr (Nat.le_of_lt (Nat.lt_of_le_of_lt hname hopen))
    · exact (apart_reachOf houtline hnested hc (hother hclass' hsame).symm).symm
  · have hmem := Script.mem_functions_iff.mp (List.mem_of_find?_eq_some hloader)
    exact hother hmem hne.symm
  · intro st hst
    have hne' : Item.statement st ≠ it := by
      rintro rfl
      rw [bound_of_statementsOf houtline hst] at hx
      cases hx
    -- what is removed with a statement is blank, and a name has no blanks
    have hgrows := t.growsByBlanks_lineSpan st.start st.stop
    rcases hother (mem_items_of_statementsOf hst) hne' with hbefore | hbehind
    · exact .inl (hgrows.last_le_of_ink hbefore (hink (Nat.le_refl _) hplace.2.1))
    · simp only [Item.start] at hbehind
      have hlt := hgrows.lt_first (i := x.stop - 1) (by omega) (hink (by omega) (by omega))
      exact .inr (by simp only [removalOf, Edit.span]; omega)

/-- The name of the loader is bound once, and gets the new name. -/
theorem editedSpan_loaderName (offsets : OffsetTable) (internal : String) :
    ∃ x, (Item.function loader).bound (o.tokensOf (.function loader)) = [x] ∧
      x.text = loaderName ∧
      t.editedSpan (glueEdits o offsets internal) x.start x.stop = internal.toList := by
  obtain ⟨body, hsome⟩ := Option.isSome_iff_exists.mp hbody
  have hname := name_of_function? hloader
  obtain ⟨x, hx, htext, hstart, hstop⟩ := Script.bound_function houtline
    (Script.mem_functions_iff.mp (List.mem_of_find?_eq_some hloader)) (by rw [hname]; decide)
  refine ⟨x, hx, htext.trans hname, ?_⟩
  rw [hstart, hstop]
  exact editedSpan_name houtline hnested hloader hsome

/-- The new name is bound once more than it was. -/
theorem countP_bound (hne : internal ≠ loaderName) :
    o.bound.countP (fun x => t.editedSpan (glueEdits o offsets internal) x.start x.stop =
        internal.toList) =
      o.bound.countP (·.text = internal) + 1 := by
  have hitem := Script.mem_functions_iff.mp (List.mem_of_find?_eq_some hloader)
  obtain ⟨front, back, hitems⟩ := List.append_of_mem hitem
  have hothers {its : List Item} (hits : ∀ it ∈ its, it ∈ o.items ∧ it ≠ .function loader) :
      (its.flatMap fun it => it.bound (o.tokensOf it)).countP
          (fun x => t.editedSpan (glueEdits o offsets internal) x.start x.stop = internal.toList) =
        (its.flatMap fun it => it.bound (o.tokensOf it)).countP (·.text = internal) := by
    apply List.countP_congr
    intro x hx
    obtain ⟨it, hit, hx⟩ := List.mem_flatMap.mp hx
    obtain ⟨hmem, hne⟩ := hits it hit
    rw [editedSpan_bound houtline hnested hloader hbody hmem hne hx, decide_eq_true_eq,
      decide_eq_true_eq, String.toList_inj]
  -- no other item stands where the loader does
  have hdistinct : ∀ it ∈ front ++ back, it ∈ o.items ∧ it ≠ .function loader := by
    have hordered := Script.ordered_items houtline
    obtain ⟨-, hparts, -⟩ := Script.parts_of_function? houtline hloader
    have hlt := hparts.start_lt_stop
    rw [hitems, List.pairwise_append] at hordered
    obtain ⟨-, hbehind, hfront⟩ := hordered
    intro it hit
    constructor
    · rw [hitems]
      simp only [List.mem_append, List.mem_cons] at hit ⊢
      tauto
    · rintro rfl
      rcases List.mem_append.mp hit with hit | hit
      · exact Nat.not_le_of_lt hlt (hfront _ hit _ List.mem_cons_self)
      · exact Nat.not_le_of_lt hlt (List.rel_of_pairwise_cons hbehind hit)
  rw [List.forall_mem_append] at hdistinct
  obtain ⟨x, hx, htext, hedited⟩ :=
    editedSpan_loaderName houtline hnested hloader hbody offsets internal
  have hold : ¬ (x.text = internal) := htext.symm ▸ hne.symm
  rw [Outline.bound, hitems, List.flatMap_append, List.flatMap_cons, hx]
  simp only [List.countP_append]
  rw [hothers hdistinct.1, hothers hdistinct.2]
  simp only [List.countP_singleton, hedited, hold, decide_true, decide_false, if_true,
    Bool.false_eq_true, if_false]
  omega

end

/-- Glue that is revised binds the new name of the loader only where the names of its outline miss
it, and the revised glue binds it once if they do not. -/
theorem reviseGlue_binds [Limits] {r : Revised} (h : reviseGlue t offsets internal = .ok r) :
    ∃ o edits, Script.outline t = .ok o ∧ edits = glueEdits o offsets internal ∧
      r.text = t.edited edits ∧ internal ∉ o.names ∧
      o.bound.filter (·.text = internal) = o.missed.filter (·.text = internal) ∧
      (KeepsMembers o →
        o.bound.countP (fun x => t.editedSpan edits x.start x.stop = internal.toList) =
          o.missed.countP (·.text = internal) + 1) := by
  obtain ⟨o, houtline, hsuits, hsound, rfl⟩ := reviseGlue_eq_ok_iff.mp h
  obtain ⟨loader, body, hloader, hsome⟩ := hsuits.loader
  have hfree := hsuits.free
  have hmissed := Script.filter_bound houtline hfree
  refine ⟨o, _, houtline, rfl, hsound.apply_eq, hfree, hmissed, ?_⟩
  intro hkeeps
  have hnested := (Script.isNested_classes_iff houtline).mpr hkeeps
  rw [countP_bound houtline hnested hloader (by simp [hsome])
    (ne_loaderName hloader hfree), List.countP_eq_length_filter,
    List.countP_eq_length_filter, hmissed]

/-- Glue with a list of two variables. -/
def twoVariables : Text :=
  "class V\x7bget elements()\x7b\x7d/**@param\x7bV\x7dout@return\x7bvoid\x7d*/".toList ++
    "static z(out)\x7b\x7d\x7dfunction init()\x7b\x7dlet a,b;".toList

theorem reviseGlue_binds_twoVariables : ∃ r o o',
    reviseGlue twoVariables ⟨[("V", 1)]⟩ defaultInternalName = .ok r ∧
      Script.outline twoVariables = .ok o ∧ KeepsMembers o ∧
      o.bound.map (·.text) = ["V", "init", "a", "b"] ∧ o.missed.map (·.text) = ["b"] ∧
      o.bound.countP (fun x => twoVariables.editedSpan
        (glueEdits o ⟨[("V", 1)]⟩ defaultInternalName) x.start x.stop =
          defaultInternalName.toList) = 1 ∧
      Script.outline r.text = .ok o' ∧
      o'.bound.map (·.text) = ["V", defaultInternalName, "a", "b"] := by
  have hchecks : (Script.outline twoVariables).toOption.any (fun o => KeepsMembers o ∧
      o.bound.map (·.text) = ["V", "init", "a", "b"] ∧ o.missed.map (·.text) = ["b"] ∧
      o.missed.countP (·.text = defaultInternalName) = 0 ∧
      (Script.outline (twoVariables.edited
        (glueEdits o ⟨[("V", 1)]⟩ defaultInternalName))).toOption.any (fun o' =>
          o'.bound.map (·.text) = ["V", defaultInternalName, "a", "b"])) = true := by
    decide +kernel
  obtain ⟨r, h⟩ : ∃ r, reviseGlue twoVariables ⟨[("V", 1)]⟩ defaultInternalName = .ok r :=
    exists_eq_ok_of_isOk (by decide +kernel)
  obtain ⟨o, edits, houtline, rfl, htext, -, -, hcount⟩ := reviseGlue_binds h
  rw [houtline] at hchecks
  obtain ⟨hkeeps, hbound, hmissed, hnone, hrevised⟩ := of_decide_eq_true hchecks
  rw [← htext] at hrevised
  cases houtline' : Script.outline r.text with
  | error e =>
    rw [houtline'] at hrevised
    cases hrevised
  | ok o' =>
    rw [houtline'] at hrevised
    refine ⟨r, o, o', h, houtline, hkeeps, hbound, hmissed, ?_, houtline',
      of_decide_eq_true hrevised⟩
    rw [hcount hkeeps, hnone]

/-- Glue that binds the new name of the loader behind another variable. -/
def laterVariable : Text :=
  "class V\x7bget elements()\x7b\x7d/**@param\x7bV\x7dout@return\x7bvoid\x7d*/".toList ++
    "static z(out)\x7b\x7d\x7dfunction init()\x7b\x7dlet a,initModule;".toList

/-- Glue is revised though a later variable of a list has the new name, which is bound twice
then. -/
theorem laterVariable_revised : ∃ r o o',
    reviseGlue laterVariable ⟨[("V", 1)]⟩ defaultInternalName = .ok r ∧
      Script.outline laterVariable = .ok o ∧
      o.statements.map (·.words) = [["let", "a", ",", defaultInternalName, ";"]] ∧
      o.bound.map (·.text) = ["V", "init", "a", defaultInternalName] ∧
      Script.outline r.text = .ok o' ∧
      o'.bound.map (·.text) = ["V", defaultInternalName, "a", defaultInternalName] := by
  have hchecks : (Script.outline laterVariable).toOption.any (fun o =>
      o.statements.map (·.words) = [["let", "a", ",", defaultInternalName, ";"]] ∧
      o.bound.map (·.text) = ["V", "init", "a", defaultInternalName] ∧
      (Script.outline (laterVariable.edited
        (glueEdits o ⟨[("V", 1)]⟩ defaultInternalName))).toOption.any (fun o' =>
          o'.bound.map (·.text) = ["V", defaultInternalName, "a", defaultInternalName])) =
      true := by
    decide +kernel
  obtain ⟨r, h⟩ : ∃ r, reviseGlue laterVariable ⟨[("V", 1)]⟩ defaultInternalName = .ok r :=
    exists_eq_ok_of_isOk (by decide +kernel)
  obtain ⟨o, houtline, -, hsound, rfl⟩ := reviseGlue_eq_ok_iff.mp h
  rw [houtline] at hchecks
  obtain ⟨hwords, hbound, hrevised⟩ := of_decide_eq_true hchecks
  rw [← hsound.apply_eq] at hrevised
  cases houtline' : Script.outline
      (Revision.apply ⟨laterVariable, glueEdits o ⟨[("V", 1)]⟩ defaultInternalName⟩) with
  | error e =>
    rw [houtline'] at hrevised
    cases hrevised
  | ok o' =>
    rw [houtline'] at hrevised
    exact ⟨_, o, o', h, houtline, hwords, hbound, houtline', of_decide_eq_true hrevised⟩

end WasmPackage.Bindings
