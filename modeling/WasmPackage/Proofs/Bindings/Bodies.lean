import WasmPackage.Proofs.Bindings.EditPlaces
import WasmPackage.Proofs.Script.Renaming

/-!
# What becomes of bodies

The glue is edited in its accessors, in its loader and in its output methods.  In glue whose members
are nested in their classes the edits of one of these do not touch another, so the body of an output
method becomes what its own edits make of it, and the loader what becomes of it alone.
-/

namespace WasmPackage

/-- What lies in a span does not touch another one that is apart from it. -/
theorem Edit.Inside.misses {e : Edit} {zone span : Nat × Nat} {a b : Nat} (h : e.Inside zone)
    (hapart : Apart zone span) (hfirst : span.1 ≤ a) (hlast : b ≤ span.2) : Text.Misses a b e := by
  have := h.first
  have := h.begins
  have := h.last
  unfold Apart at hapart
  unfold Text.Misses
  omega

namespace Bindings

open Script (ClassShape FunctionShape Member Outline Token)

variable {t : Text} {o : Outline} {c : ClassShape × Member} {m : Member} {offsets : OffsetTable}
  {internal : String} {loader : FunctionShape} {body span : Nat × Nat} {a b : Nat}

theorem within_of_mem [Limits] (houtline : Script.outline t = .ok o) (hc : c ∈ membersOf o)
    (hbody : c.2.body = some body) : body.1 + 1 < body.2 := by
  obtain ⟨hclass, hmember⟩ := mem_of_mem_membersOf hc
  exact (Script.parts_of_class houtline hclass).2.2.2 c.2 hmember body (by simp [hbody])

theorem outputEdits_inside [Limits] (houtline : Script.outline t = .ok o)
    (hnested : ∀ c ∈ o.classes, c.IsNested) (hc : c ∈ membersOf o) {e : Edit}
    (he : e ∈ outputEdits o c.2) : e.Inside (reachOf c.2) := by
  have hplaced := (Script.isPlaced_of_outline houtline).2
  have hbodies : ∀ body ∈ c.2.body, body.1 + 1 < body.2 :=
    fun body hbody => within_of_mem houtline hc hbody
  exact (outputEdits_sound hplaced (isNested_of_mem hnested hc) hbodies).1 e he

section

variable [Limits] (houtline : Script.outline t = .ok o) (hnested : ∀ c ∈ o.classes, c.IsNested)
  (hloader : o.function? loaderName = some loader) (hbody : loader.body.isSome = true)

include houtline hnested hloader hbody

/-- The body of an output method becomes what the edits for its return make of it. -/
theorem editedSpan_output {type : String} (hc : c ∈ membersOf o)
    (houtput : revisedOutput? c.2 = some (body, type, span)) :
    t.editedSpan (glueEdits o offsets internal) body.1 body.2 =
      t.editedSpan (returnEdits o c.2.start body) body.1 body.2 := by
  obtain ⟨hmember, hisOutput⟩ := revisedOutput?_eq_some_iff.mp houtput
  have hnested' := isNested_of_mem hnested hc
  have hwithin := hnested'.body body hmember
  have hreach := reachOf_fst_le hnested'
  have hname := hnested'.name
  -- the body lies in its member, and what lies apart from that does not touch it
  have hmisses {e : Edit} {zone : Nat × Nat} (he : e.Inside zone)
      (hapart : Apart zone (reachOf c.2)) : Text.Misses body.1 body.2 e :=
    he.misses hapart (by omega) hwithin.2.2
  obtain ⟨front, back, hsplit⟩ := List.append_of_mem hc
  have hapart := reachOf_apart houtline hnested
  have hothers : ∀ c' ∈ front ++ back, ∀ e ∈ outputEdits o c'.2, Text.Misses body.1 body.2 e := by
    intro c' hc' e he
    have hc'' : c' ∈ membersOf o := by
      rw [hsplit]
      simp only [List.mem_append, List.mem_cons] at hc' ⊢
      tauto
    refine hmisses (outputEdits_inside houtline hnested hc'' he) ?_
    rw [hsplit, List.pairwise_append, List.pairwise_cons] at hapart
    rcases List.mem_append.mp hc' with hfront | hback
    · exact hapart.2.2 c' hfront c List.mem_cons_self
    · exact (hapart.2.1.1 c' hback).symm
  have haccessors : ∀ e ∈ (accessorsOf o).flatMap (bodyEdits o offsets),
      Text.Misses body.1 body.2 e := by
    intro e he
    obtain ⟨c', hc', he⟩ := List.mem_flatMap.mp he
    have hmem := accessorsOf_sublist.subset hc'
    have hne : c' ≠ c := by
      rintro rfl
      have hgetter := kind_of_mem_accessorsOf hc'
      rw [hisOutput.method] at hgetter
      cases hgetter
    have hsymm : Std.Symm fun c c' : ClassShape × Member => Apart (reachOf c.2) (reachOf c'.2) :=
      ⟨fun _ _ => Apart.symm⟩
    exact hmisses (bodyEdits_inside (isNested_of_mem hnested hmem) he) (hapart.forall hmem hc hne)
  have hloaderEdits : ∀ e ∈ loaderEdits o internal, Text.Misses body.1 body.2 e := by
    intro e he
    obtain ⟨zone, hinside, -, hzone⟩ := loaderEdits_apart houtline hnested hloader hbody he
    exact hmisses hinside (hzone c hc)
  have hdoc : Text.Misses body.1 body.2 ⟨span.1, span.2, type.toList⟩ := by
    have hdocEdit : Edit.Inside ⟨span.1, span.2, type.toList⟩ ((reachOf c.2).1, c.2.start) :=
      docEdit_inside hnested' hisOutput
    have hapart' : Apart ((reachOf c.2).1, c.2.start) body := .inl (by simp only; omega)
    exact hdocEdit.misses hapart' (Nat.le_refl _) (Nat.le_refl _)
  have hedits : glueEdits o offsets internal =
      ((accessorsOf o).flatMap (bodyEdits o offsets) ++ loaderEdits o internal ++
        front.flatMap (fun c => outputEdits o c.2) ++ [⟨span.1, span.2, type.toList⟩]) ++
      returnEdits o c.2.start body ++ back.flatMap (fun c => outputEdits o c.2) := by
    rw [glueEdits, hsplit, List.flatMap_append, List.flatMap_cons, outputEdits, houtput]
    simp
  rw [hedits]
  apply Text.editedSpan_of_misses
  · intro e he
    simp only [List.mem_append, List.mem_flatMap, List.mem_singleton] at he
    rcases he with ((he | he) | ⟨c', hc', he⟩) | rfl
    · exact haccessors e (List.mem_flatMap.mpr he)
    · exact hloaderEdits e he
    · exact hothers c' (List.mem_append_left _ hc') e he
    · exact hdoc
  · intro e he
    obtain ⟨c', hc', he⟩ := List.mem_flatMap.mp he
    exact hothers c' (List.mem_append_right _ hc') e he

omit hloader hbody in
/-- The edits of members do not touch what stands apart from all of them. -/
theorem misses_members (offsets : OffsetTable)
    (hapart : ∀ c ∈ membersOf o, Apart (reachOf c.2) (a, b)) :
    (∀ e ∈ (accessorsOf o).flatMap (bodyEdits o offsets), Text.Misses a b e) ∧
      ∀ e ∈ (membersOf o).flatMap (fun c => outputEdits o c.2), Text.Misses a b e := by
  constructor
  · intro e he
    obtain ⟨c, hc, he⟩ := List.mem_flatMap.mp he
    have hc' := accessorsOf_sublist.subset hc
    exact (bodyEdits_inside (isNested_of_mem hnested hc') he).misses (hapart c hc') (Nat.le_refl _)
      (Nat.le_refl _)
  · intro e he
    obtain ⟨c, hc, he⟩ := List.mem_flatMap.mp he
    exact (outputEdits_inside houtline hnested hc he).misses (hapart c hc) (Nat.le_refl _)
      (Nat.le_refl _)

/-- The edits of the members and the removals of exports do not touch the loader. -/
theorem misses_loader (offsets : OffsetTable) (ha : loader.start ≤ a) (hb : b ≤ loader.stop) :
    (∀ e ∈ (accessorsOf o).flatMap (bodyEdits o offsets), Text.Misses a b e) ∧
      (∀ e ∈ (o.statementsOf ["export", "default", loaderName, ";"]).map (removalOf t),
        Text.Misses a b e) ∧
      ∀ e ∈ (membersOf o).flatMap (fun c => outputEdits o c.2), Text.Misses a b e := by
  have hmem : loader ∈ o.functions := List.mem_of_find?_eq_some hloader
  have hitem := Script.mem_functions_iff.mp hmem
  obtain ⟨hparts, hink⟩ := Script.parts_of_function houtline hmem
  have hmembers : ∀ c ∈ membersOf o, Apart (reachOf c.2) (a, b) := by
    intro c hc
    exact (function_apart houtline hnested hmem hc).symm.narrow ha hb
  obtain ⟨haccessors, houtputs⟩ := misses_members houtline hnested offsets hmembers
  refine ⟨haccessors, ?_, houtputs⟩
  intro e he
  obtain ⟨st, hst, rfl⟩ := List.mem_map.mp he
  exact (removalOf_inside houtline (by simp) hst).1.misses (removalOf_apart houtline
    (mem_items_of_statementsOf hst) hitem (by simp) hparts.start_lt_stop (hink hbody)) ha hb

end

/-- The tokens of a body that are renamed with the loader. -/
def referencesIn (o : Outline) (body : Nat × Nat) : List Token :=
  loaderReferences none (o.tokensWithin body.1 body.2)

/-- The edit that takes away the words that export a function. -/
def exportEdits (f : FunctionShape) : List Edit :=
  if f.start ≠ f.keywordStart then [⟨f.start, f.keywordStart, []⟩] else []

section

variable [Limits] (houtline : Script.outline t = .ok o) (hnested : ∀ c ∈ o.classes, c.IsNested)
  (hloader : o.function? loaderName = some loader) (hbody : loader.body = some body)

include houtline hloader hbody

omit [Limits] houtline hloader hbody in
theorem exportEdits_miss (hparts : loader.IsNested) (ha : loader.nameStart ≤ a) :
    ∀ e ∈ exportEdits loader, Text.Misses a b e := by
  intro e he
  have hkeyword := hparts.keyword
  unfold exportEdits at he
  split at he
  · rw [List.mem_singleton] at he
    subst he
    exact .inl ⟨by simp only; omega, by simp only; omega⟩
  · cases he

theorem loaderEdits_eq : loaderEdits o internal =
    exportEdits loader ++ [⟨loader.nameStart, loader.nameStop, internal.toList⟩] ++
      (referencesIn o body).map (Script.renameEdit internal) ++
      (o.statementsOf ["export", "default", loaderName, ";"]).map (removalOf t) := by
  have htext : o.text = t := (Script.isPlaced_of_outline houtline).1
  simp only [loaderEdits, hloader, hbody, htext, exportEdits, referencesIn, Option.map_some,
    Option.getD_some, List.append_assoc, List.cons_append]
  rfl

omit hloader hbody in
theorem standIn_referencesIn : Script.StandIn body.1 body.2 (referencesIn o body) := by
  obtain ⟨hs, -⟩ := Script.outline_eq_ok_iff.mp houtline
  exact (Script.Source.standIn_codeIn hs).sublist (loaderReferences_sublist none _)

include hnested

/-- A part of the loader becomes what its own edits make of it. -/
theorem editedSpan_loader (ha : loader.start ≤ a) (hb : b ≤ loader.stop) :
    t.editedSpan (glueEdits o offsets internal) a b =
      t.editedSpan (exportEdits loader ++ [⟨loader.nameStart, loader.nameStop, internal.toList⟩] ++
        (referencesIn o body).map (Script.renameEdit internal)) a b := by
  obtain ⟨haccessors, hremovals, houtputs⟩ :=
    misses_loader houtline hnested hloader (by simp [hbody]) offsets ha hb
  rw [glueEdits, loaderEdits_eq houtline hloader hbody, List.append_assoc, List.append_assoc _ _
    (List.flatMap _ _), ← List.append_assoc (List.flatMap _ _)]
  apply Text.editedSpan_of_misses haccessors
  intro e he
  rcases List.mem_append.mp he with he | he
  · exact hremovals e he
  · exact houtputs e he

/-- The loader gets its new name where it is declared. -/
theorem editedSpan_name :
    t.editedSpan (glueEdits o offsets internal) loader.nameStart loader.nameStop =
      internal.toList := by
  obtain ⟨-, hparts, hlength⟩ := Script.parts_of_function? houtline hloader
  have hkeyword := hparts.keyword
  have hname := hparts.name
  have hend := hparts.body body hbody
  have hstop : loader.nameStop ≤ t.length := by omega
  rw [editedSpan_loader houtline hnested hloader hbody (by omega) hname.2,
    Text.editedSpan_of_misses (exportEdits_miss hparts (Nat.le_refl _)),
    Text.editedSpan_singleton hstop (Nat.le_refl _) hname.1 (Nat.le_of_lt hname.1) (Nat.le_refl _)]
  · simp [Text.slice]
  · intro e he
    obtain ⟨x, hx, rfl⟩ := List.mem_map.mp he
    have hplace := (standIn_referencesIn houtline).within x hx
    exact .inr (by simp only [Script.renameEdit]; omega)

/-- The body of the loader becomes its text with the references renamed. -/
theorem editedSpan_loaderBody (ha : body.1 ≤ a) (hab : a ≤ body.2)
    (hfirst : ∀ x ∈ referencesIn o body, a ≤ x.start) :
    t.editedSpan (glueEdits o offsets internal) a body.2 = Revision.splice (t.take body.2) a
      ((referencesIn o body).map (Script.renameEdit internal)) := by
  obtain ⟨-, hparts, hlength⟩ := Script.parts_of_function? houtline hloader
  have hkeyword := hparts.keyword
  have hname := hparts.name
  have hend := hparts.body body hbody
  have hstand : Script.StandIn body.1 body.2 (referencesIn o body) := standIn_referencesIn houtline
  have hbefore : ∀ e ∈ exportEdits loader ++
      [⟨loader.nameStart, loader.nameStop, internal.toList⟩], Text.Misses a body.2 e := by
    intro e he
    rw [List.mem_append, List.mem_singleton] at he
    rcases he with he | rfl
    · exact exportEdits_miss hparts (by omega) e he
    · exact .inl ⟨by simp only; omega, by simp only; omega⟩
  rw [editedSpan_loader houtline hnested hloader hbody (by omega) (by omega),
    ← List.append_nil (exportEdits loader ++ _ ++ _),
    Text.editedSpan_of_misses hbefore (List.forall_mem_nil _)]
  apply Text.editedSpan_eq_splice hab (by omega)
  · intro e he
    obtain ⟨x, hx, rfl⟩ := List.mem_map.mp he
    have hplace := hstand.within x hx
    have := hfirst x hx
    simp only [Script.renameEdit]
    omega
  · rw [List.pairwise_map]
    exact hstand.ordered

end

end Bindings

end WasmPackage
