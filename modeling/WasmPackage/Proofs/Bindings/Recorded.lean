import Mathlib.Tactic.MkIffOfInductiveProp
import WasmPackage.Proofs.Bindings.Edits

/-!
# What a pass has recorded

A revision refuses an edit that does not lie in its text or meets another one.  So a pass gives a
result just if nothing bars it, and the edits that its outline gives lie in the text and do not
meet.
-/

namespace WasmPackage.Bindings

open Script (ClassShape FunctionShape Member Outline)

variable {t : Text} {o : Outline} {offsets : OffsetTable} {internal : String} {r : Revised}

/-! ## Declarations -/

/-- The outline has what the pass over declarations looks for, with types that agree. -/
@[mk_iff]
structure SuitsDeclarations (o : Outline) : Prop where
  accessors : declaredAccessors o ≠ []
  init : (o.function? "init").isSome = true
  agree : ∀ c ∈ membersOf o, DeclaresVoid c.2 → TypesAgree c.2
  outMethods : declaredMethods o ≠ []

theorem isStep_reviseDeclarations [Limits] (houtline : Script.outline t = .ok o) :
    IsStep (¬ SuitsDeclarations o) RevisionError.IsMissing (Revision.ofText t) (declarationEdits o)
      (fun b => ⟨b.apply, declaredAccessors o, declaredMethods o⟩) (reviseDeclarations t) := by
  unfold reviseDeclarations
  rw [show outlineOf declarationsArtifact t = pure o from outlineOf_of_outline houtline, pure_bind]
  cases hinit : o.function? "init" with
  | none =>
    have hedits : declarationEdits o = (accessorsOf o).flatMap (fun c => propertyEdits c.2) ++
          (membersOf o).flatMap (fun c => resultEdits c.2) := by
      simp [declarationEdits, hinit]
    rw [hedits]
    refine IsStep.congr (.search (fun _ found _ _ => isStep_declareAccessor found) .of_missing
      (.of_error trivial RevisionError.IsMissing.of_missing)) ?_
    simp [suitsDeclarations_iff, hinit, declaredAccessors]
  | some init =>
    have hedits : declarationEdits o = (accessorsOf o).flatMap (fun c => propertyEdits c.2) ++
        ⟨init.start, init.stop, initDeclaration⟩ ::
          ((membersOf o).flatMap (fun c => resultEdits c.2) ++ []) := by
      simp [declarationEdits, hinit]
    rw [hedits]
    refine IsStep.congr (.search (fun _ found _ _ => isStep_declareAccessor found) .of_missing
      (.replace (.search (fun _ found _ _ => isStep_declareOutput found) .of_missing
        (.of_ok not_false)))) ?_
    simp only [suitsDeclarations_iff, hinit, declaredAccessors, declaredMethods, and_false,
      exists_false, Option.isSome_some, true_and, not_and_or, not_forall, ne_eq, not_not,
      exists_prop, false_or, or_false]

/-- Declarations are revised just if they have what is looked for, and their edits do not meet. -/
theorem reviseDeclarations_eq_ok_iff [Limits] : reviseDeclarations t = .ok r ↔
    ∃ o, Script.outline t = .ok o ∧ SuitsDeclarations o ∧
      Revision.IsSound ⟨t, declarationEdits o⟩ ∧
      r = ⟨Revision.apply ⟨t, declarationEdits o⟩, declaredAccessors o, declaredMethods o⟩ := by
  refine eq_ok_iff_exists_outline rfl fun o houtline => ?_
  rw [(isStep_reviseDeclarations houtline).eq_ok_iff (Revision.isSound_ofText t),
    Revision.ofText_add, not_not]

/-! ## Glue -/

theorem name_of_function? {name : String} {f : FunctionShape} (h : o.function? name = some f) :
    f.name = name := by
  simpa using List.find?_some h

/-- The name of the loader is one that the script defines. -/
theorem ne_loaderName {loader : FunctionShape} (hloader : o.function? loaderName = some loader)
    (hfree : internal ∉ o.names) : internal ≠ loaderName := by
  rintro rfl
  apply hfree
  have hname := name_of_function? hloader
  rw [Outline.names, List.mem_append, List.mem_append]
  exact .inl (.inr (List.mem_map.mpr ⟨loader, List.mem_of_find?_eq_some hloader, hname⟩))

/-- The outline has what the pass over glue looks for, with numbers that can be written and types
that agree, and does not define the new name of the loader. -/
@[mk_iff]
structure SuitsGlue (o : Outline) (offsets : OffsetTable) (internal : String) : Prop where
  counts : ∀ c ∈ accessorsOf o, c.2.body.isSome = true → HasCount offsets c.1.name
  accessors : revisedAccessors o offsets ≠ []
  loader : ∃ loader body, o.function? loaderName = some loader ∧ loader.body = some body
  free : internal ∉ o.names
  agree : ∀ c ∈ membersOf o, c.2.body.isSome = true → TypesAgree c.2
  outMethods : revisedMethods o ≠ []

theorem exists_body_iff : (∃ loader body, o.function? loaderName = some loader ∧
    loader.body = some body) ↔ (o.function? loaderName).bind (·.body) ≠ none := by
  simp [Option.ne_none_iff_exists']

theorem IsCountFailure.missing_or_not_writable {c : ClassShape × Member} {e : RevisionError}
    (h : IsCountFailure offsets c e) (hc : c ∈ accessorsOf o) :
    e.IsMissing ∨ ¬ CountsAreWritable o offsets := by
  obtain ⟨-, rfl⟩ | ⟨⟨body, count, helements, hlong⟩, -⟩ := h
  · exact .inl .of_missing
  · refine .inr fun hwritable => ?_
    rw [hwritable c hc body count helements] at hlong
    cases hlong

theorem isStep_reviseGlue [Limits] (offsets : OffsetTable) (internal : String)
    (houtline : Script.outline t = .ok o) :
    IsStep (¬ SuitsGlue o offsets internal) (fun e => e.IsMissing ∨ ¬ CountsAreWritable o offsets)
      (Revision.ofText t) (glueEdits o offsets internal)
      (fun b => ⟨b.apply, revisedAccessors o offsets, revisedMethods o⟩)
      (reviseGlue t offsets internal) := by
  unfold reviseGlue
  rw [show outlineOf glueArtifact t = pure o from outlineOf_of_outline houtline, pure_bind]
  have hedits : glueEdits o offsets internal = (accessorsOf o).flatMap (bodyEdits o offsets) ++
      (loaderEdits o internal ++ ((membersOf o).flatMap (fun c => outputEdits o c.2) ++ [])) := by
    simp [glueEdits]
  rw [hedits]
  refine IsStep.congr (.search
    (fun _ found _ hc =>
      (isStep_reviseAccessor found).weaken fun _ => (·.missing_or_not_writable hc))
    (.inl .of_missing) (.seq ((isStep_renameLoader houtline rfl).weaken fun _ => Or.inl)
      (.search (fun _ found _ _ => (isStep_reviseOutput found).weaken fun _ => Or.inl)
        (.inl .of_missing) (.of_ok not_false)))) ?_
  simp only [suitsGlue_iff, exists_body_iff, revisedAccessors, revisedMethods, not_and_or,
    not_forall, ne_eq, not_not, exists_prop, or_false, or_assoc]

/-- The accessors are revised before the loader is looked for, so without one their edits come
alone. -/
theorem isStep_reviseGlue_of_none [Limits] (offsets : OffsetTable) (internal : String)
    (houtline : Script.outline t = .ok o)
    (hnone : (o.function? loaderName).bind (·.body) = none) :
    IsStep True (fun e => e.IsMissing ∨ ¬ CountsAreWritable o offsets) (Revision.ofText t)
      ((accessorsOf o).flatMap (bodyEdits o offsets))
      (fun b => ⟨b.apply, revisedAccessors o offsets, revisedMethods o⟩)
      (reviseGlue t offsets internal) := by
  unfold reviseGlue
  rw [show outlineOf glueArtifact t = pure o from outlineOf_of_outline houtline, pure_bind,
    ← List.append_nil ((accessorsOf o).flatMap _)]
  refine IsStep.congr (.search
    (fun _ found _ hc =>
      (isStep_reviseAccessor found).weaken fun _ => (·.missing_or_not_writable hc))
    (.inl .of_missing) (show IsStep True _ _ _ _ _ from ?_)) (by simp)
  rw [renameLoader_of_none hnone]
  exact .of_error trivial (.inl .of_missing)

/-- Glue is revised just if it has what is looked for, and its edits do not meet. -/
theorem reviseGlue_eq_ok_iff [Limits] : reviseGlue t offsets internal = .ok r ↔
    ∃ o, Script.outline t = .ok o ∧ SuitsGlue o offsets internal ∧
      Revision.IsSound ⟨t, glueEdits o offsets internal⟩ ∧
      r = ⟨Revision.apply ⟨t, glueEdits o offsets internal⟩, revisedAccessors o offsets,
        revisedMethods o⟩ := by
  refine eq_ok_iff_exists_outline rfl fun o houtline => ?_
  rw [(isStep_reviseGlue offsets internal houtline).eq_ok_iff (Revision.isSound_ofText t),
    Revision.ofText_add, not_not]

end WasmPackage.Bindings
