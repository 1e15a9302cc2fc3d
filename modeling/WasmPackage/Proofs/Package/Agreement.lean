import WasmPackage.Proofs.Bindings.Agreement
import WasmPackage.Proofs.Package.Success

/-!
# Agreement of a package

Declarations and glue are revised apart, by passes that look for different things.  A run compares
what they have done before it writes: it succeeds only if they agree, and if they do not, it fails
and changes nothing.
-/

namespace WasmPackage

open WasmPackage.Action (Ends value? exists_ends_of_value? ends_pure ends_bind_ok ends_modify
  ends_ofExcept_ok ends_ofExcept_error)
open WasmPackage.Bindings (Agree IsDeclarations IsGlue SameReports bothArtifacts outlineOf
  reviseDeclarations glueVariants declarationsArtifact glueArtifact bind_ok_iff)

variable {s t u : Session} {c : Config} {search : ToolSearch} {dryRun : Bool}

/-- A run that succeeds has made the same edits in both artifacts. -/
theorem exists_agree_of_ends [Limits] {report : RunReport}
    (h : Ends (polishPackage c search dryRun) s (.ok report) t) :
    ∃ g declarations glue o o', IsGathered c search s g ∧
      IsDeclarations g.sources.declarations o declarations ∧
      IsGlue g.sources.glue c.offsets c.internalName o' glue ∧
      Agree o o' c.offsets c.internalName := by
  rw [polishPackage_eq] at h
  rcases ends_bind_ok.mp h with ⟨⟨prepared, outputs⟩, u, hprepare, -⟩
  rcases exists_isPrepared_of_ends hprepare with ⟨g, header, declarations, variants, hprepared⟩
  rcases Bindings.exists_isDeclarations hprepared.declared with ⟨o, hdeclarations⟩
  rcases Bindings.exists_isGlue (Bindings.glueVariants_eq_ok_iff.mp hprepared.glued).1 with
    ⟨o', hglue⟩
  refine ⟨g, declarations, variants.body, o, o', hprepared.gathered, hdeclarations, hglue, ?_⟩
  rw [← Bindings.sameReports_iff_agree hdeclarations hglue]
  rcases Bindings.checkAgreement_cases declarations variants.body with ⟨-, hsame⟩ |
    ⟨⟨edit, obstacle, herror⟩, -⟩
  · exact hsame
  · have hagreed := hprepared.agreed
    rw [herror] at hagreed
    cases hagreed

/-- Bindings that are revised apart, but not alike, are refused. -/
theorem reviseBindings_of_not_sameReports [Limits] {a : Artifacts} {header : Text}
    {sources : Sources} {binary : Bytes} {declarations : Bindings.Revised}
    {variants : Bindings.Variants}
    (hdeclarations : reviseDeclarations sources.declarations = .ok declarations)
    (hvariants : glueVariants sources.glue c.offsets binary header a.importPath c.internalName =
      .ok variants)
    (hdiffer : ¬SameReports declarations variants.body) :
    ∃ edit obstacle, reviseBindings c a header sources binary =
      .error (.missing bothArtifacts edit obstacle) := by
  rcases Bindings.checkAgreement_cases declarations variants.body with ⟨-, hsame⟩ |
    ⟨⟨edit, obstacle, herror⟩, -⟩
  · exact absurd hsame hdiffer
  · refine ⟨edit, obstacle, ?_⟩
    unfold reviseBindings
    rw [hdeclarations]
    simp only [bind, Except.bind, hvariants, herror]

theorem exists_ends_sayModule (r : Module.Report) (s : Session) :
    ∃ t, Ends (sayModule r) s (.ok ()) t := by
  unfold sayModule
  split
  · exact ⟨_, (ends_modify.mpr ⟨rfl, rfl⟩).bind (ends_modify.mpr ⟨rfl, rfl⟩)⟩
  · exact ⟨_, ends_modify.mpr ⟨rfl, rfl⟩⟩

/-- A run that has transformed the module, and revised both artifacts, but not alike, ends with
that. -/
theorem exists_ends_of_not_sameReports [Limits] {g : Gathered} {declarations : Bindings.Revised}
    {variants : Bindings.Variants} (hgather : Ends (gatherPackage c search) s (.ok g) u)
    (hdeclarations : reviseDeclarations g.sources.declarations = .ok declarations)
    (hvariants : glueVariants g.sources.glue c.offsets g.module.binary (c.header.text?.getD [])
      g.artifacts.importPath c.internalName = .ok variants)
    (hdiffer : ¬SameReports declarations variants.body) :
    ∃ edit obstacle t, Ends (preparePackage c search) s
      (.error (.revision (.missing bothArtifacts edit obstacle))) t := by
  rcases reviseBindings_of_not_sameReports hdeclarations hvariants hdiffer with
    ⟨edit, obstacle, hrevise⟩
  rcases exists_ends_sayModule g.module.report u with ⟨v, hsay⟩
  rw [preparePackage_eq]
  refine ⟨edit, obstacle, v, hgather.bind (hsay.bind ?_)⟩
  exact (ends_ofExcept_error.mpr ⟨_, hrevise, rfl, rfl⟩).bind_error

/-- Declarations and glue never diverge: a run that succeeds has edited the same classes and the
same methods, with the same types, in both.  A run that could revise each of them, but not alike,
fails with that and leaves the file tree as it was. -/
theorem polishPackage_agree [Limits] (htools : search.KeepsView s) :
    (∀ report t, Ends (polishPackage c search dryRun) s (.ok report) t →
      ∃ g declarations glue o o', IsGathered c search s g ∧
        IsDeclarations g.sources.declarations o declarations ∧
        IsGlue g.sources.glue c.offsets c.internalName o' glue ∧
        Agree o o' c.offsets c.internalName) ∧
    ∀ g u declarations variants o o', Ends (gatherPackage c search) s (.ok g) u →
      reviseDeclarations g.sources.declarations = .ok declarations →
      glueVariants g.sources.glue c.offsets g.module.binary (c.header.text?.getD [])
        g.artifacts.importPath c.internalName = .ok variants →
      outlineOf declarationsArtifact g.sources.declarations = .ok o →
      outlineOf glueArtifact g.sources.glue = .ok o' →
      ¬Agree o o' c.offsets c.internalName →
        ∃ edit obstacle t, Ends (polishPackage c search dryRun) s
            (.error (.revision (.missing bothArtifacts edit obstacle))) t ∧
          s.store.SameTree t.store := by
  refine ⟨fun report t h => exists_agree_of_ends h, ?_⟩
  intro g u declarations variants o o' hgather hdeclarations hvariants ho ho' hdiffer
  rcases Bindings.exists_isDeclarations hdeclarations with ⟨od, hd⟩
  rcases Bindings.exists_isGlue (Bindings.glueVariants_eq_ok_iff.mp hvariants).1 with ⟨og, hg⟩
  cases ho.symm.trans hd.outline
  cases ho'.symm.trans hg.outline
  rw [← Bindings.sameReports_iff_agree hd hg] at hdiffer
  rcases exists_ends_of_not_sameReports hgather hdeclarations hvariants hdiffer with
    ⟨edit, obstacle, t, hends⟩
  refine ⟨edit, obstacle, t, ?_, (sameView_preparePackage htools s _ t (.refl s) hends).tree⟩
  rw [polishPackage_eq]
  exact hends.bind_error

/-! ### Glue with a method that is not declared -/

/-- The small glue with another name for its method. -/
def otherGlue : Text :=
  smallGlue.map fun c => if c = 'z' then 'y' else c

/-- Revises both artifacts of a package, and tells whether they agree. -/
def reviseApart [Limits] (c : Config) (search : ToolSearch) : Action Bool := do
  let g ← gatherPackage c search
  let declarations ← Action.ofExcept .revision (reviseDeclarations g.sources.declarations)
  let variants ← Action.ofExcept .revision (glueVariants g.sources.glue c.offsets g.module.binary
    (c.header.text?.getD []) g.artifacts.importPath c.internalName)
  return (Bindings.checkAgreement declarations variants.body).toBool

theorem exists_apart_of_value? [Limits] (h : (reviseApart c search).value? s = some false) :
    ∃ g u declarations variants, Ends (gatherPackage c search) s (.ok g) u ∧
      reviseDeclarations g.sources.declarations = .ok declarations ∧
      glueVariants g.sources.glue c.offsets g.module.binary (c.header.text?.getD [])
        g.artifacts.importPath c.internalName = .ok variants ∧
      ¬SameReports declarations variants.body := by
  rcases exists_ends_of_value? (by rw [h]; rfl) with ⟨alike, t, hends⟩
  rw [hends.value?_eq] at h
  cases h
  unfold reviseApart at hends
  rcases ends_bind_ok.mp hends with ⟨g, u, hgather, hrest⟩
  rcases ends_bind_ok.mp hrest with ⟨declarations, v, hdeclarations, hrest⟩
  rcases ends_bind_ok.mp hrest with ⟨variants, w, hvariants, hlast⟩
  refine ⟨g, u, declarations, variants, hgather, (ends_ofExcept_ok.mp hdeclarations).1,
    (ends_ofExcept_ok.mp hvariants).1, ?_⟩
  rcases Bindings.checkAgreement_cases declarations variants.body with ⟨hok, -⟩ | ⟨-, hdiffer⟩
  · rw [hok] at hlast
    cases (ends_pure.mp hlast).1
  · exact hdiffer

theorem reviseApart_otherGlue :
    (reviseApart smallConfig smallSearch).value? (packageSession otherGlue smallDeclarations) =
      some false := by
  have hfound : (checkGenerator (packageSession otherGlue smallDeclarations).store
      smallConfig).toOption = some (some ⟨⟨0, 2, 29⟩, .settings⟩, none) := by decide +kernel
  rw [value?, reviseApart, run_gatherPackage_bind hfound]
  simp only [Bindings.reviseDeclarations, Bindings.glueVariants, Bindings.reviseGlue,
    Bindings.splitVariant, transformModule, Module.strip,
    Revision.apply_eq_splice_insertionSort]
  decide +kernel

/-- The small package agrees; with the other glue, its run ends before anything is changed. -/
theorem polishPackage_agree_small :
    smallSearch.KeepsView (packageSession smallGlue smallDeclarations) ∧
      smallSearch.KeepsView (packageSession otherGlue smallDeclarations) ∧
      (∃ report t, Ends (polishPackage smallConfig smallSearch false)
          (packageSession smallGlue smallDeclarations) (.ok report) t ∧
        ∃ g declarations glue o o',
          IsGathered smallConfig smallSearch (packageSession smallGlue smallDeclarations) g ∧
          IsDeclarations g.sources.declarations o declarations ∧
          IsGlue g.sources.glue smallConfig.offsets smallConfig.internalName o' glue ∧
          Agree o o' smallConfig.offsets smallConfig.internalName) ∧
      ∃ edit obstacle t, Ends (polishPackage smallConfig smallSearch false)
          (packageSession otherGlue smallDeclarations)
          (.error (.revision (.missing bothArtifacts edit obstacle))) t ∧
        (packageSession otherGlue smallDeclarations).store.SameTree t.store := by
  refine ⟨keepsView_smallSearch _, keepsView_smallSearch _, ?_, ?_⟩
  · rcases exists_ends_polishPackage_small with ⟨report, t, hends⟩
    exact ⟨report, t, hends, (polishPackage_agree (keepsView_smallSearch _)).1 report t hends⟩
  · rcases exists_apart_of_value? reviseApart_otherGlue with
      ⟨g, u, declarations, variants, hgather, hdeclarations, hvariants, hdiffer⟩
    rcases Bindings.exists_isDeclarations hdeclarations with ⟨o, hd⟩
    rcases Bindings.exists_isGlue (Bindings.glueVariants_eq_ok_iff.mp hvariants).1 with ⟨o', hg⟩
    rw [Bindings.sameReports_iff_agree hd hg] at hdiffer
    exact (polishPackage_agree (keepsView_smallSearch _)).2 g u declarations variants o o' hgather
      hdeclarations hvariants hd.outline hg.outline hdiffer

end WasmPackage
