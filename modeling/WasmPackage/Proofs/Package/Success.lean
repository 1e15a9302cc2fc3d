import WasmPackage.Proofs.Package.Stages

/-!
# What a successful run writes

A run that succeeds has moved all of its outputs to their places.  So the package holds one module,
in three forms that agree with each other, between bindings that were revised around it.
-/

namespace WasmPackage

open WasmPackage.Action (Ends Preserves value? exists_ends_of_value? ends_pure ends_bind_ok
  preserves_pure)
open WasmPackage.Bindings (bytesOf? loaderOf importLine IsWithoutPlaceholders)

variable {s t u : Session} {c : Config} {search : ToolSearch} {parent k : Location}
  {outputs : List Output}

/-! ## Written outputs -/

/-- The outputs, and nothing else, have been written to a tree. -/
structure AreWritten (s : Session) (outputs : List Output) (store : Store) : Prop where
  read : ∀ o ∈ outputs, store.read s.directory o.target = .ok o.content
  others : ∀ k, (∀ o ∈ outputs, s.store.locate s.directory o.target ≠ .ok k) →
    store.entry? k = s.store.entry? k
  isDirectory : ∀ k, store.isDirectory k = s.store.isDirectory k

/-- Places of outputs are no directories, neither before they are written nor afterwards. -/
theorem isDirectory_entriesAfter {store : Store}
    (hentries : ∀ k, store.entry? k = entriesAfter parent s.store.entry? outputs k)
    (hdistinct : (outputs.map (·.target.name)).Nodup)
    (hmoved : ∀ o ∈ outputs, CanBeMoved s.store parent o) (k : Location) :
    store.isDirectory k = s.store.isDirectory k := by
  by_cases hplace : ∃ o ∈ outputs, k = parent ++ [o.target.name]
  · rcases hplace with ⟨o, ho, rfl⟩
    rw [(hmoved o ho).free, Store.isDirectory, hentries, entriesAfter_of_mem hdistinct ho]
    rfl
  · have hother : ∀ o ∈ outputs, k ≠ parent ++ [o.target.name] :=
      fun o ho hk => hplace ⟨o, ho, hk⟩
    rw [Store.isDirectory, hentries, entriesAfter_of_forall_ne hother, Store.isDirectory]

theorem Wrote.eq_of_ok {moved : List Output} (h : Wrote outputs (.ok ()) moved) :
    moved = outputs := by
  cases h with
  | moved hcame =>
    cases hcame with
    | done => rfl

/-- If writing succeeds, every output is at its place. -/
theorem areWritten_of_ends {directory : Path} (htree : s.store.IsTree)
    (hplaces : HavePlaces s outputs parent)
    (h : Ends (writeOutputs directory outputs) s (.ok ()) t) : AreWritten s outputs t.store := by
  obtain ⟨moved, hwrote, hmoved, hentries⟩ := writeOutputs_ends htree hplaces.isPlace
    (fun o ho => hplaces.notStaging o ho s.store) h
  rw [hwrote.eq_of_ok] at hmoved hentries
  have hdirs := isDirectory_entriesAfter hentries hplaces.distinct hmoved
  have hstands : ∀ o ∈ outputs, t.store.IsPlace s.directory o.target parent := by
    intro o ho
    apply (hplaces.isPlace o ho).mono
    intro m hm
    rw [hdirs m, hm]
  refine ⟨?_, ?_, hdirs⟩
  · intro o ho
    rw [Store.read_eq_ok_iff]
    refine ⟨false, (hstands o ho).find_eq_ok_iff.mpr ⟨(hmoved o ho).short, ?_⟩⟩
    rw [hentries, entriesAfter_of_mem hplaces.distinct ho]
  · intro k hk
    rw [hentries, entriesAfter_of_forall_ne]
    rintro o ho rfl
    apply hk o ho
    rw [(hplaces.isPlace o ho).locate, (hmoved o ho).short]
    rfl

/-- What is written does not depend on what a run has said before it writes. -/
theorem AreWritten.of_sameView {store : Store} (h : AreWritten t outputs store)
    (hview : s.SameView t) : AreWritten s outputs store := by
  refine ⟨?_, ?_, ?_⟩
  · intro o ho
    rw [← hview.directory]
    exact h.read o ho
  · intro k hk
    rw [h.others k, hview.tree k]
    intro o ho hlocate
    rw [hview.directory] at hlocate
    apply hk o ho
    apply Store.locate_mono hlocate
    intro m hm
    rw [← hm, hview.tree.isDirectory_eq]
  · intro k
    rw [h.isDirectory, hview.tree.isDirectory_eq]

theorem AreWritten.sameTree {store store' : Store} (h : AreWritten s outputs store)
    (hsame : store.SameTree store') : AreWritten s outputs store' := by
  refine ⟨fun o ho => Store.read_of_sameTree hsame.symm (h.read o ho), ?_, ?_⟩
  · intro k hk
    rw [hsame k, h.others k hk]
  · intro k
    rw [hsame.isDirectory_eq, h.isDirectory]

/-! ## Successful runs -/

/-- Saying lines changes nothing that a run sees. -/
theorem sameView_forM_say (outputs : List Output) (g : Output → String) :
    (outputs.forM (fun o => Action.say .note (g o))).Preserves s.SameView := by
  induction outputs with
  | nil => exact preserves_pure _
  | cons o outputs ih => exact (sameView_say _ _).bind fun _ => ih

/-- A run that succeeds and is no dry run gives the report that it prepared, but for having
written, and has written the outputs that it prepared. -/
theorem areWritten_of_preparePackage [Limits] (htree : s.store.IsTree) (htools : search.KeepsView s)
    {prepared report : RunReport}
    (hprepare : Ends (preparePackage c search) s (.ok (prepared, outputs)) u)
    (h : Ends (polishPackage c search false) s (.ok report) t) :
    report = { prepared with written := true } ∧ AreWritten s outputs t.store := by
  have hview := sameView_preparePackage htools s _ u (.refl s) hprepare
  rcases exists_havePlaces_of_preparePackage hprepare with ⟨parent, hplaces⟩
  rw [polishPackage_eq, Ends, hprepare.run_bind] at h
  rcases ends_bind_ok.mp h with ⟨⟨⟩, v, hwritten, hrest⟩
  rcases ends_bind_ok.mp hrest with ⟨⟨⟩, w, hsay, hlast⟩
  rcases ends_pure.mp hlast with ⟨hreport, rfl⟩
  cases hreport
  have hsaid := sameView_forM_say outputs _ v _ t (.refl v) hsay
  have hthere := areWritten_of_ends (htree.sameTree hview.tree) (hplaces.sameView hview) hwritten
  exact ⟨rfl, (hthere.of_sameView hview).sameTree hsaid.tree⟩

/-- A run that succeeds and is no dry run has written the outputs that it prepared. -/
theorem exists_isPrepared_of_polishPackage [Limits] (htree : s.store.IsTree)
    (htools : search.KeepsView s) {report : RunReport}
    (h : Ends (polishPackage c search false) s (.ok report) t) :
    ∃ prepared outputs g header declarations variants,
      IsPrepared c search s prepared outputs g header declarations variants ∧
      report = { prepared with written := true } ∧ AreWritten s outputs t.store := by
  have hrun := h
  rw [polishPackage_eq] at hrun
  rcases ends_bind_ok.mp hrun with ⟨⟨prepared, outputs⟩, u, hprepare, -⟩
  rcases exists_isPrepared_of_ends hprepare with ⟨g, header, declarations, variants, hprepared⟩
  exact ⟨prepared, outputs, g, header, declarations, variants, hprepared,
    areWritten_of_preparePackage htree htools hprepare h⟩

/-- The paths of a package's artifacts, as a run writes them. -/
def Artifacts.paths (a : Artifacts) : List Path :=
  [a.binary, a.moduleText, a.declarations, a.glue, a.splitGlue, a.internalDeclarations]

/-- A run has left one package behind, made of what it found: the module, its text, and bindings
that were revised around that module. -/
structure IsCoherent [Limits] (c : Config) (search : ToolSearch) (s t : Session)
    (report : RunReport) (g : Gathered) (header : Text)
    (declarations glue : Bindings.Revised) : Prop where
  gathered : IsGathered c search s g
  writable : c.header.text? = some header
  declared : Bindings.reviseDeclarations g.sources.declarations = .ok declarations
  revised : Bindings.reviseGlue g.sources.glue c.offsets c.internalName = .ok glue
  holdsBinary : t.store.read s.directory g.artifacts.binary = .ok g.module.binary
  holdsModuleText : t.store.read s.directory g.artifacts.moduleText = .ok g.module.text.encode
  holdsDeclarations : t.store.read s.directory g.artifacts.declarations =
    .ok (header ++ declarations.text).encode
  /-- The loader of the glue holds the bytes of the module. -/
  holdsGlue : ∃ numbers, bytesOf? numbers = some g.module.binary ∧
    t.store.read s.directory g.artifacts.glue =
      .ok (header ++ glue.text ++ loaderOf c.internalName numbers).encode
  /-- The split variant is made of the same glue. -/
  holdsSplitGlue : ∃ rest, IsWithoutPlaceholders glue.text rest ∧
    t.store.read s.directory g.artifacts.splitGlue =
      .ok (header ++ importLine g.artifacts.importPath ++ rest).encode
  holdsInternalDeclarations : ∃ before,
    s.store.read s.directory g.artifacts.internalDeclarations = .ok before ∧
      t.store.read s.directory g.artifacts.internalDeclarations = .ok (header.encode ++ before)
  written : report.written = true
  paths : report.outputs.map (·.1) = g.artifacts.paths
  sizes : ∀ x ∈ report.outputs, ∃ content,
    t.store.read s.directory x.1 = .ok content ∧ x.2 = content.length
  others : ∀ k, (∀ p ∈ g.artifacts.paths, s.store.locate s.directory p ≠ .ok k) →
    t.store.entry? k = s.store.entry? k
  /-- No directory is new, so the staging directory is gone. -/
  isDirectory : ∀ k, t.store.isDirectory k = s.store.isDirectory k

theorem map_target_eq_paths (a : Artifacts) (header : Text) (module : TransformedModule)
    (declarations : Bindings.Revised) (variants : Bindings.Variants) (internal : Text) :
    (outputsOf a header module declarations variants internal).map (·.target) = a.paths :=
  rfl

/-- Outputs that are written make a coherent package of what was prepared. -/
theorem IsPrepared.isCoherent [Limits] {prepared : RunReport} {g : Gathered} {header : Text}
    {declarations : Bindings.Revised} {variants : Bindings.Variants}
    (h : IsPrepared c search s prepared outputs g header declarations variants)
    (hwritten : AreWritten s outputs t.store) :
    IsCoherent c search s t { prepared with written := true } g header declarations
      variants.body := by
  rcases Bindings.glueVariants_eq_ok_iff.mp h.glued with ⟨hglue, hinlined, hsplit⟩
  rcases Bindings.inlinedVariant_ok hinlined with ⟨numbers, hnumbers, hinlined⟩
  rcases Bindings.splitVariant_ok hsplit with ⟨rest, hrest, hsplit⟩
  have hmade := h.made
  have hread := hwritten.read
  rw [hmade] at hread
  simp only [outputsOf, List.forall_mem_cons] at hread
  rcases hread with ⟨hbinary, hmodule, hdeclarations, hinlinedRead, hsplitRead, hinternal, -⟩
  rw [hinlined] at hinlinedRead
  rw [hsplit] at hsplitRead
  rw [Text.encode_append] at hinternal
  have hpaths : outputs.map (·.target) = g.artifacts.paths := by
    rw [hmade, map_target_eq_paths]
  refine ⟨h.gathered, h.writable, h.declared, hglue, hbinary, hmodule, hdeclarations,
    ⟨numbers, hnumbers, hinlinedRead⟩, ⟨rest, hrest, hsplitRead⟩,
    ⟨_, h.gathered.sources.internalDeclarations, hinternal⟩, rfl, ?_, ?_, ?_,
    hwritten.isDirectory⟩
  · rw [← hpaths, h.sizes, List.map_map]
    rfl
  · intro x hx
    change x ∈ prepared.outputs at hx
    rw [h.sizes] at hx
    rcases List.mem_map.mp hx with ⟨o, ho, rfl⟩
    exact ⟨o.content, hwritten.read o ho, rfl⟩
  · intro k hk
    apply hwritten.others
    intro o ho
    apply hk
    rw [← hpaths]
    exact List.mem_map_of_mem ho

/-- A run that succeeds and is no dry run writes one coherent package. -/
theorem polishPackage_isCoherent [Limits] (htree : s.store.IsTree) (htools : search.KeepsView s)
    {report : RunReport} (h : Ends (polishPackage c search false) s (.ok report) t) :
    ∃ g header declarations glue,
      IsCoherent c search s t report g header declarations glue := by
  rcases exists_isPrepared_of_polishPackage htree htools h with
    ⟨prepared, outputs, g, header, declarations, variants, hprepared, rfl, hwritten⟩
  exact ⟨g, header, declarations, variants.body, hprepared.isCoherent hwritten⟩

/-! ### A package that can be polished -/

/-- A package of the small module, with some bindings. -/
def packageSession (glue declarations : Text) : Session where
  store := ⟨[(["pkg"], .directory),
    (["pkg", "a.js"], .file glue.encode false),
    (["pkg", "a.d.ts"], .file declarations.encode false),
    (["pkg", "a_bg.d.ts"], .file (Text.encode []) false),
    (["pkg", "a_bg.wasm"], .file (Module.binaryHeader ++ smallModule.encode) false)]⟩
  directory := []
  environment := []
  said := []
  steps := []

/-- The artifacts of such a package. -/
def smallArtifacts : Artifacts :=
  ⟨⟨1, ["pkg"]⟩, String.ofList ['a']⟩

theorem isTree_packageSession (glue declarations : Text) :
    (packageSession glue declarations).store.IsTree := by
  simp [Store.IsTree, packageSession, Store.isDirectory, Store.entry?]

theorem read_packageSession {glue declarations : Text} {p : Path} (name : String)
    {content : Bytes} (hp : p ∈ smallArtifacts.paths ∧ p.name = name)
    (hentry : (packageSession glue declarations).store.entry? ["pkg", name] =
      some (.file content false)) :
    (packageSession glue declarations).store.read [] p = .ok content := by
  have hpaths : ∀ p ∈ smallArtifacts.paths, Path.IsPlain p.name ∧ p.hasZero = false ∧
      p.isTooLong = false ∧ p.start [] = [] ∧ p.parts.toList.dropLast = ["pkg"] := by decide +kernel
  rcases hpaths p hp.1 with ⟨hplain, hzero, hshort, hstart, hparts⟩
  have hplace : (packageSession glue declarations).store.IsPlace [] p ["pkg"] := by
    refine ⟨hplain, hzero, ?_, rfl⟩
    rw [hstart, hparts]
    rfl
  rw [← hp.2] at hentry
  exact Store.read_eq_ok_iff.mpr ⟨false, hplace.find_eq_ok_iff.mpr ⟨hshort, hentry⟩⟩

theorem ends_readSources_packageSession (glue declarations : Text) :
    Ends (readSources smallArtifacts) (packageSession glue declarations)
      (.ok ⟨Module.binaryHeader ++ smallModule.encode, glue, declarations, []⟩)
      (packageSession glue declarations) := by
  apply ends_readSources
  · exact read_packageSession "a_bg.wasm" (by decide +kernel) rfl
  · decide +kernel
  · exact read_packageSession "a.js" (by decide +kernel) rfl
  · exact read_packageSession "a.d.ts" (by decide +kernel) rfl
  · exact read_packageSession "a_bg.d.ts" (by decide +kernel) rfl

/-- The package is gathered but for its module, which is yet to be transformed. -/
theorem run_gatherPackage_bind [Limits] {α : Type} {glue declarations : Text}
    {generator : Generator}
    (hfound : (checkGenerator (packageSession glue declarations).store smallConfig).toOption =
      some (some generator, none)) (f : Gathered → Action α) :
    (gatherPackage smallConfig smallSearch >>= f).run.run (packageSession glue declarations) =
      (do
        let module ← transformModule smallTools (Module.binaryHeader ++ smallModule.encode)
        f ⟨some generator, smallArtifacts,
          ⟨Module.binaryHeader ++ smallModule.encode, glue, declarations, []⟩, smallTools,
          module⟩).run.run (packageSession glue declarations) := by
  have hname : Ends (writableText smallConfig.outName) (packageSession glue declarations)
      (.ok ['a']) (packageSession glue declarations) := ends_writableText (by decide +kernel)
  have hartifacts : (⟨smallConfig.packageDirectory, String.ofList ['a']⟩ : Artifacts) =
      smallArtifacts := rfl
  unfold gatherPackage
  simp only [bind_assoc, pure_bind, smallSearch]
  rw [(ends_checkGeneratorAction_smallConfig hfound).run_bind, hname.run_bind]
  simp only [hartifacts]
  rw [(ends_readSources_packageSession glue declarations).run_bind]

/-- The small tools and bindings make a package that can be polished. -/
theorem exists_ends_polishPackage_small :
    ∃ report t, Ends (polishPackage smallConfig smallSearch false)
      (packageSession smallGlue smallDeclarations) (.ok report) t := by
  have hfound : (checkGenerator (packageSession smallGlue smallDeclarations).store
      smallConfig).toOption = some (some ⟨⟨0, 2, 29⟩, .settings⟩, none) := by decide +kernel
  apply exists_ends_of_value?
  rw [value?, polishPackage_eq, preparePackage_eq, bind_assoc, run_gatherPackage_bind hfound]
  simp only [reviseBindings, Bindings.reviseDeclarations, Bindings.glueVariants,
    Bindings.reviseGlue, Bindings.splitVariant, transformModule, Module.strip,
    Revision.apply_eq_splice_insertionSort]
  decide +kernel

theorem polishPackage_isCoherent_small :
    (packageSession smallGlue smallDeclarations).store.IsTree ∧
      smallSearch.KeepsView (packageSession smallGlue smallDeclarations) ∧
      ∃ report t, Ends (polishPackage smallConfig smallSearch false)
          (packageSession smallGlue smallDeclarations) (.ok report) t ∧
        ∃ g header declarations glue, IsCoherent smallConfig smallSearch
          (packageSession smallGlue smallDeclarations) t report g header declarations glue := by
  have htree := isTree_packageSession smallGlue smallDeclarations
  rcases exists_ends_polishPackage_small with ⟨report, t, hends⟩
  exact ⟨htree, keepsView_smallSearch _, report, t, hends,
    polishPackage_isCoherent htree (keepsView_smallSearch _) hends⟩

end WasmPackage
