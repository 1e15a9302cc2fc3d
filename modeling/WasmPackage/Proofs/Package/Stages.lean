import WasmPackage.Proofs.Bindings.Variants
import WasmPackage.Proofs.Package.Atomicity

/-!
# Stages of a run

A run gathers what it starts from and transforms the module, then revises the bindings, and then
writes.  What each stage has done when it ends is said once here.
-/

namespace WasmPackage

open WasmPackage.Action (Ends Preserves ends_pure ends_throw ends_bind ends_bind_ok ends_get_bind
  ends_modify ends_ofExcept_ok ends_ofStore_ok preserves_pure preserves_ofExcept)
open WasmPackage.Bindings (bind_ok_iff)

variable {s t u : Session} {c : Config} {search : ToolSearch} {tools : Toolchain} {p : Path}

/-! ## What is read -/

theorem Store.read_eq_ok_iff {store : Store} {directory : Location} {content : Bytes} :
    store.read directory p = .ok content ↔
      ∃ executable, store.find directory p = .ok (.file content executable) := by
  unfold Store.read
  cases store.find directory p with
  | error e => simp [bind, Except.bind]
  | ok entry =>
    cases entry with
    | file found executable => simp [bind, Except.bind, pure, Except.pure]
    | directory => simp [bind, Except.bind, throw, throwThe, MonadExceptOf.throw]

/-- A file is read alike in trees that are the same. -/
theorem Store.read_of_sameTree {store store' : Store} {directory : Location} {content : Bytes}
    (hsame : store.SameTree store') (h : store'.read directory p = .ok content) :
    store.read directory p = .ok content := by
  rw [Store.read_eq_ok_iff] at h ⊢
  rcases h with ⟨executable, hfind⟩
  rcases Store.find_eq_ok_iff.mp hfind with ⟨l, hlocate, hentry⟩
  refine ⟨executable, Store.find_eq_ok_iff.mpr ⟨l, Store.locate_mono hlocate ?_, ?_⟩⟩
  · intro m hm
    rw [← hm, hsame.isDirectory_eq]
  · rw [← hsame l, hentry]

theorem ends_readArtifact_ok {content : Bytes} :
    Ends (readArtifact p) s (.ok content) t ↔
      s.store.read s.directory p = .ok content ∧ t = s := by
  unfold readArtifact
  rw [ends_get_bind]
  exact ends_ofStore_ok

/-- An artifact that gives a text holds the bytes of it. -/
theorem read_of_ends_readArtifactText {text : Text}
    (h : Ends (readArtifactText p) s (.ok text) t) :
    s.store.read s.directory p = .ok text.encode ∧ t = s := by
  unfold readArtifactText at h
  rcases ends_bind_ok.mp h with ⟨bytes, u, hread, hrest⟩
  rcases ends_readArtifact_ok.mp hread with ⟨hbytes, rfl⟩
  split at hrest
  · next found hfound =>
    rcases ends_pure.mp hrest with ⟨htext, rfl⟩
    cases htext
    rw [Text.encode_of_decode? hfound]
    exact ⟨hbytes, rfl⟩
  · cases (ends_throw.mp hrest).1

/-- The artifacts that a run starts from, where they are found. -/
structure AreSources (s : Session) (a : Artifacts) (sources : Sources) : Prop where
  binary : s.store.read s.directory a.binary = .ok sources.binary
  isBinary : Module.isBinary sources.binary = true
  glue : s.store.read s.directory a.glue = .ok sources.glue.encode
  declarations : s.store.read s.directory a.declarations = .ok sources.declarations.encode
  internalDeclarations :
    s.store.read s.directory a.internalDeclarations = .ok sources.internalDeclarations.encode

theorem areSources_of_ends {a : Artifacts} {sources : Sources}
    (h : Ends (readSources a) s (.ok sources) t) : AreSources s a sources ∧ t = s := by
  unfold readSources at h
  rcases ends_bind_ok.mp h with ⟨binary, s₁, hbinary, h₁⟩
  rcases ends_readArtifact_ok.mp hbinary with ⟨hbytes, rfl⟩
  cases hmodule : Module.isBinary binary with
  | false =>
    simp only [hmodule, Bool.not_false, if_true] at h₁
    rcases ends_bind_ok.mp h₁ with ⟨⟨⟩, s₂, hthrow, -⟩
    cases (ends_throw.mp hthrow).1
  | true =>
    simp only [hmodule, Bool.not_true, Bool.false_eq_true, if_false] at h₁
    rcases ends_bind_ok.mp h₁ with ⟨glue, s₂, hreadGlue, h₂⟩
    rcases read_of_ends_readArtifactText hreadGlue with ⟨hglue, rfl⟩
    rcases ends_bind_ok.mp h₂ with ⟨declarations, s₃, hreadDeclarations, h₃⟩
    rcases read_of_ends_readArtifactText hreadDeclarations with ⟨hdeclarations, rfl⟩
    rcases ends_bind_ok.mp h₃ with ⟨internal, s₄, hreadInternal, h₄⟩
    rcases read_of_ends_readArtifactText hreadInternal with ⟨hinternal, rfl⟩
    rcases ends_pure.mp h₄ with ⟨hsources, rfl⟩
    cases hsources
    exact ⟨⟨hbytes, hmodule, hglue, hdeclarations, hinternal⟩, rfl⟩

theorem AreSources.sameView {a : Artifacts} {sources : Sources} (h : AreSources t a sources)
    (hview : s.SameView t) : AreSources s a sources := by
  have hread : ∀ {p content}, t.store.read t.directory p = .ok content →
      s.store.read s.directory p = .ok content := by
    intro p content hp
    rw [hview.directory] at hp
    exact Store.read_of_sameTree hview.tree hp
  exact ⟨hread h.binary, h.isBinary, hread h.glue, hread h.declarations,
    hread h.internalDeclarations⟩

/-! ## What is transformed -/

/-- A module is transformed: the tools optimize it and write it as text, that is pruned, and the
tools read what is left of it back. -/
structure IsTransformed (tools : Toolchain) (binary : Bytes) (module : TransformedModule) :
    Prop where
  steps : ∃ optimized text, (∃ u v, Ends (tools.optimize binary) u (.ok optimized) v) ∧
    (∃ u v, Ends (tools.disassemble optimized) u (.ok text) v) ∧
    Module.strip text = .ok (module.text, module.report)
  assembled : ∃ u v, Ends (tools.assemble module.text) u (.ok module.binary) v
  isBinary : Module.isBinary module.binary = true

theorem isTransformed_of_ends {binary : Bytes} {module : TransformedModule}
    (h : Ends (transformModule tools binary) s (.ok module) t) :
    IsTransformed tools binary module := by
  unfold transformModule at h
  rcases ends_bind_ok.mp h with ⟨⟨⟩, s₁, -, h⟩
  rcases ends_bind_ok.mp h with ⟨optimized, s₂, hoptimized, h⟩
  rcases ends_bind_ok.mp h with ⟨⟨⟩, s₃, -, h⟩
  rcases ends_bind_ok.mp h with ⟨text, s₄, htext, h⟩
  rcases ends_bind_ok.mp h with ⟨⟨edited, report⟩, s₅, hstrip, h⟩
  rcases ends_bind_ok.mp h with ⟨⟨⟩, s₆, -, h⟩
  rcases ends_bind_ok.mp h with ⟨final, s₇, hfinal, h⟩
  cases hbinary : Module.isBinary final with
  | false =>
    simp only [hbinary, Bool.not_false, if_true] at h
    rcases ends_bind_ok.mp h with ⟨⟨⟩, s₈, hthrow, -⟩
    cases (ends_throw.mp hthrow).1
  | true =>
    simp only [hbinary, Bool.not_true, Bool.false_eq_true, if_false] at h
    rcases ends_pure.mp h with ⟨hmodule, -⟩
    cases hmodule
    exact ⟨⟨optimized, text, ⟨_, _, hoptimized⟩, ⟨_, _, htext⟩, (ends_ofExcept_ok.mp hstrip).1⟩,
      ⟨_, _, hfinal⟩, hbinary⟩

/-! ## What is gathered -/

/-- What a run has at hand when it has transformed the module. -/
structure Gathered where
  generator : Option Generator
  artifacts : Artifacts
  sources : Sources
  tools : Toolchain
  module : TransformedModule

/-- All that a run does before it revises the bindings. -/
def gatherPackage [Limits] (c : Config) (search : ToolSearch) : Action Gathered := do
  let generator ← checkGeneratorAction c
  let artifacts : Artifacts := ⟨c.packageDirectory, String.ofList (← writableText c.outName)⟩
  let sources ← readSources artifacts
  let tools ← search c.flags
  let module ← transformModule tools sources.binary
  return { generator, artifacts, sources, tools, module }

/-- What is gathered comes from the package as it was when the run began. -/
structure IsGathered (c : Config) (search : ToolSearch) (s : Session) (g : Gathered) : Prop where
  name : ∃ name, c.outName.text? = some name ∧
    g.artifacts = ⟨c.packageDirectory, String.ofList name⟩
  sources : AreSources s g.artifacts g.sources
  tools : ∃ u v, Ends (search c.flags) u (.ok g.tools) v
  module : IsTransformed g.tools g.sources.binary g.module

theorem text?_of_ends_writableText {x : CodeText} {text : Text}
    (h : Ends (writableText x) s (.ok text) t) : x.text? = some text ∧ t = s := by
  unfold writableText at h
  split at h
  · next found hfound =>
    rcases ends_pure.mp h with ⟨htext, rfl⟩
    cases htext
    exact ⟨hfound, rfl⟩
  · cases (ends_throw.mp h).1

theorem isGathered_of_ends [Limits] {g : Gathered} (h : Ends (gatherPackage c search) s (.ok g) t) :
    IsGathered c search s g := by
  unfold gatherPackage at h
  rcases ends_bind_ok.mp h with ⟨generator, s₁, hchecked, h₁⟩
  rcases ends_bind_ok.mp h₁ with ⟨name, s₂, hwritable, h₂⟩
  rcases text?_of_ends_writableText hwritable with ⟨hname, rfl⟩
  rcases ends_bind_ok.mp h₂ with ⟨sources, s₃, hread, h₃⟩
  rcases areSources_of_ends hread with ⟨hsources, rfl⟩
  rcases ends_bind_ok.mp h₃ with ⟨tools, s₄, htools, h₄⟩
  rcases ends_bind_ok.mp h₄ with ⟨module, s₅, hmodule, h₅⟩
  rcases ends_pure.mp h₅ with ⟨hg, -⟩
  cases hg
  have hview := sameView_checkGeneratorAction c s _ _ (.refl s) hchecked
  exact ⟨⟨name, hname, rfl⟩, hsources.sameView hview, ⟨_, _, htools⟩, isTransformed_of_ends hmodule⟩

/-! ## What is revised -/

/-- The bindings are revised when both passes succeed, and have made the same edits. -/
theorem reviseBindings_eq_ok_iff [Limits] {a : Artifacts} {header : Text} {sources : Sources}
    {binary : Bytes} {declarations : Bindings.Revised} {variants : Bindings.Variants} :
    reviseBindings c a header sources binary = .ok (declarations, variants) ↔
      Bindings.reviseDeclarations sources.declarations = .ok declarations ∧
      Bindings.glueVariants sources.glue c.offsets binary header a.importPath c.internalName =
        .ok variants ∧
      Bindings.checkAgreement declarations variants.body = .ok () := by
  unfold reviseBindings
  constructor
  · intro h
    rcases bind_ok_iff.mp h with ⟨declarations', hdeclarations, h⟩
    rcases bind_ok_iff.mp h with ⟨variants', hvariants, h⟩
    rcases bind_ok_iff.mp h with ⟨⟨⟩, hagree, h⟩
    cases h
    exact ⟨hdeclarations, hvariants, hagree⟩
  · rintro ⟨hdeclarations, hvariants, hagree⟩
    exact bind_ok_iff.mpr ⟨_, hdeclarations, bind_ok_iff.mpr ⟨_, hvariants,
      bind_ok_iff.mpr ⟨_, hagree, rfl⟩⟩⟩

theorem preparePackage_eq [Limits] (c : Config) (search : ToolSearch) :
    preparePackage c search = (do
      let g ← gatherPackage c search
      sayModule g.module.report
      let (declarations, variants) ← Action.ofExcept .revision
        (reviseBindings c g.artifacts (c.header.text?.getD []) g.sources g.module.binary)
      let accessors := variants.body.accessors
      let outMethods := variants.body.outMethods
      Action.say .note
        s!"bindings: {accessors.length} accessors, {outMethods.length} output-parameter methods"
      let header ← writableText c.header
      let outputs := outputsOf g.artifacts header g.module declarations variants
        g.sources.internalDeclarations
      return ({
          generator := g.generator
          module := g.module.report
          accessors
          outMethods
          outputs := outputs.map (fun o => (o.target, o.content.length))
          written := false }, outputs)) := by
  unfold preparePackage gatherPackage
  simp only [bind_assoc, pure_bind]

/-- What a run has at hand when it begins to write: all that it has gathered, the revised bindings,
and the outputs that it has made of them. -/
structure IsPrepared [Limits] (c : Config) (search : ToolSearch) (s : Session) (report : RunReport)
    (outputs : List Output) (g : Gathered) (header : Text) (declarations : Bindings.Revised)
    (variants : Bindings.Variants) : Prop where
  gathered : IsGathered c search s g
  writable : c.header.text? = some header
  declared : Bindings.reviseDeclarations g.sources.declarations = .ok declarations
  glued : Bindings.glueVariants g.sources.glue c.offsets g.module.binary header
    g.artifacts.importPath c.internalName = .ok variants
  agreed : Bindings.checkAgreement declarations variants.body = .ok ()
  made : outputs = outputsOf g.artifacts header g.module declarations variants
    g.sources.internalDeclarations
  sizes : report.outputs = outputs.map (fun o => (o.target, o.content.length))

theorem exists_isPrepared_of_ends [Limits] {report : RunReport} {outputs : List Output}
    (h : Ends (preparePackage c search) s (.ok (report, outputs)) t) :
    ∃ g header declarations variants,
      IsPrepared c search s report outputs g header declarations variants := by
  rw [preparePackage_eq] at h
  rcases ends_bind_ok.mp h with ⟨g, s₁, hgathered, h⟩
  rcases ends_bind_ok.mp h with ⟨⟨⟩, s₂, -, h⟩
  rcases ends_bind_ok.mp h with ⟨⟨declarations, variants⟩, s₃, hrevised, h⟩
  rcases ends_bind_ok.mp h with ⟨⟨⟩, s₄, -, h⟩
  rcases ends_bind_ok.mp h with ⟨header, s₅, hwritable, h⟩
  rcases ends_pure.mp h with ⟨hresult, -⟩
  cases hresult
  have hheader := (text?_of_ends_writableText hwritable).1
  rcases reviseBindings_eq_ok_iff.mp (ends_ofExcept_ok.mp hrevised).1 with
    ⟨hdeclarations, hvariants, hagree⟩
  rw [hheader, Option.getD_some] at hvariants
  exact ⟨g, header, declarations, variants, isGathered_of_ends hgathered, hheader, hdeclarations,
    hvariants, hagree, rfl, rfl⟩

end WasmPackage
