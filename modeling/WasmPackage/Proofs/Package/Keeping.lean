import WasmPackage.Proofs.Package.Writing
import WasmPackage.Proofs.Text.Utf8

/-!
# Steps that keep what a run sees

All that a run does before it writes is to read, to call tools, and to say lines.  If the tools
leave the file tree as it was, so does the run up to there.
-/

namespace WasmPackage

open WasmPackage.Action (Ends Preserves ends_pure ends_get_bind ends_ofStore_ok preserves_pure
  preserves_throw preserves_get preserves_modify preserves_ofExcept preserves_ofStore)

variable {s t u : Session} {P : Session → Prop}

/-! ## Lines and records -/

theorem Session.sameView_say (s : Session) (level : NoteLevel) (message : String) :
    s.SameView (s.say level message) := by
  unfold Session.say
  split
  · exact .refl _
  · exact ⟨.refl _, rfl, rfl⟩

theorem sameView_say (level : NoteLevel) (message : String) :
    (Action.say level message).Preserves s.SameView :=
  preserves_modify fun u hview => hview.trans (u.sameView_say level message)

theorem sameView_record (step : ToolStep) : (Action.record step).Preserves s.SameView :=
  preserves_modify fun _ hview => hview.trans ⟨.refl _, rfl, rfl⟩

/-! ## Tools -/

/-- No step of the tools changes what is seen in a session. -/
structure Toolchain.KeepsView (tools : Toolchain) (s : Session) : Prop where
  optimize : ∀ binary, (tools.optimize binary).Preserves s.SameView
  disassemble : ∀ binary, (tools.disassemble binary).Preserves s.SameView
  assemble : ∀ text, (tools.assemble text).Preserves s.SameView

/-- Neither the search for tools nor any of the tools that it finds changes what is seen in a
session. -/
structure ToolSearch.KeepsView (search : ToolSearch) (s : Session) : Prop where
  finding : ∀ flags, (search flags).Preserves s.SameView
  found : ∀ flags u tools t, s.SameView u → Ends (search flags) u (.ok tools) t →
    tools.KeepsView s

theorem Toolchain.keepsView_ofFunctions (optimize : Bytes → Except ToolError Bytes)
    (disassemble : Bytes → Except ToolError Text) (assemble : Text → Except ToolError Bytes) :
    (Toolchain.ofFunctions optimize disassemble assemble).KeepsView s where
  optimize _ := preserves_ofExcept _ _
  disassemble _ := preserves_ofExcept _ _
  assemble _ := preserves_ofExcept _ _

theorem ToolSearch.keepsView_pure {tools : Toolchain} (htools : tools.KeepsView s) :
    ToolSearch.KeepsView (fun _ => pure tools) s where
  finding _ := preserves_pure tools
  found flags u tools' t _ h := by
    rcases ends_pure.mp h with ⟨hfound, -⟩
    cases hfound
    exact htools

/-! ## Steps before writing -/

theorem sameView_checkGeneratorAction [Limits] (c : Config) :
    (checkGeneratorAction c).Preserves s.SameView := by
  unfold checkGeneratorAction
  refine preserves_get.bind fun u => (preserves_ofExcept _ _).bind fun found => ?_
  rcases found with ⟨generator, objection⟩
  cases objection with
  | none => exact preserves_pure generator
  | some e => exact (sameView_say _ _).bind fun _ => preserves_pure _

theorem preserves_writableText (t : CodeText) : (writableText t).Preserves P := by
  unfold writableText
  split
  · exact preserves_pure _
  · exact preserves_throw _

theorem preserves_readArtifact (p : Path) : (readArtifact p).Preserves P :=
  preserves_get.bind fun _ => preserves_ofStore _ _

theorem preserves_readArtifactText (p : Path) : (readArtifactText p).Preserves P := by
  refine (preserves_readArtifact p).bind fun bytes => ?_
  cases Text.decode? bytes with
  | none => exact preserves_throw _
  | some t => exact preserves_pure t

theorem preserves_readSources (a : Artifacts) : (readSources a).Preserves P := by
  refine (preserves_readArtifact _).bind fun binary => ?_
  have hrest : Preserves (do
      let glue ← readArtifactText a.glue
      let declarations ← readArtifactText a.declarations
      let internalDeclarations ← readArtifactText a.internalDeclarations
      return (⟨binary, glue, declarations, internalDeclarations⟩ : Sources)) P :=
    (preserves_readArtifactText _).bind fun _ =>
      (preserves_readArtifactText _).bind fun _ =>
        (preserves_readArtifactText _).bind fun _ => preserves_pure _
  by_cases hbinary : Module.isBinary binary = true
  · simpa [hbinary] using hrest
  · simp only [hbinary]
    exact (preserves_throw _).bind fun _ => hrest

theorem sameView_transformModule {tools : Toolchain} (htools : tools.KeepsView s)
    (binary : Bytes) : (transformModule tools binary).Preserves s.SameView := by
  refine (sameView_record _).bind fun _ => (htools.optimize binary).bind fun optimized => ?_
  refine (sameView_record _).bind fun _ => (htools.disassemble optimized).bind fun text => ?_
  refine (preserves_ofExcept _ _).bind fun edited => ?_
  refine (sameView_record _).bind fun _ => (htools.assemble edited.1).bind fun final => ?_
  by_cases hbinary : Module.isBinary final = true
  · simp only [hbinary]
    exact preserves_pure _
  · simp only [hbinary]
    exact (preserves_throw _).bind fun _ => preserves_pure _

theorem sameView_sayModule (r : Module.Report) : (sayModule r).Preserves s.SameView := by
  unfold sayModule
  split
  · exact (sameView_say _ _).bind fun _ => sameView_say _ _
  · exact sameView_say _ _

/-! ## What the first steps give -/

theorem ends_checkGeneratorAction [Limits] {c : Config} {generator : Option Generator}
    (h : checkGenerator s.store c = .ok (generator, none)) :
    Ends (checkGeneratorAction c) s (.ok generator) s := by
  unfold checkGeneratorAction
  rw [ends_get_bind, h]
  exact ends_pure.mpr ⟨rfl, rfl⟩

theorem ends_writableText {x : CodeText} {text : Text} (h : x.text? = some text) :
    Ends (writableText x) s (.ok text) s := by
  unfold writableText
  rw [h]
  exact ends_pure.mpr ⟨rfl, rfl⟩

theorem ends_readArtifact {p : Path} {content : Bytes}
    (h : s.store.read s.directory p = .ok content) :
    Ends (readArtifact p) s (.ok content) s := by
  unfold readArtifact
  rw [ends_get_bind]
  exact ends_ofStore_ok.mpr ⟨h, rfl⟩

/-- An artifact gives the text that was written to it. -/
theorem ends_readArtifactText {p : Path} {text : Text}
    (h : s.store.read s.directory p = .ok text.encode) :
    Ends (readArtifactText p) s (.ok text) s := by
  refine (ends_readArtifact h).bind ?_
  rw [Text.decode?_encode]
  exact ends_pure.mpr ⟨rfl, rfl⟩

theorem ends_readSources {a : Artifacts} {binary : Bytes} {glue declarations internal : Text}
    (hbinary : s.store.read s.directory a.binary = .ok binary)
    (hmodule : Module.isBinary binary = true)
    (hglue : s.store.read s.directory a.glue = .ok glue.encode)
    (hdeclarations : s.store.read s.directory a.declarations = .ok declarations.encode)
    (hinternal : s.store.read s.directory a.internalDeclarations = .ok internal.encode) :
    Ends (readSources a) s (.ok ⟨binary, glue, declarations, internal⟩) s := by
  refine (ends_readArtifact hbinary).bind ?_
  simp only [hmodule]
  refine (ends_readArtifactText hglue).bind ?_
  refine (ends_readArtifactText hdeclarations).bind ?_
  refine (ends_readArtifactText hinternal).bind ?_
  exact ends_pure.mpr ⟨rfl, rfl⟩

end WasmPackage
