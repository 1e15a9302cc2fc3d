import Mathlib.Data.List.Nodup
import WasmPackage.Proofs.Package.Keeping
import WasmPackage.Proofs.Text.Revision

/-!
# What a failing run leaves behind

A run computes its outputs before it writes the first of them.  If it fails while it moves them to
their places, those that it has moved stay.
-/

namespace WasmPackage

open WasmPackage.Action (Ends ends_pure ends_throw ends_bind ends_bind_ok ends_get_bind
  ends_modify ends_ofExcept_ok ends_ofStore_ok preserves_pure preserves_ofExcept)
open WasmPackage.Path (IsPlain)

variable {s t u : Session} {c : Config} {search : ToolSearch} {dryRun : Bool}

/-! ## Before writing -/

/-- All that a run does before it writes: the report that it would give if it did not write, and
the outputs. -/
def preparePackage [Limits] (c : Config)
    (search : ToolSearch) : Action (RunReport × List Output) := do
  let generator ← checkGeneratorAction c
  let a : Artifacts := ⟨c.packageDirectory, String.ofList (← writableText c.outName)⟩
  let sources ← readSources a
  let tools ← search c.flags
  let module ← transformModule tools sources.binary
  sayModule module.report
  let (declarations, variants) ← Action.ofExcept .revision
    (reviseBindings c a (c.header.text?.getD []) sources module.binary)
  let accessors := variants.body.accessors
  let outMethods := variants.body.outMethods
  Action.say .note
    s!"bindings: {accessors.length} accessors, {outMethods.length} output-parameter methods"
  let header ← writableText c.header
  let outputs := outputsOf a header module declarations variants sources.internalDeclarations
  return ({
      generator
      module := module.report
      accessors
      outMethods
      outputs := outputs.map (fun o => (o.target, o.content.length))
      written := false }, outputs)

theorem polishPackage_eq [Limits] (c : Config) (search : ToolSearch) (dryRun : Bool) :
    polishPackage c search dryRun = (do
      let (report, outputs) ← preparePackage c search
      if dryRun then return report
      writeOutputs c.packageDirectory outputs
      outputs.forM (fun o => Action.say .note s!"wrote {o.target.text}")
      return { report with written := true }) := by
  unfold polishPackage preparePackage
  simp only [bind_assoc, pure_bind]

theorem sameView_preparePackage [Limits] (htools : search.KeepsView s) :
    (preparePackage c search).Preserves s.SameView := by
  refine (sameView_checkGeneratorAction c).bind fun generator => ?_
  refine (preserves_writableText c.outName).bind fun name => ?_
  refine (preserves_readSources _).bind fun sources => ?_
  refine (htools.finding c.flags).bind_of_ends fun u tools t hview hfound => ?_
  refine (sameView_transformModule (htools.found _ _ _ _ hview hfound) _).bind fun module => ?_
  refine (sameView_sayModule _).bind fun _ => (preserves_ofExcept _ _).bind fun revised => ?_
  refine (sameView_say _ _).bind fun _ => (preserves_writableText c.header).bind fun header => ?_
  exact preserves_pure _

/-- What the names of the outputs have behind the name of the package. -/
def outputSuffixes : List String :=
  ["_bg.wasm", "_bg.wast", ".d.ts", ".js", ".split.js", "_bg.d.ts"]

theorem map_target_outputsOf (a : Artifacts) (header : Text) (module : TransformedModule)
    (declarations : Bindings.Revised) (variants : Bindings.Variants) (internal : Text) :
    (outputsOf a header module declarations variants internal).map (·.target) =
      outputSuffixes.map (fun x => a.directory.child (a.name ++ x)) := by
  simp only [outputsOf, outputSuffixes, List.map_cons, List.map_nil, Artifacts.binary,
    Artifacts.moduleText, Artifacts.declarations, Artifacts.glue, Artifacts.splitGlue,
    Artifacts.internalDeclarations]

/-- The outputs are those of a package whose module has been read. -/
theorem exists_artifacts_of_preparePackage [Limits] {report : RunReport} {outputs : List Output}
    (h : Ends (preparePackage c search) s (.ok (report, outputs)) t) :
    ∃ a : Artifacts, (∃ l, s.store.locate s.directory a.binary = .ok l) ∧
      outputs.map (·.target) = outputSuffixes.map (fun x => a.directory.child (a.name ++ x)) := by
  unfold preparePackage at h
  rcases ends_bind_ok.mp h with ⟨generator, s₁, hchecked, h⟩
  rcases ends_bind_ok.mp h with ⟨name, s₂, hname, h⟩
  rcases ends_bind_ok.mp h with ⟨sources, s₃, hread, h⟩
  rcases ends_bind_ok.mp h with ⟨tools, s₄, -, h⟩
  rcases ends_bind_ok.mp h with ⟨module, s₅, -, h⟩
  rcases ends_bind_ok.mp h with ⟨-, s₆, -, h⟩
  rcases ends_bind_ok.mp h with ⟨revised, s₇, -, h⟩
  rcases ends_bind_ok.mp h with ⟨-, s₈, -, h⟩
  rcases ends_bind_ok.mp h with ⟨header, s₉, -, h⟩
  rcases ends_pure.mp h with ⟨hresult, -⟩
  cases hresult
  refine ⟨⟨c.packageDirectory, String.ofList name⟩, ?_, map_target_outputsOf _ _ _ _ _ _⟩
  -- the module was read where the run began: nothing had changed by then
  have hchecking := sameView_checkGeneratorAction c s _ s₁ (.refl s) hchecked
  have hview := preserves_writableText _ s₁ _ s₂ hchecking hname
  rcases ends_bind_ok.mp hread with ⟨binary, v, hbinary, -⟩
  rcases ends_ofStore_ok.mp (ends_get_bind.mp hbinary) with ⟨hbytes, -⟩
  rcases Store.exists_locate_of_read hbytes with ⟨l, hlocate⟩
  rw [hview.directory] at hlocate
  refine ⟨l, Store.locate_mono hlocate ?_⟩
  intro m hm
  rw [← hm, hview.tree.isDirectory_eq]

/-! ## The places of outputs -/

/-- The artifacts of a package whose module is found have their places in one directory, under
names that no staging directory has. -/
theorem Artifacts.exists_places {a : Artifacts} {l : Location}
    (hlocate : s.store.locate s.directory a.binary = .ok l) :
    ∃ parent last, ∀ x ∈ outputSuffixes,
      s.store.IsPlace s.directory (a.directory.child (a.name ++ x)) parent ∧
        (a.directory.child (a.name ++ x)).name = last ++ x := by
  rcases a.directory.exists_child_append a.name with ⟨slashes, before, last, hlast, hchild⟩
  have hsuffixes : ∀ x ∈ outputSuffixes,
      '/' ∉ x.toList ∧ 2 < x.length ∧ '\x00' ∉ x.toList := by decide +kernel
  have hpath : ∀ x ∈ outputSuffixes, (a.directory.child (a.name ++ x)).slashes = slashes ∧
      (a.directory.child (a.name ++ x)).parts.toList = before ++ [last ++ x] :=
    fun x hx => hchild x (hsuffixes x hx).1 (hsuffixes x hx).2.1
  have hname : ∀ x ∈ outputSuffixes, (a.directory.child (a.name ++ x)).name = last ++ x := by
    intro x hx
    rw [Path.name, (hpath x hx).2, List.getLast?_concat, Option.getD_some]
  have hplain : ∀ x ∈ outputSuffixes, IsPlain (a.directory.child (a.name ++ x)).name := by
    intro x hx
    rw [hname x hx]
    exact Path.isPlain_append hlast (hsuffixes x hx).1 (hsuffixes x hx).2.1
  have hbinary : "_bg.wasm" ∈ outputSuffixes := List.mem_cons_self
  rcases Store.exists_isPlace_of_locate (hplain _ hbinary) hlocate with ⟨parent, hplace⟩
  refine ⟨parent, last, ?_⟩
  intro x hx
  refine ⟨hplace.sibling ?_ ?_ (hplain x hx) ?_, hname x hx⟩
  · rw [(hpath x hx).1, (hpath _ hbinary).1]
  · rw [(hpath x hx).2, (hpath _ hbinary).2]
    simp
  · have hzero := hplace.noZero
    rw [Store.hasZero_eq_false_iff, (hpath _ hbinary).2] at hzero
    rw [Store.hasZero_eq_false_iff, (hpath x hx).2]
    intro n hn
    rcases List.mem_append.mp hn with hn | hn
    · exact hzero n (List.mem_append_left _ hn)
    · rw [List.mem_singleton.mp hn, String.toList_append, List.mem_append, not_or]
      have hlastZero := hzero (last ++ "_bg.wasm") (by simp)
      rw [String.toList_append, List.mem_append, not_or] at hlastZero
      exact ⟨hlastZero.1, (hsuffixes x hx).2.2⟩

/-- The outputs of a package have places in one directory, each under a name of its own. -/
structure HavePlaces (s : Session) (outputs : List Output) (parent : Location) : Prop where
  isPlace : ∀ o ∈ outputs, s.store.IsPlace s.directory o.target parent
  notStaging : ∀ o ∈ outputs, ∀ (store : Store) l, store.freshName l ".wasm-polish-" ≠ o.target.name
  distinct : (outputs.map (·.target.name)).Nodup

theorem exists_havePlaces_of_preparePackage [Limits] {report : RunReport} {outputs : List Output}
    (h : Ends (preparePackage c search) s (.ok (report, outputs)) t) :
    ∃ parent, HavePlaces s outputs parent := by
  rcases exists_artifacts_of_preparePackage h with ⟨a, ⟨l, hlocate⟩, htargets⟩
  rcases Artifacts.exists_places hlocate with ⟨parent, last, hplaces⟩
  have htarget :
      ∀ o ∈ outputs, ∃ x ∈ outputSuffixes, o.target = a.directory.child (a.name ++ x) := by
    intro o ho
    have hin : o.target ∈ outputSuffixes.map (fun x => a.directory.child (a.name ++ x)) := by
      rw [← htargets]
      exact List.mem_map_of_mem ho
    rcases List.mem_map.mp hin with ⟨x, hx, hsame⟩
    exact ⟨x, hx, hsame.symm⟩
  refine ⟨parent, ?_, ?_, ?_⟩
  · intro o ho
    rcases htarget o ho with ⟨x, hx, hsame⟩
    rw [hsame]
    exact (hplaces x hx).1
  · intro o ho store l
    rcases htarget o ho with ⟨x, hx, hsame⟩
    rw [hsame, (hplaces x hx).2]
    have hletter : ∀ x ∈ outputSuffixes,
        x.toList.getLast?.any (fun c => !c.isDigit && c ≠ '-') = true := by decide +kernel
    exact store.stagingName_ne_append l last (hletter x hx)
  · have hnames : outputs.map (·.target.name) = outputSuffixes.map (last ++ ·) := by
      have hmap : outputs.map (·.target.name) = (outputs.map (·.target)).map Path.name := by
        rw [List.map_map]
        rfl
      rw [hmap, htargets, List.map_map]
      exact List.map_congr_left fun x hx => (hplaces x hx).2
    rw [hnames]
    refine List.Nodup.map ?_ (by decide +kernel)
    intro x y hxy
    have hlists := congrArg String.toList hxy
    rw [String.toList_append, String.toList_append, List.append_cancel_left_eq] at hlists
    exact String.toList_inj.mp hlists

theorem HavePlaces.sameView {outputs : List Output} {parent : Location}
    (h : HavePlaces s outputs parent) (hview : s.SameView t) : HavePlaces t outputs parent := by
  refine ⟨?_, h.notStaging, h.distinct⟩
  intro o ho
  rw [hview.directory]
  apply (h.isPlace o ho).mono
  intro m hm
  rw [hview.tree.isDirectory_eq, hm]

/-! ## Failing runs -/

/-- The outputs that a run has computed when it starts to write; none if it fails before. -/
def preparedOutputs [Limits] (c : Config) (search : ToolSearch) (s : Session) : List Output :=
  (((preparePackage c search).value? s).map (·.2)).getD []

/-- The outputs that a run has moved to their places when it fails: those before the one that could
not be moved, if that is why it failed. -/
def movedBefore (outputs : List Output) : Failure → List Output
  | .artifact p (.notReplaced _) => outputs.takeWhile (fun o => o.target ≠ p)
  | _ => []

theorem preparedOutputs_of_ends_ok [Limits] {report : RunReport} {outputs : List Output}
    (h : Ends (preparePackage c search) s (.ok (report, outputs)) t) :
    preparedOutputs c search s = outputs := by
  unfold preparedOutputs
  rw [h.value?_eq]
  rfl

theorem preparedOutputs_of_ends_error [Limits] {f : Failure}
    (h : Ends (preparePackage c search) s (.error f) t) : preparedOutputs c search s = [] := by
  unfold preparedOutputs
  rw [h.value?_eq]
  rfl

theorem movedBefore_nil (f : Failure) : movedBefore [] f = [] := by
  unfold movedBefore
  split <;> rfl

theorem movedBefore_sublist (outputs : List Output) (f : Failure) :
    (movedBefore outputs f).Sublist outputs := by
  unfold movedBefore
  split
  · exact List.takeWhile_sublist _
  · exact List.nil_sublist outputs

theorem Wrote.eq_movedBefore {outputs moved : List Output} {f : Failure}
    (hdistinct : (outputs.map (·.target.name)).Nodup) (h : Wrote outputs (.error f) moved) :
    moved = movedBefore outputs f := by
  cases h with
  | notMoved hbefore =>
    unfold movedBefore
    split
    · exact absurd rfl (hbefore _ _)
    · rfl
  | moved hcame =>
    cases hcame with
    | @stopped _ after o e hsplit =>
      subst hsplit
      -- the outputs before the one that is named in the failure go to other places
      have hother : ∀ a ∈ moved, decide (a.target ≠ o.target) = true := by
        intro a ha
        rw [decide_eq_true_iff]
        intro hsame
        rw [List.map_append, List.nodup_append] at hdistinct
        exact hdistinct.2.2 _ (List.mem_map_of_mem ha) _ (List.mem_map_of_mem List.mem_cons_self)
          (by rw [hsame])
      rw [movedBefore, List.takeWhile_append_of_pos hother, List.takeWhile_cons_of_neg (by simp),
        List.append_nil]

/-- Saying what was written cannot fail. -/
theorem ends_forM_say {outputs : List Output} {g : Output → String} {r : Except Failure PUnit}
    (h : Ends (outputs.forM (fun o => Action.say .note (g o))) s r t) : r = .ok () := by
  induction outputs generalizing s with
  | nil => exact (ends_pure.mp h).1
  | cons o outputs ih =>
    rcases ends_bind.mp h with ⟨e, hsay, -⟩ | ⟨⟨⟩, u, -, hrest⟩
    · cases (ends_modify.mp hsay).1
    · exact ih hrest

/-- A failing run changes the places of the outputs that it has moved, and nothing else. -/
theorem polishPackage_error [Limits] (htree : s.store.IsTree) (htools : search.KeepsView s)
    {f : Failure} (h : Ends (polishPackage c search dryRun) s (.error f) t) :
    ∃ parent, (∀ o ∈ movedBefore (preparedOutputs c search s) f,
        s.store.IsPlace s.directory o.target parent ∧ o.target.isTooLong = false) ∧
      ((movedBefore (preparedOutputs c search s) f).map (·.target.name)).Nodup ∧
      ∀ k, t.store.entry? k =
        entriesAfter parent s.store.entry? (movedBefore (preparedOutputs c search s) f) k := by
  rw [polishPackage_eq] at h
  -- a run fails before it writes, and then nothing has changed, or while it writes
  rcases ends_bind.mp h with ⟨e, hprepare, hf⟩ | ⟨⟨report, outputs⟩, u, hprepare, hwrite⟩
  · have hview := sameView_preparePackage htools s _ t (.refl s) hprepare
    rw [preparedOutputs_of_ends_error hprepare, movedBefore_nil]
    exact ⟨[], by simp, by simp, hview.tree⟩
  have hview := sameView_preparePackage htools s _ u (.refl s) hprepare
  rcases exists_havePlaces_of_preparePackage hprepare with ⟨parent, hplaces⟩
  have hplaces' := hplaces.sameView hview
  rw [preparedOutputs_of_ends_ok hprepare]
  cases dryRun with
  | true => cases (ends_pure.mp hwrite).1
  | false =>
    rcases ends_bind.mp hwrite with ⟨e, hfail, hf⟩ | ⟨⟨⟩, v, -, hrest⟩
    · cases hf
      obtain ⟨moved, hwrote, hmoved, hentries⟩ := writeOutputs_ends (htree.sameTree hview.tree)
        hplaces'.isPlace (fun o ho => hplaces'.notStaging o ho u.store) hfail
      have hsub := movedBefore_sublist outputs f
      rw [hwrote.eq_movedBefore hplaces.distinct] at hmoved hentries
      refine ⟨parent, ?_, hplaces.distinct.sublist (hsub.map _), ?_⟩
      · intro o ho
        exact ⟨hplaces.isPlace o (hsub.subset ho), (hmoved o ho).short⟩
      · intro k
        rw [hentries]
        exact entriesAfter_congr (hview.tree k)
    · rcases ends_bind.mp hrest with ⟨e, hsay, -⟩ | ⟨⟨⟩, w, -, hlast⟩
      · cases ends_forM_say hsay
      · cases (ends_pure.mp hlast).1

/-- A location holds what it held before a failing run, exactly if no output was moved to it that
was not already there. -/
theorem polishPackage_entry?_eq_iff [Limits] (htree : s.store.IsTree) (htools : search.KeepsView s)
    {f : Failure} (h : Ends (polishPackage c search dryRun) s (.error f) t) (k : Location) :
    t.store.entry? k = s.store.entry? k ↔
      ∀ o ∈ movedBefore (preparedOutputs c search s) f,
        s.store.locate s.directory o.target = .ok k →
          s.store.entry? k = some (.file o.content false) := by
  rcases polishPackage_error htree htools h with ⟨parent, hplaces, hdistinct, hentries⟩
  have hlocate : ∀ o ∈ movedBefore (preparedOutputs c search s) f,
      s.store.locate s.directory o.target = .ok k ↔ parent ++ [o.target.name] = k := by
    intro o ho
    rcases hplaces o ho with ⟨hplace, hshort⟩
    rw [hplace.locate, hshort]
    simp
  rw [hentries, entriesAfter_eq_iff hdistinct]
  constructor
  · intro hstood o ho hk
    exact hstood o ho ((hlocate o ho).mp hk)
  · intro hstood o ho hk
    exact hstood o ho ((hlocate o ho).mpr hk)

/-- A run that fails for another reason than that an output cannot be moved leaves the file tree as
it was. -/
theorem polishPackage_sameTree [Limits] (htree : s.store.IsTree) (htools : search.KeepsView s)
    {f : Failure} (h : Ends (polishPackage c search dryRun) s (.error f) t)
    (hbefore : IsBeforeMoves f) :
    s.store.SameTree t.store := by
  have hnone : movedBefore (preparedOutputs c search s) f = [] := by
    unfold movedBefore
    split
    · exact absurd rfl (hbefore _ _)
    · rfl
  intro k
  rw [polishPackage_entry?_eq_iff htree htools h, hnone]
  simp

/-- The locations in the directory of a package, its own among them. -/
def InPackage (s : Session) (c : Config) (k : Location) : Prop :=
  ∃ l, s.store.locate s.directory c.packageDirectory = .ok l ∧ l <+: k

/-- A failing run leaves all that is in the package as it was, exactly if each output that it has
moved to a place in the package by then stood there already.  If it fails for another reason than
that an output cannot be moved, it leaves the whole file tree as it was. -/
theorem polishPackage_keepsPackage_iff [Limits] (htree : s.store.IsTree)
    (htools : search.KeepsView s) {f : Failure}
    (h : Ends (polishPackage c search dryRun) s (.error f) t) :
    ((∀ k, InPackage s c k → t.store.entry? k = s.store.entry? k) ↔
      ∀ o ∈ movedBefore (preparedOutputs c search s) f, ∀ k, InPackage s c k →
        s.store.locate s.directory o.target = .ok k →
          s.store.entry? k = some (.file o.content false)) ∧
      (IsBeforeMoves f → s.store.SameTree t.store) := by
  refine ⟨?_, polishPackage_sameTree htree htools h⟩
  have hlocation := polishPackage_entry?_eq_iff htree htools h
  constructor
  · intro hkept o ho k hk
    exact (hlocation k).mp (hkept k hk) o ho
  · intro hstood k hk
    rw [hlocation k]
    intro o ho
    exact hstood o ho k hk

/-! ### A directory in the place of the module's text -/

/-- Glue with one accessor and one output method. -/
def smallGlue : Text :=
  ["let wasm;", "class V\x7b", "get elements", "()\x7b\x7d", "/**@param", "\x7bV\x7dout",
    "@return\x7b", "void\x7d*/", "static ", "z(out)\x7b\x7d\x7d", "function ",
    "init()\x7b\x7d"].flatMap String.toList

/-- The declarations for it. -/
def smallDeclarations : Text :=
  ["class V\x7b", "get elements", "();", "/**@param", "\x7bV\x7dout", "@return\x7b", "void\x7d*/",
    "static ", "z(out)", ":void;\x7d", "function ", "init():V;"].flatMap String.toList

/-- The text of a module that is a stub. -/
def smallModule : Text :=
  ["(module", "(func ", "$x_elements ", "(param ", "i32 i32)", "(unreach", "able)))"].flatMap
    String.toList

/-- Tools that write the small module, whatever they are given. -/
def smallTools : Toolchain :=
  .ofFunctions (fun _ => .ok []) (fun _ => .ok smallModule)
    (fun text => .ok (Module.binaryHeader ++ text.encode))

/-- The search that finds the small tools. -/
def smallSearch : ToolSearch :=
  fun _ => pure smallTools

theorem keepsView_smallSearch (s : Session) : smallSearch.KeepsView s :=
  ToolSearch.keepsView_pure (Toolchain.keepsView_ofFunctions _ _ _)

/-- The configuration of the package: the version of the generator is set, so that nothing else of
the project is looked at. -/
def smallConfig : Config where
  root := .ofString "/"
  packageDirectory := ⟨1, ["pkg"]⟩
  outName := .ofString "a"
  metadata := ⟨.ofString "a", .ofString "1.0.0", none, none⟩
  offsets := ⟨[("V", 1)]⟩
  internalName := Bindings.defaultInternalName
  copyright := none
  generatorVersion := some "0.2.29"
  skipsGeneratorCheck := false
  flags := []
  manifest := []

theorem ends_checkGeneratorAction_smallConfig [Limits] {generator : Generator}
    (hfound : (checkGenerator s.store smallConfig).toOption = some (some generator, none)) :
    Ends (checkGeneratorAction smallConfig) s (.ok (some generator)) s := by
  apply ends_checkGeneratorAction
  cases hcheck : checkGenerator s.store smallConfig with
  | error e =>
    rw [hcheck] at hfound
    cases hfound
  | ok found =>
    rw [hcheck] at hfound
    cases hfound
    rfl

/-- A package in which a directory stands where the text of the module is to be written. -/
def blockedSession : Session where
  store := ⟨[(["pkg"], .directory),
    (["pkg", "a.js"], .file smallGlue.encode false),
    (["pkg", "a.d.ts"], .file smallDeclarations.encode false),
    (["pkg", "a_bg.d.ts"], .file (Text.encode []) false),
    (["pkg", "a_bg.wasm"], .file (Module.binaryHeader ++ smallModule.encode) false),
    (["pkg", "a_bg.wast"], .directory)]⟩
  directory := []
  environment := []
  said := []
  steps := []

theorem ends_readSources_blocked :
    Ends (readSources ⟨⟨1, ["pkg"]⟩, String.ofList ['a']⟩) blockedSession
      (.ok ⟨Module.binaryHeader ++ smallModule.encode, smallGlue, smallDeclarations, []⟩)
      blockedSession := by
  have hread : ∀ (p : Path) (name : String) (content : Bytes),
      blockedSession.store.locate [] p = .ok ["pkg", name] →
      blockedSession.store.entry? ["pkg", name] = some (.file content false) →
        blockedSession.store.read [] p = .ok content := by
    intro p name content hlocate hentry
    unfold Store.read
    rw [Store.find_eq_ok_iff.mpr ⟨_, hlocate, hentry⟩]
    rfl
  apply ends_readSources
  · exact hread _ "a_bg.wasm" _ (by decide +kernel) rfl
  · decide +kernel
  · exact hread _ "a.js" _ (by decide +kernel) rfl
  · exact hread _ "a.d.ts" _ (by decide +kernel) rfl
  · exact hread _ "a_bg.d.ts" _ (by decide +kernel) rfl

/-- Did a run stop at a directory in the place of an output, after it had changed a location? -/
def stoppedAfter (p : Path) (k : Location) (e : Entry) :
    Except Failure RunReport × Session → Bool
  | (.error (.artifact q (.notReplaced .isDirectory)), t) => q = p && t.store.entry? k = some e
  | _ => false

theorem exists_ends_of_stoppedAfter {x : Action RunReport} {p : Path} {k : Location} {e : Entry}
    (h : stoppedAfter p k e (x.run.run s) = true) :
    ∃ t, Ends x s (.error (.artifact p (.notReplaced .isDirectory))) t ∧
      t.store.entry? k = some e := by
  unfold stoppedAfter at h
  split at h
  · rename_i q t hrun
    simp only [Bool.and_eq_true, decide_eq_true_iff] at h
    rcases h with ⟨rfl, hentry⟩
    exact ⟨t, hrun, hentry⟩
  · cases h

/-- The new module is in its place when the run stops. -/
theorem exists_ends_polishPackage_blocked :
    ∃ t, Ends (polishPackage smallConfig smallSearch false) blockedSession
        (.error (.artifact ⟨1, ["pkg", "a_bg.wast"]⟩ (.notReplaced .isDirectory))) t ∧
      t.store.entry? ["pkg", "a_bg.wasm"] =
        some (.file (Module.binaryHeader ++ Text.encode ['(', 'm', 'o', 'd', 'u', 'l', 'e', ')'])
          false) := by
  apply exists_ends_of_stoppedAfter
  have hcheck : Ends (checkGeneratorAction smallConfig) blockedSession
      (.ok (some ⟨⟨0, 2, 29⟩, .settings⟩)) blockedSession :=
    ends_checkGeneratorAction_smallConfig (by decide +kernel)
  have hname : Ends (writableText smallConfig.outName) blockedSession (.ok ['a'])
      blockedSession := ends_writableText (by decide +kernel)
  have hdirectory : smallConfig.packageDirectory = ⟨1, ["pkg"]⟩ := rfl
  unfold polishPackage
  simp only [hdirectory]
  rw [hcheck.run_bind, hname.run_bind, ends_readSources_blocked.run_bind]
  simp only [smallSearch, reviseBindings, Bindings.reviseDeclarations, Bindings.glueVariants,
    Bindings.reviseGlue, Bindings.splitVariant, transformModule, Module.strip,
    Revision.apply_eq_splice_insertionSort]
  decide +kernel

/-- The new module is not the one that stood there. -/
theorem blockedSession_entry?_ne {t : Session}
    (h : t.store.entry? ["pkg", "a_bg.wasm"] =
      some (.file (Module.binaryHeader ++ Text.encode ['(', 'm', 'o', 'd', 'u', 'l', 'e', ')'])
        false)) :
    ∃ k, InPackage blockedSession smallConfig k ∧
      t.store.entry? k ≠ blockedSession.store.entry? k := by
  have hdirectory : blockedSession.store.locate blockedSession.directory
      smallConfig.packageDirectory = .ok ["pkg"] := by decide +kernel
  refine ⟨["pkg", "a_bg.wasm"], ⟨_, hdirectory, ["a_bg.wasm"], rfl⟩, ?_⟩
  rw [h]
  decide +kernel

/-- The run does not keep the package: an output was moved that had not stood there. -/
theorem polishPackage_keepsPackage_iff_blocked :
    blockedSession.store.IsTree ∧ smallSearch.KeepsView blockedSession ∧
      ∃ f t, Ends (polishPackage smallConfig smallSearch false) blockedSession (.error f) t ∧
        (¬∀ k, InPackage blockedSession smallConfig k →
          t.store.entry? k = blockedSession.store.entry? k) ∧
        ∃ o ∈ movedBefore (preparedOutputs smallConfig smallSearch blockedSession) f,
          ∃ k, InPackage blockedSession smallConfig k ∧
            blockedSession.store.locate blockedSession.directory o.target = .ok k ∧
              blockedSession.store.entry? k ≠ some (.file o.content false) := by
  have htree : blockedSession.store.IsTree := by decide +kernel
  rcases exists_ends_polishPackage_blocked with ⟨t, hfail, hentry⟩
  have hchanged : ¬∀ k, InPackage blockedSession smallConfig k →
      t.store.entry? k = blockedSession.store.entry? k := by
    obtain ⟨k, hk, hne⟩ := blockedSession_entry?_ne hentry
    exact fun hkept => hne (hkept k hk)
  have hmoved := mt (polishPackage_keepsPackage_iff htree (keepsView_smallSearch _) hfail).1.mpr
    hchanged
  push Not at hmoved
  exact ⟨htree, keepsView_smallSearch _, _, t, hfail, hchanged, hmoved⟩

/-- The run fails, and the module in the package is another one than before. -/
theorem polishPackage_changes_blocked :
    blockedSession.store.IsTree ∧ smallSearch.KeepsView blockedSession ∧
      ∃ f t k, Ends (polishPackage smallConfig smallSearch false) blockedSession (.error f) t ∧
        InPackage blockedSession smallConfig k ∧
          t.store.entry? k ≠ blockedSession.store.entry? k := by
  rcases exists_ends_polishPackage_blocked with ⟨t, hfail, hentry⟩
  obtain ⟨k, hk, hne⟩ := blockedSession_entry?_ne hentry
  exact ⟨by decide +kernel, keepsView_smallSearch _, _, t, k, hfail, hk, hne⟩

end WasmPackage
