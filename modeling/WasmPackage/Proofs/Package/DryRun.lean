import WasmPackage.Proofs.Package.Success

/-!
# What a dry run foretells

A run is the same as a dry run up to where the outputs are computed, and from there on it only
writes them and says so.  Writing calls no tool, so a dry run leaves behind the steps of the run;
and the outputs are what the dry run has measured, so what is written has the sizes it reports.
-/

namespace WasmPackage

open WasmPackage.Action (Ends Preserves changeStore withDirectory ends_bind ends_bind_ok ends_pure
  ends_changeStore_ok ends_changeStore_error preserves_pure preserves_get preserves_modify
  preserves_ofStore)

variable {s t t' u : Session} {c : Config} {search : ToolSearch}

/-! ## What writing leaves alone -/

section

variable {P : Session → Prop} (hstore : ∀ u store, P u → P { u with store })
include hstore

theorem preserves_changeStore (failure : StoreError → Failure)
    (f : Store → Except StoreError Store) : (changeStore failure f).Preserves P := by
  intro s r t hs h
  cases r with
  | error e =>
    rcases ends_changeStore_error.mp h with ⟨cause, -, -, rfl⟩
    exact hs
  | ok a =>
    rcases ends_changeStore_ok.mp h with ⟨store, -, rfl⟩
    exact hstore s store hs

theorem preserves_withDirectory_of_store {α : Type} {action : Path → Action α}
    (haction : ∀ path, (action path).Preserves P) (failure : StoreError → Failure) (parent : Path)
    (stem : String) : (withDirectory failure parent stem action).Preserves P := by
  intro s r t hs h
  rcases withDirectory_cases h with ⟨cause, -, rfl⟩ | ⟨parentAt, path, location, inner, -, -, -,
    hinner, rfl⟩
  · exact hs
  · exact hstore inner _ (haction path _ r inner (hstore s _ hs) hinner)

/-- What does not depend on the store is the same after outputs are written, or cannot be. -/
theorem preserves_writeOutputs (directory : Path) (outputs : List Output) :
    (writeOutputs directory outputs).Preserves P := by
  have hall : ∀ {action : Nat → Output → Action Unit}, (∀ i o, (action i o).Preserves P) →
      ∀ (outputs : List Output) (i : Nat), (forOutputs action i outputs).Preserves P := by
    intro action haction outputs
    induction outputs with
    | nil => exact fun _ => preserves_pure ()
    | cons o outputs ih => exact fun i => (haction i o).bind fun _ => ih (i + 1)
  apply preserves_withDirectory_of_store hstore
  intro staging
  refine (hall ?_ outputs 0).bind fun _ => hall ?_ outputs 0
  · exact fun i o => preserves_get.bind fun _ => preserves_changeStore hstore _ _
  · exact fun i o => preserves_get.bind fun _ => (preserves_ofStore _ _).bind fun _ =>
      preserves_changeStore hstore _ _

end

/-- A session goes on from another one without the tools: no step was taken with them, and no line
taken back. -/
structure Session.GoesOn (s t : Session) : Prop where
  steps : t.steps = s.steps
  said : s.said <+: t.said

theorem Session.GoesOn.refl (s : Session) : s.GoesOn s :=
  ⟨rfl, List.prefix_rfl⟩

theorem Session.GoesOn.say (h : s.GoesOn t) (level : NoteLevel) (message : String) :
    s.GoesOn (t.say level message) := by
  unfold Session.say
  split
  · exact h
  · exact ⟨h.steps, h.said.trans (List.prefix_append _ _)⟩

theorem goesOn_writeOutputs (directory : Path) (outputs : List Output) :
    (writeOutputs directory outputs).Preserves s.GoesOn :=
  preserves_writeOutputs (fun _ _ h => ⟨h.steps, h.said⟩) directory outputs

theorem goesOn_forM_say (outputs : List Output) (g : Output → String) :
    (outputs.forM (fun o => Action.say .note (g o))).Preserves s.GoesOn := by
  induction outputs with
  | nil => exact preserves_pure _
  | cons o outputs ih =>
    exact (preserves_modify fun _ h => h.say .note (g o)).bind fun _ => ih

/-! ## The run behind a dry run -/

/-- A run has done what a report foretold: it gives that report, but as of a run that has written,
and each output has the size that is in the report. -/
structure IsAsForetold (s t : Session) (foretold report : RunReport) : Prop where
  notWritten : foretold.written = false
  report : report = { foretold with written := true }
  sizes : ∀ x ∈ foretold.outputs, ∃ content,
    t.store.read s.directory x.1 = .ok content ∧ content.length = x.2
  others : ∀ k, (∀ x ∈ foretold.outputs, s.store.locate s.directory x.1 ≠ .ok k) →
    t.store.entry? k = s.store.entry? k

/-- How a run from a session ends, and the session behind it, as a dry run from the same session
has foretold. -/
structure Foretells (s : Session) (dry : Except Failure RunReport) (t : Session)
    (real : Except Failure RunReport) (t' : Session) : Prop where
  /-- The dry run changes no file. -/
  unchanged : s.SameView t
  goesOn : t.GoesOn t'
  fails : ∀ f, dry = .error f → real = .error f ∧ t' = t
  succeeds : ∀ report, real = .ok report → ∃ foretold, dry = .ok foretold ∧
    IsAsForetold s t' foretold report

/-- A dry run ends like the part of a run that does not write. -/
theorem ends_polishPackage_dry [Limits] {r : Except Failure RunReport} :
    Ends (polishPackage c search true) s r t ↔
      ∃ prepared, Ends (preparePackage c search) s prepared t ∧ r = prepared.map Prod.fst := by
  rw [polishPackage_eq, ends_bind]
  constructor
  · rintro (⟨e, hprepare, rfl⟩ | ⟨⟨report, outputs⟩, u, hprepare, hrest⟩)
    · exact ⟨_, hprepare, rfl⟩
    · rcases ends_pure.mp hrest with ⟨rfl, rfl⟩
      exact ⟨_, hprepare, rfl⟩
  · rintro ⟨prepared, hprepare, rfl⟩
    cases prepared with
    | error e => exact Or.inl ⟨e, hprepare, rfl⟩
    | ok made => exact Or.inr ⟨made, t, hprepare, ends_pure.mpr ⟨rfl, rfl⟩⟩

/-- A run that has prepared its outputs goes on to write them, from what the dry run leaves. -/
theorem goesOn_of_preparePackage [Limits] {report : RunReport} {outputs : List Output}
    {r : Except Failure RunReport}
    (hprepare : Ends (preparePackage c search) s (.ok (report, outputs)) t)
    (h : Ends (polishPackage c search false) s r t') : t.GoesOn t' := by
  rw [polishPackage_eq, Ends, hprepare.run_bind] at h
  have hwrite : (do
      writeOutputs c.packageDirectory outputs
      outputs.forM (fun o => Action.say .note s!"wrote {o.target.text}")
      return { report with written := true } : Action RunReport).Preserves t.GoesOn :=
    (goesOn_writeOutputs _ _).bind fun _ => (goesOn_forM_say _ _).bind fun _ => preserves_pure _
  exact hwrite t r t' (.refl t) h

/-- What is prepared is reported as not written. -/
theorem notWritten_of_preparePackage [Limits] {report : RunReport} {outputs : List Output}
    (h : Ends (preparePackage c search) s (.ok (report, outputs)) t) : report.written = false := by
  rw [preparePackage_eq] at h
  rcases ends_bind_ok.mp h with ⟨g, s₁, -, h⟩
  rcases ends_bind_ok.mp h with ⟨⟨⟩, s₂, -, h⟩
  rcases ends_bind_ok.mp h with ⟨⟨declarations, variants⟩, s₃, -, h⟩
  rcases ends_bind_ok.mp h with ⟨⟨⟩, s₄, -, h⟩
  rcases ends_bind_ok.mp h with ⟨header, s₅, -, h⟩
  cases (ends_pure.mp h).1
  rfl

/-- A run that succeeds gives the report that was prepared, and its outputs are there. -/
theorem isAsForetold_of_preparePackage [Limits] (htree : s.store.IsTree)
    (htools : search.KeepsView s) {prepared report : RunReport} {outputs : List Output}
    (hprepare : Ends (preparePackage c search) s (.ok (prepared, outputs)) t)
    (h : Ends (polishPackage c search false) s (.ok report) t') :
    IsAsForetold s t' prepared report := by
  rcases areWritten_of_preparePackage htree htools hprepare h with ⟨hreport, hwritten⟩
  rcases exists_isPrepared_of_ends hprepare with ⟨g, header, declarations, variants, hprepared⟩
  refine ⟨notWritten_of_preparePackage hprepare, hreport, ?_, ?_⟩
  · intro x hx
    rw [hprepared.sizes] at hx
    rcases List.mem_map.mp hx with ⟨o, ho, rfl⟩
    exact ⟨o.content, hwritten.read o ho, rfl⟩
  · intro k hk
    apply hwritten.others
    intro o ho
    apply hk (o.target, o.content.length)
    rw [hprepared.sizes]
    exact List.mem_map_of_mem ho

/-- A dry run changes no file, and foretells the run: it takes the same steps with the tools; if it
fails, so does the run, with the same failure; and if the run succeeds, it gives the report of the
dry run, but for having written, and has written files of the sizes in it. -/
theorem polishPackage_foretells [Limits] (htree : s.store.IsTree) (htools : search.KeepsView s) :
    ∃ dry t real t', Ends (polishPackage c search true) s dry t ∧
      Ends (polishPackage c search false) s real t' ∧ Foretells s dry t real t' := by
  rcases hprepare : (preparePackage c search).run.run s with ⟨prepared, t⟩
  rcases hreal : (polishPackage c search false).run.run s with ⟨real, t'⟩
  have hview := sameView_preparePackage htools s _ t (.refl s) hprepare
  refine ⟨_, t, real, t', ends_polishPackage_dry.mpr ⟨prepared, hprepare, rfl⟩, hreal, ?_⟩
  cases prepared with
  | error e =>
    -- nothing of the run is left to be done
    have hfail : Ends (polishPackage c search false) s (.error e) t := by
      rw [polishPackage_eq]
      exact Ends.bind_error hprepare
    rcases Ends.unique hreal hfail with ⟨rfl, rfl⟩
    refine ⟨hview, .refl _, ?_, ?_⟩
    · rintro f hf
      cases hf
      exact ⟨rfl, rfl⟩
    · rintro report hreport
      cases hreport
  | ok made =>
    rcases made with ⟨report, outputs⟩
    refine ⟨hview, goesOn_of_preparePackage hprepare hreal, ?_, ?_⟩
    · rintro f hf
      cases hf
    · rintro report' rfl
      exact ⟨report, rfl, isAsForetold_of_preparePackage htree htools hprepare hreal⟩

/-- The small package can be polished, so its dry run foretells a run that writes. -/
theorem polishPackage_foretells_small :
    (packageSession smallGlue smallDeclarations).store.IsTree ∧
      smallSearch.KeepsView (packageSession smallGlue smallDeclarations) ∧
      ∃ dry t report t', Ends (polishPackage smallConfig smallSearch true)
          (packageSession smallGlue smallDeclarations) dry t ∧
        Ends (polishPackage smallConfig smallSearch false)
          (packageSession smallGlue smallDeclarations) (.ok report) t' ∧
        Foretells (packageSession smallGlue smallDeclarations) dry t (.ok report) t' := by
  have htree := isTree_packageSession smallGlue smallDeclarations
  rcases exists_ends_polishPackage_small with ⟨report, u, hends⟩
  rcases polishPackage_foretells htree (keepsView_smallSearch _) with
    ⟨dry, t, real, t', hdry, hreal, hforetells⟩
  rcases Ends.unique hreal hends with ⟨rfl, rfl⟩
  exact ⟨htree, keepsView_smallSearch _, dry, t, report, t', hdry, hends, hforetells⟩

end WasmPackage
