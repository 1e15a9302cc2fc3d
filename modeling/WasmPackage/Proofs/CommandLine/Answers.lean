import WasmPackage.CommandLine.Execution
import WasmPackage.Proofs.Package.DryRun
import WasmPackage.Proofs.Tool.Installed

/-!
# How commands end

A command answers with status 0 and its lines, or with status 1 if it failed for something that is
meant for the user, which has been said then.  Any other failure ends the program.  Status 2 is left
to arguments that make no sense.
-/

namespace WasmPackage.CommandLine

open WasmPackage.Action (Ends ends_bind ends_pure ends_throw ends_modify ends_tryCatch
  preserves_pure preserves_throw preserves_get preserves_ofExcept)

variable {search : ToolSearch} {c : Command} {s t u : Session} {r : Except Failure Answer}

/-! ## Answers -/

/-- How a command ends, by how its lines do. -/
inductive Answers [Limits] (search : ToolSearch) (c : Command) (s : Session) :
    Except Failure Answer → Session → Prop
  | done {lines : List String} {t : Session} : Ends (linesOf search c) s (.ok lines) t →
    Answers search c s (.ok ⟨0, lines⟩) t
  | reported {f : Failure} {u : Session} : Ends (linesOf search c) s (.error f) u →
    f.isReported = true → Answers search c s (.ok ⟨1, []⟩) (u.say .error f.message)
  | escapes {f : Failure} {t : Session} : Ends (linesOf search c) s (.error f) t →
    f.isReported = false → Answers search c s (.error f) t

theorem ends_execute_iff [Limits] : Ends (execute search c) s r t ↔ Answers search c s r t := by
  unfold execute
  rw [ends_tryCatch]
  constructor
  · rintro (⟨answer, hdone, rfl⟩ | ⟨f, u, hfail, hrest⟩)
    · rcases ends_bind.mp hdone with ⟨e, -, ⟨⟩⟩ | ⟨lines, v, hlines, hlast⟩
      rcases ends_pure.mp hlast with ⟨hanswer, rfl⟩
      cases hanswer
      exact .done hlines
    · have hlines : Ends (linesOf search c) s (.error f) u := by
        rcases ends_bind.mp hfail with ⟨e, hlines, ⟨⟩⟩ | ⟨lines, v, -, hlast⟩
        · exact hlines
        · cases (ends_pure.mp hlast).1
      cases hreported : f.isReported with
      | true =>
        rw [if_pos hreported] at hrest
        rcases ends_bind.mp hrest with ⟨e, hsay, -⟩ | ⟨⟨⟩, v, hsay, hlast⟩
        · cases (ends_modify.mp hsay).1
        · rcases ends_pure.mp hlast with ⟨rfl, rfl⟩
          rw [(ends_modify.mp hsay).2]
          exact .reported hlines hreported
      | false =>
        rw [if_neg (by simp [hreported])] at hrest
        rcases ends_throw.mp hrest with ⟨rfl, rfl⟩
        exact .escapes hlines hreported
  · intro h
    cases h with
    | @done lines _ hlines => exact .inl ⟨_, hlines.bind (ends_pure.mpr ⟨rfl, rfl⟩), rfl⟩
    | @reported f u hlines hreported =>
      refine .inr ⟨f, u, hlines.bind_error, ?_⟩
      rw [if_pos hreported]
      exact (ends_modify.mpr ⟨rfl, rfl⟩).bind (ends_pure.mpr ⟨rfl, rfl⟩)
    | @escapes f _ hlines hreported =>
      refine .inr ⟨f, t, hlines.bind_error, ?_⟩
      rw [if_neg (by simp [hreported])]
      exact ends_throw.mpr ⟨rfl, rfl⟩

/-- The status tells how a command ended: 0 if nothing failed, and 1 if a failure was reported, for
which nothing is printed.  There is no status exactly if a failure is not reported. -/
theorem execute_status [Limits] (h : Ends (execute search c) s r t) :
    (∀ answer, r = .ok answer → answer.status = 0 ∨ answer.status = 1) ∧
      (∀ lines, r = .ok ⟨0, lines⟩ ↔ Ends (linesOf search c) s (.ok lines) t) ∧
      (∀ lines, r = .ok ⟨1, lines⟩ ↔ lines = [] ∧ ∃ f u, Ends (linesOf search c) s (.error f) u ∧
        f.isReported = true ∧ t = u.say .error f.message) ∧
      ∀ f, r = .error f ↔ Ends (linesOf search c) s (.error f) t ∧ f.isReported = false := by
  have hanswers := ends_execute_iff.mp h
  refine ⟨?_, ?_, ?_, ?_⟩
  · rintro answer rfl
    cases hanswers with
    | done _ => exact .inl rfl
    | reported _ _ => exact .inr rfl
  · intro lines
    constructor
    · rintro rfl
      cases hanswers with
      | done hlines => exact hlines
    · exact fun hlines => (h.unique (ends_execute_iff.mpr (.done hlines))).1
  · intro lines
    constructor
    · rintro rfl
      cases hanswers with
      | @reported f u hlines hreported => exact ⟨rfl, f, u, hlines, hreported, rfl⟩
    · rintro ⟨rfl, f, u, hlines, hreported, rfl⟩
      exact (h.unique (ends_execute_iff.mpr (.reported hlines hreported))).1
  · intro f
    constructor
    · rintro rfl
      cases hanswers with
      | escapes hlines hreported => exact ⟨hlines, hreported⟩
    · rintro ⟨hlines, hreported⟩
      exact (h.unique (ends_execute_iff.mpr (.escapes hlines hreported))).1

/-! ## The file tree -/

/-- Does the command write to the package? -/
def Command.writes : Command → Bool
  | .run _ _ _ dryRun _ => !dryRun
  | .offsets _ => false

theorem preserves_configure [Limits] {P : Session → Prop} (project : String)
    (overrides : Overrides) : (configure project overrides).Preserves P :=
  preserves_get.bind fun _ => preserves_ofExcept _ _

/-- A configuration is read without any change. -/
theorem eq_of_ends_configure [Limits] {project : String} {overrides : Overrides}
    {config : Except Failure Config} (h : Ends (configure project overrides) s config t) :
    t = s :=
  preserves_configure (P := (· = s)) project overrides s config t rfl h

/-- Listing an offset table changes nothing. -/
theorem preserves_linesOf_offsets [Limits] {P : Session → Prop} (project : String) :
    (linesOf search (.offsets project)).Preserves P := by
  refine (preserves_configure _ _).bind fun config => ?_
  cases hwritable : config.offsets.isWritable with
  | true => exact (preserves_pure ()).bind fun _ => preserves_pure _
  | false => exact (preserves_throw _).bind fun _ => preserves_pure _

/-- The lines of a command leave the file tree as it was, if the command does not write, or if it
fails for another reason than that an output cannot be moved. -/
theorem sameTree_of_linesOf [Limits] {x : Except Failure (List String)} (htree : s.store.IsTree)
    (htools : search.KeepsView s) (h : Ends (linesOf search c) s x t)
    (hkeeps : c.writes = true → ∃ f, x = .error f ∧ IsBeforeMoves f) :
    s.store.SameTree t.store := by
  cases c with
  | offsets project =>
    exact (preserves_linesOf_offsets project s x t (Session.SameView.refl s) h).tree
  | run project packageDirectory outName dryRun skips =>
    rcases ends_bind.mp h with ⟨e, hconfig, -⟩ | ⟨config, u, hconfig, hrun⟩
    · rw [eq_of_ends_configure hconfig]
      exact .refl _
    rw [eq_of_ends_configure hconfig] at hrun
    have hpolish : ∃ outcome, Ends (polishPackage config search dryRun) s outcome t ∧
        x = outcome.map reportLines := by
      rcases ends_bind.mp hrun with ⟨e, hpolish, rfl⟩ | ⟨report, v, hpolish, hlast⟩
      · exact ⟨_, hpolish, rfl⟩
      · rcases ends_pure.mp hlast with ⟨rfl, rfl⟩
        exact ⟨_, hpolish, rfl⟩
    obtain ⟨outcome, hpolish, rfl⟩ := hpolish
    cases dryRun with
    | true =>
      obtain ⟨prepared, hprepare, -⟩ := ends_polishPackage_dry.mp hpolish
      exact (sameView_preparePackage htools s _ t (.refl s) hprepare).tree
    | false =>
      obtain ⟨f, hfails, hbefore⟩ := hkeeps rfl
      cases outcome with
      | ok report => cases hfails
      | error e =>
        cases hfails
        exact polishPackage_sameTree htree htools hpolish hbefore

/-- What a command does beyond its lines is at most to say something. -/
theorem exists_ends_linesOf [Limits] (h : Ends (execute search c) s r t) :
    ∃ x u, Ends (linesOf search c) s x u ∧ u.SameView t := by
  cases ends_execute_iff.mp h with
  | done hlines => exact ⟨_, t, hlines, .refl t⟩
  | reported hlines _ => exact ⟨_, _, hlines, Session.sameView_say _ _ _⟩
  | escapes hlines _ => exact ⟨_, t, hlines, .refl t⟩

/-- With installed tools that stay in the directories of their files, a command leaves the file tree
as it was if it does not write, or if it fails for another reason than that an output cannot be
moved. -/
theorem execute_sameTree [Limits] (htree : s.store.IsTree)
    (hinside : ∀ flags u tools t, s.SameView u →
      Ends (InstalledTools.discover flags) u (.ok tools) t → tools.StayInside s)
    (h : Ends (execute InstalledTools.search c) s r t)
    (hkeeps : c.writes = true → ∃ f u, Ends (linesOf InstalledTools.search c) s (.error f) u ∧
      IsBeforeMoves f) :
    s.store.SameTree t.store := by
  have htools := InstalledTools.keepsView_search htree hinside
  obtain ⟨x, u, hlines, hview⟩ := exists_ends_linesOf h
  refine (sameTree_of_linesOf htree htools hlines fun hwrites => ?_).trans hview.tree
  obtain ⟨f, v, hfails, hbefore⟩ := hkeeps hwrites
  exact ⟨f, (hlines.unique hfails).1, hbefore⟩

end WasmPackage.CommandLine
