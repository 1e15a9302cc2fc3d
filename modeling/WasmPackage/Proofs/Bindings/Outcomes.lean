import WasmPackage.Proofs.Bindings.Recorded
import WasmPackage.Proofs.Bindings.Removals
import WasmPackage.Proofs.Bindings.Variants
import WasmPackage.Proofs.Script.Failures
import WasmPackage.Proofs.Script.Lookups

/-!
# How the passes fail

A pass over a script gives a result, or tells which required edit was not possible.  What keeps it
from either is known: a script that is not readable, type parameters that run out of their class,
statements that share a newline, and a number with too many digits.
-/

namespace WasmPackage.Bindings

open Script (Outline Token)

variable {α β : Type} {t header : Text} {b : Revision} {o : Outline} {offsets : OffsetTable}
  {internal importPath artifact : String}

/-- The pass gives a result, or tells which required edit was not possible. -/
def EndsWell (x : Except RevisionError α) : Prop :=
  ∀ e, x = .error e → e.IsMissing

theorem endsWell_ok (a : α) : EndsWell (.ok a : Except RevisionError α) :=
  nofun

theorem endsWell_missing {edit : RequiredEdit} {obstacle : Obstacle} :
    EndsWell (.error (.missing artifact edit obstacle) : Except RevisionError α) := by
  rintro _ ⟨⟩
  exact .of_missing

theorem EndsWell.of_bind {x : Except RevisionError α} {f : α → Except RevisionError β}
    (h : EndsWell (x >>= f)) : EndsWell x := by
  rintro e rfl
  exact h e rfl

/-- A step that is barred only by what is missing ends well if its edits can be recorded. -/
theorem IsStep.endsWell {barred : Prop} {edits : List Edit} {result : Revision → α}
    {x : Except RevisionError α} (h : IsStep barred RevisionError.IsMissing b edits result x)
    (hsound : (b.add edits).IsSound) : EndsWell x :=
  fun _ he => (h.error_cases he).resolve_right fun hmeets => hmeets.2 hsound

/-- The edits of a step that ends well can be recorded, for edits that meet are not missing. -/
theorem IsStep.isSound_of_endsWell {barred : Prop} {fails : RevisionError → Prop}
    {edits : List Edit} {result : Revision → α} {x : Except RevisionError α}
    (h : IsStep barred fails b edits result x) (hb : b.IsSound) (hbarred : ¬ barred)
    (hends : EndsWell x) : (b.add edits).IsSound := by
  have hrecords := h.records hbarred
  cases hrecord : record b edits with
  | ok b' => exact ((record_eq_ok_iff hb).mp hrecord).1
  | error e =>
    rw [hrecord] at hrecords
    obtain ⟨cause, rfl⟩ := isConflict_of_record hrecord
    obtain ⟨_, _, _, heq⟩ := hends _ hrecords
    cases heq

/-! ## Outlines -/

theorem outlineOf_endsWell_iff
    [Limits] : EndsWell (outlineOf artifact t) ↔ Script.IsReadable t := by
  rw [Script.isReadable_iff, outlineOf]
  cases Script.outline t with
  | ok o =>
    apply iff_of_true (endsWell_ok o)
    intro e he
    cases he
  | error e =>
    cases e with
    | namelessFunction =>
      apply iff_of_false
      · intro h
        rcases h _ rfl with ⟨_, _, _, heq⟩
        cases heq
      · intro h
        rcases h _ rfl with ⟨_, heq, -⟩
        cases heq
    | malformed fault =>
      simp only
      split
      · next hdeep =>
        apply iff_of_false
        · intro h
          rcases h _ rfl with ⟨_, _, _, heq⟩
          cases heq
        · intro h
          rcases h _ rfl with ⟨_, heq, hne⟩
          cases heq
          exact hne hdeep
      · next hshallow =>
        apply iff_of_true endsWell_missing
        intro e he
        cases he
        exact ⟨fault, rfl, hshallow⟩

/-- A pass over a readable script ends well if it does so behind the outline. -/
theorem endsWell_of_outline [Limits] {x : Except RevisionError α}
    {f : Outline → Except RevisionError α} (hx : x = outlineOf artifact t >>= f)
    (hread : Script.IsReadable t)
    (h : ∀ o, Script.outline t = .ok o → EndsWell x) : EndsWell x := by
  cases houtlineOf : outlineOf artifact t with
  | ok o => exact h o (outline_of_outlineOf houtlineOf)
  | error e =>
    rw [houtlineOf] at hx
    subst hx
    rintro _ ⟨⟩
    exact outlineOf_endsWell_iff.mpr hread e houtlineOf

/-- No member of the outline has type parameters that run out of its class. -/
def KeepsMembers (o : Outline) : Prop :=
  ∀ c ∈ o.classes, ∀ m ∈ c.members, ¬ o.source.RunsOut c.bodyClose m

instance (o : Outline) : Decidable (KeepsMembers o) :=
  inferInstanceAs (Decidable (∀ c ∈ o.classes, ∀ m ∈ c.members,
    ¬ o.source.RunsOut c.bodyClose m))

/-! ## Passes -/

/-- Declarations are revised, or a required edit is missing, if they are readable and keep their
members. -/
theorem reviseDeclarations_endsWell [Limits] (hread : Script.IsReadable t)
    (hkeeps : ∀ o, Script.outline t = .ok o → KeepsMembers o) :
    EndsWell (reviseDeclarations t) := by
  refine endsWell_of_outline rfl hread fun o houtline => ?_
  have hnested := (Script.isNested_classes_iff houtline).mpr (hkeeps o houtline)
  apply (isStep_reviseDeclarations houtline).endsWell
  rw [Revision.ofText_add]
  exact declarationEdits_isSound houtline hnested

theorem countsAreWritable_of_isWritable (h : offsets.isWritable = true) :
    CountsAreWritable o offsets := by
  intro c _ body count helements
  have hget := (elements?_eq_some_iff.mp helements).2
  rcases List.lookup_eq_some_iff.mp hget with ⟨front, back, hentries, -⟩
  rw [OffsetTable.isWritable, List.all_eq_true] at h
  exact h (c.1.name, count) (by simp [hentries])

/-- Glue is revised, or a required edit is missing, if it is readable and keeps its members, if the
statements that export the loader share no newline, and if its numbers can be written. -/
theorem reviseGlue_endsWell [Limits] (hread : Script.IsReadable t)
    (hkeeps : ∀ o, Script.outline t = .ok o → KeepsMembers o ∧
      KeepNewlines o ["export", "default", loaderName, ";"] ∧ CountsAreWritable o offsets) :
    EndsWell (reviseGlue t offsets internal) := by
  refine endsWell_of_outline rfl hread fun o houtline => ?_
  obtain ⟨hmembers, hnewlines, hcounts⟩ := hkeeps o houtline
  have hnested := (Script.isNested_classes_iff houtline).mpr hmembers
  cases hfound : (o.function? loaderName).bind (·.body) with
  | none =>
    refine ((isStep_reviseGlue_of_none offsets internal houtline hfound).weaken fun e he =>
      he.resolve_right (not_not.mpr hcounts)).endsWell ?_
    rw [Revision.ofText_add]
    exact bodies_isSound houtline hnested
  | some body =>
    obtain ⟨f, hf, hbody⟩ := Option.bind_eq_some_iff.mp hfound
    refine ((isStep_reviseGlue offsets internal houtline).weaken fun e he =>
      he.resolve_right (not_not.mpr hcounts)).endsWell ?_
    rw [Revision.ofText_add]
    exact glueEdits_isSound houtline hnested hf (by rw [hbody]; rfl)
      ((removals_isSound_iff houtline rfl).mpr hnewlines).compatible

/-- The split variant is made, or there is no statement that declares the module, just if the body
is readable and the statements that declare it share no newline. -/
theorem splitVariant_endsWell_iff [Limits] : EndsWell (splitVariant t importPath header) ↔
    Script.IsReadable t ∧
      ∀ o, Script.outline t = .ok o → KeepNewlines o ["let", "wasm", ";"] := by
  have hiff {o : Outline} (houtline : Script.outline t = .ok o) :
      EndsWell (splitVariant t importPath header) ↔ KeepNewlines o ["let", "wasm", ";"] := by
    have hstep := isStep_splitVariant importPath header houtline
    rw [← removals_isSound_iff houtline rfl, ← Revision.ofText_add]
    refine ⟨fun h => ?_, hstep.endsWell⟩
    by_cases hnone : placeholders o = []
    · unfold placeholders at hnone
      rw [hnone, List.map_nil, Revision.add_nil]
      exact Revision.isSound_ofText t
    · exact hstep.isSound_of_endsWell (Revision.isSound_ofText t) hnone h
  constructor
  · intro h
    exact ⟨outlineOf_endsWell_iff.mp h.of_bind, fun o houtline => (hiff houtline).mp h⟩
  · rintro ⟨hread, hkeep⟩
    exact endsWell_of_outline rfl hread fun o houtline => (hiff houtline).mpr (hkeep o houtline)

/-! ## Last statements -/

theorem push_start (scan : StatementScan) (x : Token) (next : Option Token) :
    (scan.push x next).1.start = scan.start := by
  unfold StatementScan.push
  simp only
  repeat' split
  all_goals rfl

theorem finalStatementFrom_lt {scan : StatementScan} {i : Nat} {tokens : List Token}
    (h : scan.start < i + tokens.length) :
    finalStatementFrom scan i tokens < i + tokens.length := by
  induction tokens generalizing scan i with
  | nil => exact h
  | cons x rest ih =>
    have hstart := push_start scan x rest.head?
    rw [List.length_cons] at h ⊢
    have hgoes (scan' : StatementScan) (hscan : scan'.start < i + 1 + rest.length) :
        finalStatementFrom scan' (i + 1) rest < i + (rest.length + 1) := by
      have := ih hscan
      omega
    unfold finalStatementFrom
    split
    · next next' rest' hpush =>
      exact hgoes _ (by simp only [List.length_cons]; omega)
    · next scan' _ _ hpush =>
      rw [hpush] at hstart
      exact hgoes scan' (by simp only at hstart; omega)

/-- A body with code has a last statement. -/
theorem lastStatement_lt {tokens : List Token} (h : tokens ≠ []) :
    lastStatement tokens < tokens.length := by
  have hlength := List.length_pos_iff.mpr h
  have hlt : lastStatement tokens < 0 + tokens.length :=
    finalStatementFrom_lt (by simpa using hlength)
  rwa [Nat.zero_add] at hlt

theorem drop_lastStatement_eq_nil_iff {tokens : List Token} :
    tokens.drop (lastStatement tokens) = [] ↔ tokens = [] := by
  constructor
  · intro hdrop
    by_contra hne
    exact Nat.not_le_of_lt (lastStatement_lt hne) (List.drop_eq_nil_iff.mp hdrop)
  · rintro rfl
    exact List.drop_nil

/-! ## All passes -/

/-- A script has an outline, or a fault is told of it, just if it is readable: no look-up of its
readers fails but that of a function's name.  The passes over a readable script give a result, or
tell which required edit was not possible, unless type parameters run out of their class, removed
statements share a newline, or a number has too many digits. -/
theorem passes_endWell [Limits] (t header : Text) (offsets : OffsetTable)
    (internal importPath : String) :
    (Script.Checked.outline t = (Script.outline t).mapError Script.OutlineError.checked ∧
      ∀ tokens : List Token, tokens ≠ [] → lastStatement tokens < tokens.length) ∧
    (Script.IsReadable t ↔ ∀ e, Script.outline t = .error e → e.IsFault) ∧
    (Script.IsReadable t → (∀ o, Script.outline t = .ok o → KeepsMembers o) →
      EndsWell (reviseDeclarations t)) ∧
    (Script.IsReadable t → (∀ o, Script.outline t = .ok o → KeepsMembers o ∧
        KeepNewlines o ["export", "default", loaderName, ";"] ∧ CountsAreWritable o offsets) →
      EndsWell (reviseGlue t offsets internal)) ∧
    (EndsWell (splitVariant t importPath header) ↔ Script.IsReadable t ∧
      ∀ o, Script.outline t = .ok o → KeepNewlines o ["let", "wasm", ";"]) :=
  ⟨⟨Script.Checked.outline_eq t, fun _ => lastStatement_lt⟩, Script.isReadable_iff,
    reviseDeclarations_endsWell, reviseGlue_endsWell, splitVariant_endsWell_iff⟩

/-- A class with type parameters, the loader, and two statements that declare the module on the last
two lines, with a newline behind them. -/
def genericScript : Text :=
  ("class Vector2\x7bget elements()\x7b\x7d m<T>()\x7b\x7d\x7d\nfunction init()\x7b\x7d\n" ++
    "let wasm;\nlet wasm;\n").toList

theorem passes_endWell_generic : EndsWell (reviseDeclarations genericScript) ∧
    EndsWell (reviseGlue genericScript .standard defaultInternalName) ∧
    EndsWell (splitVariant genericScript "./module" []) := by
  have hclean : (Script.outline genericScript).toOption.any (fun o => KeepsMembers o ∧
      KeepNewlines o ["export", "default", loaderName, ";"] ∧
      KeepNewlines o ["let", "wasm", ";"]) = true := by
    decide +kernel
  cases houtline : Script.outline genericScript with
  | error e =>
    rw [houtline] at hclean
    cases hclean
  | ok o =>
    rw [houtline] at hclean
    simp only [Except.toOption, Option.any_some, decide_eq_true_eq] at hclean
    rcases hclean with ⟨hmembers, hexports, hmodule⟩
    have hcounts : CountsAreWritable o .standard :=
      countsAreWritable_of_isWritable (by decide +kernel)
    rcases passes_endWell genericScript [] .standard defaultInternalName "./module" with
      ⟨-, hread, hdeclarations, hglue, hsplit⟩
    have hreadable : Script.IsReadable genericScript := hread.mpr (by simp [houtline])
    refine ⟨hdeclarations hreadable ?_, hglue hreadable ?_, hsplit.mpr ⟨hreadable, ?_⟩⟩ <;>
      intro o' ho' <;> rw [houtline, Except.ok.injEq] at ho' <;> subst ho'
    · exact hmembers
    · exact ⟨hmembers, hexports, hcounts⟩
    · exact hmodule

/-- The name of a function is looked up behind the end of the code, two statements share a newline,
type parameters run over the next class, and a number has too many digits. -/
theorem passes_not_endWell :
    Script.outline "function *".toList = .error .namelessFunction ∧
    splitVariant "let wasm;\nlet wasm;".toList "./module" [] =
      .error (.conflict (.overlaps 9 19 0 10)) ∧
    reviseDeclarations
        "class A \x7bget elements<\x7d class B\x7bget elements(); get x>()\x7d".toList =
      .error (.conflict (.overlaps 32 46 9 56)) ∧
    reviseGlue "class A\x7bget elements()\x7b\x7d\x7d".toList ⟨[("A", 10 ^ 4300)]⟩
      defaultInternalName = .error (.numeral .tooLongToWrite) := by
  decide +kernel

end WasmPackage.Bindings
