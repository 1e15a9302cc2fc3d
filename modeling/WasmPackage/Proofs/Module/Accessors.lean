import WasmPackage.Proofs.Module.SecondRun

/-!
# Accessors that stay exported

A function may be exported as an element accessor by an item of its own or by its header.  Pruning
cuts every such item, whatever function it exports, but a header goes only with a whole stub: an
accessor that is no stub stays exported by its header.
-/

namespace WasmPackage.Module

open SExpr Node Text

variable {t edited : Text} {module module' n : Node} {report : Report}

/-- No function of the module is exported under the name of an element accessor. -/
structure HidesAccessors (module : Node) : Prop where
  standalone : ∀ e ∈ exports module, hasStubSuffix e.name = false
  own : ∀ func ∈ module.children "func", ∀ name ∈ ownExportNames func, hasStubSuffix name = false

/-- Does this item of a module export a function as an element accessor? -/
def exportsAccessor (n : Node) : Bool :=
  (n.head? = some "export" && (export? n).any (fun e => hasStubSuffix e.name)) ||
    (n.head? = some "func" && (ownExportNames n).any hasStubSuffix)

theorem exportsAccessor_eq_false_iff : exportsAccessor n = false ↔
    (n.head? = some "export" → ∀ e, export? n = some e → hasStubSuffix e.name = false) ∧
      (n.head? = some "func" → ∀ name ∈ ownExportNames n, hasStubSuffix name = false) := by
  simp only [exportsAccessor, Bool.or_eq_false_iff, Bool.and_eq_false_imp, decide_eq_true_eq,
    Option.any_eq_false, List.any_eq_false, Bool.not_eq_true]

/-- A module hides its accessors when each of its items does. -/
theorem hidesAccessors_iff :
    HidesAccessors module ↔ ∀ n ∈ module.items, exportsAccessor n = false := by
  constructor
  · rintro ⟨hstandalone, hown⟩ n hn
    rw [exportsAccessor_eq_false_iff]
    constructor
    · intro hword e he
      apply hstandalone
      rw [exports, List.mem_filterMap]
      exact ⟨n, mem_children_iff.mpr ⟨hn, hword⟩, he⟩
    · intro hword
      exact hown n (mem_children_iff.mpr ⟨hn, hword⟩)
  · intro h
    constructor
    · intro e he
      rw [exports, List.mem_filterMap] at he
      rcases he with ⟨n, hn, he⟩
      rcases mem_children_iff.mp hn with ⟨hitem, hword⟩
      exact (exportsAccessor_eq_false_iff.mp (h n hitem)).1 hword e he
    · intro func hfunc
      rcases mem_children_iff.mp hfunc with ⟨hitem, hword⟩
      exact (exportsAccessor_eq_false_iff.mp (h func hitem)).2 hword

@[simp] theorem exportsAccessor_relocate {place : Nat → Nat} (n : Node) :
    exportsAccessor (relocate place n) = exportsAccessor n := by
  have hname : (fun e : Export => hasStubSuffix (e.relocate place).name) =
      fun e => hasStubSuffix e.name := rfl
  simp only [exportsAccessor, head?_relocate, ownExportNames_relocate, export?_relocate,
    Option.any_map, hname]

theorem hidesAccessors_relocate_iff {place : Nat → Nat} :
    HidesAccessors (relocate place module) ↔ HidesAccessors module := by
  simp only [hidesAccessors_iff, items_relocate, List.forall_mem_map, exportsAccessor_relocate]

theorem head?_prune_of_isDeadBranch (h : isDeadBranch n = true) :
    (prune isDeadBranch n).head? = some "br_if" := by
  have hword := head?_of_isDeadBranch h
  rcases n with a | ⟨_ | ⟨a | ⟨items, start, stop⟩, rest⟩, start', stop'⟩
  · cases hword
  · cases hword
  · exact hword
  · cases hword

/-- A pruned module hides its accessors exactly when the items that stay do, pruned. -/
theorem hidesAccessors_pruned_iff : HidesAccessors (pruned module) ↔
    ∀ n ∈ module.items, isRemoved module n = false →
      exportsAccessor (prune isDeadBranch n) = false := by
  rw [hidesAccessors_iff]
  cases module with
  | atom a => simp [pruned, items]
  | list items start stop =>
    constructor
    · intro h n hn hstays
      cases hdead : isDeadBranch n with
      | true =>
        rw [exportsAccessor_eq_false_iff, head?_prune_of_isDeadBranch hdead]
        simp
      | false =>
        apply h
        rw [pruned, items_list, pruneAll_eq_map]
        refine List.mem_map_of_mem (List.mem_filter.mpr ⟨List.mem_filter.mpr ⟨hn, ?_⟩, ?_⟩)
        · simp [hstays]
        · simp [hdead]
    · intro h m hm
      rcases mem_items_pruned hm with ⟨n, hn, hstays, rfl⟩
      exact h n hn hstays

/-- Where dead bounds checks stand apart, an item that stays can export an accessor by its header
only. -/
theorem exportsAccessor_prune_eq_false_iff (hn : n ∈ module.items) (h : ChecksStandApart n)
    (hstays : isRemoved module n = false) :
    exportsAccessor (prune isDeadBranch n) = false ↔
      (n.head? = some "func" → ∀ name ∈ ownExportNames n, hasStubSuffix name = false) := by
  have hown : n.head? = some "func" →
      ownExportNames (prune isDeadBranch n) = ownExportNames n :=
    fun hword => ownExportNames_prune h (h.any_items_eq_false hword (by simp [patternWords]))
  -- an export that is left was there before, and that of an accessor would have been removed
  have hstandalone : n.head? = some "export" →
      ∀ e, export? (prune isDeadBranch n) = some e → hasStubSuffix e.name = false := by
    intro hword e hexport
    have hsame := prune_eq_self n h
      (fun m hm => isOfPattern_of_export? hexport (by rwa [h.head?_prune]) hm)
    rw [hsame] at hexport
    have hnode := node_of_export?_eq_some hexport
    subst hnode
    rw [Bool.eq_false_iff]
    intro hsuffix
    rw [(isRemoved_iff hn).mpr (Or.inr ⟨e, rfl, hn, hword, hexport, Or.inl hsuffix⟩)] at hstays
    cases hstays
  rw [exportsAccessor_eq_false_iff, h.head?_prune]
  constructor
  · rintro ⟨-, hhidden⟩ hword
    rw [← hown hword]
    exact hhidden hword
  · intro hhidden
    refine ⟨hstandalone, ?_⟩
    intro hword
    rw [hown hword]
    exact hhidden hword

/-- A function stays when it is no stub. -/
theorem isRemoved_func_eq_false_iff (hn : n ∈ module.items) (hword : n.head? = some "func") :
    isRemoved module n = false ↔ ¬∃ name, IsStubOf module n name := by
  rw [Bool.eq_false_iff, Ne, isRemoved_iff hn, not_or, and_iff_left_iff_imp]
  rintro - ⟨e, rfl, hexport⟩
  rw [hexport.word, Option.some.injEq] at hword
  exact absurd hword (by decide)

/-- Where dead bounds checks stand apart, a pruned module hides its accessors exactly when each
function whose header exports one is a stub. -/
theorem hidesAccessors_pruned_iff_of_apart (h : ChecksStandApart module) :
    HidesAccessors (pruned module) ↔
      ∀ func ∈ module.children "func", (∃ name ∈ ownExportNames func, hasStubSuffix name = true) →
        ∃ name, IsStubOf module func name := by
  rw [hidesAccessors_pruned_iff]
  constructor
  · rintro hhides func hfunc ⟨name, hname, hsuffix⟩
    rcases mem_children_iff.mp hfunc with ⟨hitem, hword⟩
    by_contra hstub
    have hstays := (isRemoved_func_eq_false_iff hitem hword).mpr hstub
    have hhidden := (exportsAccessor_prune_eq_false_iff hitem (h.of_mem_items hitem) hstays).mp
      (hhides func hitem hstays) hword name hname
    rw [hhidden] at hsuffix
    cases hsuffix
  · intro hstubs n hn hstays
    rw [exportsAccessor_prune_eq_false_iff hn (h.of_mem_items hn) hstays]
    intro hword name hname
    rw [Bool.eq_false_iff]
    intro hsuffix
    exact (isRemoved_func_eq_false_iff hn hword).mp hstays
      (hstubs n (mem_children_iff.mpr ⟨hn, hword⟩) ⟨name, hname, hsuffix⟩)

/-- After clean cuts no accessor is exported exactly when no item that stays exports one; where
dead bounds checks stand apart that is, exactly when each function whose header exports an accessor
is a stub. -/
theorem strip_hidesAccessors_iff (h : strip t = .ok (edited, report)) :
    ∃ module module', readModule t = .ok module ∧ readModule edited = .ok module' ∧
      (CutsCleanly t (cutNodes module) →
        (HidesAccessors module' ↔ ∀ n ∈ module.items, isRemoved module n = false →
          exportsAccessor (prune isDeadBranch n) = false) ∧
        (ChecksStandApart module →
          (HidesAccessors module' ↔ ∀ func ∈ module.children "func",
            (∃ name ∈ ownExportNames func, hasStubSuffix name = true) →
              ∃ name, IsStubOf module func name))) := by
  rcases strip_eq_ok_iff.mp h with ⟨module, module', hread, rfl, hread', -, -⟩
  refine ⟨module, module', hread, hread', ?_⟩
  intro hclean
  have hsame := ((keepsTree_iff hread hread').mpr hclean).eq_relocate
  rw [hsame, hidesAccessors_relocate_iff]
  exact ⟨hidesAccessors_pruned_iff, hidesAccessors_pruned_iff_of_apart⟩

theorem strip_hidesAccessors_iff_accessorText :
    strip accessorText = .ok (accessorFreeText, ⟨1, ["$v_elements"], ["v_elements"]⟩) ∧
      ∃ module module', readModule accessorText = .ok module ∧
        readModule accessorFreeText = .ok module' ∧
        CutsCleanly accessorText (cutNodes module) ∧ ChecksStandApart module ∧
        (∀ func ∈ module.children "func", ∀ name ∈ ownExportNames func,
          hasStubSuffix name = false) ∧
        (∀ n ∈ module.items, isRemoved module n = false →
          exportsAccessor (prune isDeadBranch n) = false) ∧
        HidesAccessors module' := by
  obtain ⟨module, module', hread, hread', hhides⟩ := strip_hidesAccessors_iff strip_accessorText
  have hclean := cutsCleanly_accessorText hread
  have hapart := checksStandApart_accessorText hread
  have hown : (readModule accessorText).toOption.all (fun module =>
      decide (∀ func ∈ module.children "func", ∀ name ∈ ownExportNames func,
        hasStubSuffix name = false)) = true := by decide +kernel
  rw [hread] at hown
  replace hown : ∀ func ∈ module.children "func", ∀ name ∈ ownExportNames func,
      hasStubSuffix name = false := by simpa [Except.toOption] using hown
  obtain ⟨hitems, hfuncs⟩ := hhides hclean
  have hhidden : HidesAccessors module' := by
    refine (hfuncs hapart).mpr ?_
    rintro func hfunc ⟨name, hname, hsuffix⟩
    rw [hown func hfunc name hname] at hsuffix
    cases hsuffix
  exact ⟨strip_accessorText, module, module', hread, hread', hclean, hapart, hown,
    hitems.mp hhidden, hhidden⟩

/-- A function that its header exports as an accessor, and that is no stub. -/
def exportedText : Text :=
  "(module (func $f (export \"v_elements\") (nop)))".toList

/-- The text is left as it is, and the accessor stays exported. -/
theorem strip_exportedText :
    strip exportedText = .ok (exportedText, ⟨0, [], []⟩) ∧
      ∃ module, readModule exportedText = .ok module ∧ ¬HidesAccessors module := by
  refine ⟨strip_eq_ok_of_stripped? (by decide +kernel), ?_⟩
  have hexports : (readModule exportedText).toOption.any
      (fun module => module.items.any exportsAccessor) = true := by decide +kernel
  cases hread : readModule exportedText with
  | error fault =>
    rw [hread] at hexports
    cases hexports
  | ok module =>
    rw [hread] at hexports
    rcases List.any_eq_true.mp hexports with ⟨n, hn, hexport⟩
    refine ⟨module, rfl, ?_⟩
    intro hhides
    rw [hidesAccessors_iff.mp hhides n hn] at hexport
    cases hexport

end WasmPackage.Module
