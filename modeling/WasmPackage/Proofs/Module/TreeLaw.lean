import WasmPackage.Proofs.Module.Frame

/-!
# The tree of a pruned text

When every cut is clean, a pruned text reads as the pruned tree.  When one is not, a lexeme in front
of a cut runs into what stands behind it, or a word of blanks goes with the lines of a node, and the
text reads as another tree.
-/

namespace WasmPackage.Module

open SExpr Node Text

variable {t edited : Text} {module module' : Node} {report : Report}

/-- The tree law: a pruned text reads as the pruned tree, and every token of it is one that has
moved with its characters, so none is joined to another, split, or part of a comment. -/
structure KeepsTree (t : Text) (module module' : Node) : Prop where
  shape : module'.shape = (pruned module).shape
  tokens : module'.tokens =
    (pruned module).tokens.map (Token.relocate (keptBefore (isCut t (cutNodes module))))

theorem KeepsTree.eq_relocate (h : KeepsTree t module module') :
    module' = relocate (keptBefore (isCut t (cutNodes module))) (pruned module) := by
  have htokens := h.tokens
  rw [← tokens_relocate] at htokens
  exact tokens_injective htokens

/-- What is left of a module keeps the tree exactly when the cuts are clean. -/
theorem keepsTree_iff (hread : readModule t = .ok module)
    (hread' : readModule (uncut t (cutNodes module)) = .ok module') :
    KeepsTree t module module' ↔ CutsCleanly t (cutNodes module) := by
  rcases exists_list_of_readModule hread with ⟨items, start, stop, rfl, horder, hword⟩
  have hleft : tokensOf [pruned (list items start stop)] =
      tokensOutside (cutNodes (list items start stop)) (tokensOf [list items start stop]) := by
    simpa [tokensOf] using tokens_pruned horder hword
  rw [← read_uncut_iff (cuttable_of_readModule hread) hleft, (readModule_eq_ok_iff.mp hread').1]
  constructor
  · rintro ⟨-, htokens⟩
    rw [← tokens_relocate] at htokens
    rw [tokens_injective htokens]
    rfl
  · intro hsame
    cases hsame
    exact ⟨shape_relocate _, tokens_relocate _⟩

/-- A pruned text keeps the tree exactly when its cuts are clean. -/
theorem strip_keepsTree_iff (h : strip t = .ok (edited, report)) :
    ∃ module module', readModule t = .ok module ∧ readModule edited = .ok module' ∧
      (KeepsTree t module module' ↔ CutsCleanly t (cutNodes module)) := by
  rcases strip_eq_ok_iff.mp h with ⟨module, module', hread, rfl, hread', -, -⟩
  exact ⟨module, module', hread, hread', keepsTree_iff hread hread'⟩

theorem strip_keepsTree_iff_accessorText :
    strip accessorText = .ok (accessorFreeText, ⟨1, ["$v_elements"], ["v_elements"]⟩) ∧
      ∃ module module', readModule accessorText = .ok module ∧
        readModule accessorFreeText = .ok module' ∧
        CutsCleanly accessorText (cutNodes module) ∧ KeepsTree accessorText module module' := by
  obtain ⟨module, module', hread, hread', hkeeps⟩ := strip_keepsTree_iff strip_accessorText
  have hclean := cutsCleanly_accessorText hread
  exact ⟨strip_accessorText, module, module', hread, hread', hclean, hkeeps.mpr hclean⟩

/-- Two instructions that only a dead bounds check keeps apart. -/
def touchingText : Text :=
  ["(module (func $f nop", "(br_if $l (i32.eq (local.tee $1", " (i32.load (local.get $0)))",
    " (i32.const -1)))", "nop))"].flatMap String.toList

/-- The two instructions without it. -/
def joinedText : Text :=
  ["(module (func $f nop", "nop))"].flatMap String.toList

/-- The instructions run together, and the text reads as another tree. -/
theorem not_keepsTree_touchingText :
    strip touchingText = .ok (joinedText, ⟨1, [], []⟩) ∧
      (readModule joinedText).toOption.map Node.shape ≠
        (readModule touchingText).toOption.map (fun module => (pruned module).shape) :=
  ⟨strip_eq_ok_of_stripped? (by decide +kernel), by decide +kernel⟩

end WasmPackage.Module
