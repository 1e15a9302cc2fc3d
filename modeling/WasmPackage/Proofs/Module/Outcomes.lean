import WasmPackage.Package.Failure
import WasmPackage.Proofs.Module.Frame
import WasmPackage.Proofs.SExpr.Escapes

/-!
# How pruning can fail

Pruning fails only for what a reader of the text can be told: it is no module, what is left of it
is none, or something in that still refers to a stub.  The revision takes every cut, in whatever
order they come, and every quoted name can be read.
-/

namespace WasmPackage.Module

open SExpr Node Text

variable {t : Text} {ns nodes nodes' : List Node}

/-- Nodes can be cut in one order if they can in another. -/
theorem cuttable_perm (h : Cuttable t ns nodes) (hperm : nodes.Perm nodes') :
    Cuttable t ns nodes' := by
  refine ⟨h.reads, ?_, ?_, ?_⟩
  · intro n hn
    exact h.below n (hperm.mem_iff.mpr hn)
  · intro n hn
    exact h.grows n (hperm.mem_iff.mpr hn)
  · exact (hperm.pairwise_iff Apart.symm).mp h.apart

theorem uncut_perm (hperm : nodes.Perm nodes') : uncut t nodes = uncut t nodes' := by
  rw [uncut, uncut, isCut, isCut, cutSpans, cutSpans, inSpans_perm (hperm.map _)]

/-- How pruning a text ends: all is well, or it is not for what was read, or for what is left. -/
inductive Outcome (t : Text) : Except StripError (Text × Report) → Prop
  | malformed {fault : Fault Malformed} (h : readModule t = .error fault) :
    Outcome t (.error (.malformed fault))
  | spoiled {module : Node} {fault : Fault Malformed} (h : readModule t = .ok module)
      (hspoiled : readModule (uncut t (cutNodes module)) = .error fault) :
    Outcome t (.error (.spoiled fault))
  | stillReferenced {module module' : Node} {a : Atom} (h : readModule t = .ok module)
      (hleft : readModule (uncut t (cutNodes module)) = .ok module')
      (ha : a ∈ references module') (hremoved : a.value ∈ (stubs module).map Prod.snd) :
    Outcome t (.error (.stillReferenced a.value a.start))
  | pruned {module : Node} (h : readModule t = .ok module) :
    Outcome t (.ok (uncut t (cutNodes module), reportOf module))

theorem outcome_strip (t : Text) : Outcome t (strip t) := by
  cases hread : readModule t with
  | error fault =>
    rw [strip_eq_of_readModule_error hread]
    exact .malformed hread
  | ok module =>
    rw [strip_eq_of_readModule hread]
    cases hread' : readModule (uncut t (cutNodes module)) with
    | error fault => exact .spoiled hread hread'
    | ok module' =>
      simp only
      cases hdangling : danglingReference? module' ((stubs module).map Prod.snd) with
      | some a =>
        have hremoved := List.find?_some hdangling
        rw [List.contains_iff_mem] at hremoved
        exact .stillReferenced hread hread' (List.mem_of_find?_eq_some hdangling) hremoved
      | none => exact .pruned hread

/-- Whatever the text is, pruning it gives a result, or a failure that is reported to the user: its
cuts are never refused, nor would they be in another order, and every atom that it looks at stands
for one text. -/
theorem strip_isReported (t : Text) :
    Outcome t (strip t) ∧ (∀ e, strip t = .error e → (Failure.strip e).isReported = true) ∧
      (∀ refusal, strip t ≠ .error (.conflict refusal)) ∧
      (∀ module, readModule t = .ok module → ∀ nodes, nodes.Perm (cutNodes module) →
        ∃ b, cutAll (Revision.ofText t) nodes = .ok b ∧ b.apply = uncut t (cutNodes module)) ∧
      ∀ a : Atom, ∃! value, a.StandsFor value := by
  have houtcome := outcome_strip t
  refine ⟨houtcome, ?_, strip_ne_conflict, ?_, ?_⟩
  · rintro e he
    rw [he] at houtcome
    cases houtcome <;> rfl
  · intro module hread nodes hperm
    rw [← uncut_perm hperm]
    exact exists_cutAll (cuttable_perm (cuttable_of_readModule hread) hperm.symm)
  · intro a
    exact ⟨a.value, Atom.standsFor_iff.mpr rfl, fun _ h => Atom.standsFor_iff.mp h⟩

end WasmPackage.Module
