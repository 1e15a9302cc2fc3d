import WasmPackage.Proofs.Text.Composition

/-!
# The order of the calls

A sequence of calls goes through when each span lies in the text and no two edits meet.  Neither
asks which call came first, and of edits that do not meet no two compare as equal, so calls in
another order go through as well and give the same text.
-/

namespace WasmPackage

namespace Revision

variable {t : Text} {b b' : Revision} {c : Call} {calls calls' : List Call}

/-- Does the span of a call lie in the text? -/
def Call.IsWithin (t : Text) (c : Call) : Prop :=
  0 ≤ (c.span t).1 ∧ (c.span t).1 ≤ (c.span t).2 ∧ (c.span t).2 ≤ t.length

/-- The revision that a sequence of calls gives if none of them fails; else why the first one that
fails does. -/
def recordAll (b : Revision) (calls : List Call) : Except EditError Revision :=
  calls.foldlM call b

/-- One call goes through when its span lies in the text and its edit meets no recorded one. -/
theorem call_eq_ok_iff_compatible : b.call c = .ok b' ↔
    c.IsWithin b.text ∧ (∀ e ∈ b.edits, e.Compatible (c.edit b.text)) ∧
      b' = { b with edits := b.edits ++ [c.edit b.text] } := by
  rw [call_eq_replace, replace_eq_ok_iff]
  rfl

/-- A sequence of calls goes through when every span lies in the text and the edits meet neither a
recorded one nor one another. -/
theorem recordAll_eq_ok_iff : b.recordAll calls = .ok b' ↔
    (∀ c ∈ calls, c.IsWithin b.text) ∧
      (∀ e ∈ b.edits, ∀ c ∈ calls, e.Compatible (c.edit b.text)) ∧
      (calls.map (Call.edit b.text)).Pairwise Edit.Compatible ∧
      b' = { b with edits := b.edits ++ calls.map (Call.edit b.text) } := by
  -- on the calls; what one of them records the others have to keep clear of
  induction calls generalizing b with
  | nil =>
    simp [recordAll, pure, Except.pure, eq_comm]
  | cons c calls ih =>
    have hstep : b.recordAll (c :: calls) = b.call c >>= fun b₁ => b₁.recordAll calls :=
      List.foldlM_cons
    rw [hstep]
    constructor
    · intro h
      cases hcall : b.call c with
      | error refusal =>
        rw [hcall] at h
        cases h
      | ok b₁ =>
        rw [hcall] at h
        rcases call_eq_ok_iff_compatible.mp hcall with ⟨hwithin, hfree, rfl⟩
        rcases ih.mp h with ⟨hwithins, hfrees, hpairwise, rfl⟩
        refine ⟨List.forall_mem_cons.mpr ⟨hwithin, hwithins⟩, ?_, ?_, by simp⟩
        · intro e he
          exact List.forall_mem_cons.mpr
            ⟨hfree e he, hfrees e (List.mem_append_left _ he)⟩
        · rw [List.map_cons, List.pairwise_cons]
          refine ⟨?_, hpairwise⟩
          intro e he
          rcases List.mem_map.mp he with ⟨c', hc', rfl⟩
          exact hfrees _ (List.mem_append_right _ List.mem_cons_self) c' hc'
    · rintro ⟨hwithins, hfrees, hpairwise, rfl⟩
      rw [List.map_cons, List.pairwise_cons] at hpairwise
      have hcall : b.call c = .ok { b with edits := b.edits ++ [c.edit b.text] } :=
        call_eq_ok_iff_compatible.mpr ⟨hwithins c List.mem_cons_self,
          fun e he => hfrees e he c List.mem_cons_self, rfl⟩
      rw [hcall]
      refine ih.mpr ⟨fun c' hc' => hwithins c' (List.mem_cons_of_mem _ hc'), ?_, hpairwise.2,
        by simp⟩
      intro e he c' hc'
      rcases List.mem_append.mp he with he | he
      · exact hfrees e he c' (List.mem_cons_of_mem _ hc')
      · rcases List.mem_singleton.mp he with rfl
        exact hpairwise.1 _ (List.mem_map_of_mem hc')

/-- Calls that go through keep a revision sound. -/
theorem IsSound.of_recordAll (h : b.IsSound) (hcalls : b.recordAll calls = .ok b') :
    b'.IsSound := by
  rcases recordAll_eq_ok_iff.mp hcalls with ⟨hwithins, hfrees, hpairwise, rfl⟩
  constructor
  · intro e he
    rcases List.mem_append.mp he with he | he
    · exact h.within e he
    · rcases List.mem_map.mp he with ⟨c, hc, rfl⟩
      rcases hwithins c hc with ⟨hfirst, hordered, hlast⟩
      simp only [Call.edit]
      omega
  · rw [List.pairwise_append]
    refine ⟨h.compatible, hpairwise, ?_⟩
    intro a ha e he
    rcases List.mem_map.mp he with ⟨c, hc, rfl⟩
    exact hfrees a ha c hc

/-- Whatever a sequence of calls goes through on, it goes through on in any other order. -/
theorem exists_recordAll_of_perm (hperm : calls.Perm calls') (h : b.recordAll calls = .ok b') :
    ∃ b'', b.recordAll calls' = .ok b'' ∧ b''.text = b'.text ∧ b''.edits.Perm b'.edits := by
  rcases recordAll_eq_ok_iff.mp h with ⟨hwithins, hfrees, hpairwise, rfl⟩
  have hedits : (calls'.map (Call.edit b.text)).Perm (calls.map (Call.edit b.text)) :=
    (hperm.map _).symm
  refine ⟨_, recordAll_eq_ok_iff.mpr ⟨?_, ?_, ?_, rfl⟩, rfl, hedits.append_left _⟩
  · intro c hc
    exact hwithins c (hperm.mem_iff.mpr hc)
  · intro e he c hc
    exact hfrees e he c (hperm.mem_iff.mpr hc)
  · exact (hedits.pairwise_iff Edit.Compatible.symm).mpr hpairwise

/-- If all calls of a sequence go through on the revision of a text, then so they do in any other
order: the same edits are recorded, and done they give the same text. -/
theorem recordAll_perm (hperm : calls.Perm calls') (h : (ofText t).recordAll calls = .ok b) :
    ∃ b', (ofText t).recordAll calls' = .ok b' ∧ b'.edits.Perm b.edits ∧ b'.apply = b.apply := by
  rcases exists_recordAll_of_perm hperm h with ⟨b', h', htext, hedits⟩
  have hsound : b.IsSound := (isSound_ofText t).of_recordAll h
  have hsound' : b'.IsSound := (isSound_ofText t).of_recordAll h'
  refine ⟨b', h', hedits, ?_⟩
  rw [hsound'.apply_eq, hsound.apply_eq, htext]
  exact Text.edited_perm hedits hsound'.compatible

/-- A replaced span, an insertion at each of its edges and the line behind it taken away, from the
last call to the first. -/
theorem recordAll_perm_touching :
    ∃ b b', (ofText "ab-\n  \ncd".toList).recordAll [.replace 1 3 "X".toList, .insert 3 ">".toList,
        .insert 1 "<".toList, .deleteLines 5 5] = .ok b ∧
      (ofText "ab-\n  \ncd".toList).recordAll [.deleteLines 5 5, .insert 1 "<".toList,
        .insert 3 ">".toList, .replace 1 3 "X".toList] = .ok b' ∧
      b'.apply = b.apply ∧ b.apply = "a<X>\ncd".toList := by
  have h : (ofText "ab-\n  \ncd".toList).recordAll [.replace 1 3 "X".toList, .insert 3 ">".toList,
      .insert 1 "<".toList, .deleteLines 5 5] = .ok ⟨"ab-\n  \ncd".toList,
        [⟨1, 3, "X".toList⟩, ⟨3, 3, ">".toList⟩, ⟨1, 1, "<".toList⟩, ⟨4, 7, []⟩]⟩ := by
    rfl
  rcases recordAll_perm (List.reverse_perm _).symm h with ⟨b', h', -, happly⟩
  refine ⟨_, b', h, h', happly, ?_⟩
  rw [apply_eq_splice_insertionSort]
  rfl

end Revision

end WasmPackage
