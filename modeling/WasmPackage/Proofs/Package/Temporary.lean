import WasmPackage.Proofs.Package.Runs

/-!
# Temporary directories

A temporary directory is made where nothing stands.  Whatever an action does in it is gone in the
end, so only what it does elsewhere counts, and an action that stays inside leaves nothing behind.
-/

namespace WasmPackage

open WasmPackage.Action (Ends ends_get_bind ends_set_bind ends_ofExcept_ok_bind
  ends_ofExcept_error_bind storeFailure)

variable {α : Type} {s t u : Session} {path : Path} {location k : Location}

/-! ## What a run sees -/

/-- A run sees the same in both sessions: what stands in the file tree, the working directory and
the environment. -/
structure Session.SameView (s t : Session) : Prop where
  tree : s.store.SameTree t.store
  directory : t.directory = s.directory
  environment : t.environment = s.environment

theorem Session.SameView.refl (s : Session) : s.SameView s :=
  ⟨.refl _, rfl, rfl⟩

theorem Session.SameView.trans (hst : s.SameView t) (htu : t.SameView u) : s.SameView u :=
  ⟨hst.tree.trans htu.tree, htu.directory.trans hst.directory,
    htu.environment.trans hst.environment⟩

/-- A run sees the same in both sessions but for what stands below a location. -/
structure Session.SameOutside (s : Session) (location : Location) (t : Session) : Prop where
  tree : ∀ k, ¬location <+: k → t.store.entry? k = s.store.entry? k
  directory : t.directory = s.directory
  environment : t.environment = s.environment

theorem Session.SameOutside.trans (hst : s.SameOutside location t)
    (htu : t.SameOutside location u) : s.SameOutside location u :=
  ⟨fun k hk => (htu.tree k hk).trans (hst.tree k hk), htu.directory.trans hst.directory,
    htu.environment.trans hst.environment⟩

theorem Session.SameView.sameOutside (h : s.SameView t) (location : Location) :
    s.SameOutside location t :=
  ⟨fun k _ => h.tree k, h.directory, h.environment⟩

/-! ## New directories -/

/-- A path to a location that is free for a directory: nothing stands there, nor below it. -/
structure IsNewDirectory (s : Session) (path : Path) (location : Location) : Prop where
  located : s.store.locate s.directory path = .ok location
  ne_nil : location ≠ []
  below : ∀ k, location <+: k → s.store.entry? k = none

/-- The session after a directory has been made. -/
def Session.withNew (s : Session) (location : Location) : Session :=
  { s with store := s.store.put location .directory }

/-- The path and the location of the directory that an action in need of one is given. -/
def Session.newDirectory? (s : Session) (parent : Path) (stem : String) :
    Except StoreError (Path × Location) := do
  let parentAt ← s.store.locate s.directory parent
  let path := parent.child (s.store.freshName parentAt stem)
  let (_, location) ← s.store.makeDirectory s.directory path
  return (path, location)

theorem Session.newDirectory?_eq_ok_iff {parent : Path} {stem : String} :
    s.newDirectory? parent stem = .ok (path, location) ↔
      ∃ parentAt, s.store.locate s.directory parent = .ok parentAt ∧
        path = parent.child (s.store.freshName parentAt stem) ∧
        s.store.locate s.directory path = .ok location ∧ s.store.entry? location = none := by
  unfold Session.newDirectory?
  cases hparent : s.store.locate s.directory parent with
  | error e => simp [bind, Except.bind]
  | ok parentAt =>
    cases hmake : s.store.makeDirectory s.directory
        (parent.child (s.store.freshName parentAt stem)) with
    | error e =>
      simp only [bind, Except.bind, hmake, reduceCtorEq, Except.ok.injEq, exists_eq_left',
        false_iff, not_and]
      rintro rfl hlocate hfree
      rw [Store.makeDirectory_eq_ok_iff.mpr ⟨hlocate, hfree, rfl⟩] at hmake
      cases hmake
    | ok made =>
      rcases made with ⟨store, made⟩
      rcases Store.makeDirectory_eq_ok_iff.mp hmake with ⟨hlocate, hfree, -⟩
      simp only [bind, Except.bind, hmake, pure, Except.pure, Except.ok.injEq, Prod.mk.injEq,
        exists_eq_left']
      constructor
      · rintro ⟨rfl, rfl⟩
        exact ⟨rfl, hlocate, hfree⟩
      · rintro ⟨rfl, hlocate', -⟩
        rw [hlocate] at hlocate'
        exact ⟨rfl, by cases hlocate'; rfl⟩

namespace IsNewDirectory

/-- In a tree, nothing is below the place of a new directory. -/
theorem of_newDirectory? {parent : Path} {stem : String} (htree : s.store.IsTree)
    (h : s.newDirectory? parent stem = .ok (path, location)) : IsNewDirectory s path location := by
  rcases Session.newDirectory?_eq_ok_iff.mp h with ⟨parentAt, -, -, hlocate, hfree⟩
  refine ⟨hlocate, ?_, fun k hk => htree.entry?_eq_none_of_prefix hfree hk⟩
  rintro rfl
  simp at hfree

theorem entry?_withNew (h : IsNewDirectory s path location) (k : Location) :
    Store.entry? (s.withNew location).store k =
      if k = location then some .directory else s.store.entry? k :=
  Store.entry?_put h.ne_nil k

theorem isDirectory_self (h : IsNewDirectory s path location) :
    (s.withNew location).store.isDirectory location = true := by
  rw [Store.isDirectory_iff, h.entry?_withNew, if_pos rfl]

theorem isDirectory_withNew (h : IsNewDirectory s path location)
    (hk : s.store.isDirectory k = true) : (s.withNew location).store.isDirectory k = true := by
  rw [Store.isDirectory_iff] at hk ⊢
  rw [h.entry?_withNew]
  split
  · rfl
  · exact hk

theorem located_withNew (h : IsNewDirectory s path location) :
    (s.withNew location).store.locate (s.withNew location).directory path = .ok location :=
  Store.locate_mono h.located fun _ hk => h.isDirectory_withNew hk

/-- Nothing is in the directory when it has been made. -/
theorem entry?_inside (h : IsNewDirectory s path location) (n : String) :
    Store.entry? (s.withNew location).store (location ++ [n]) = none := by
  rw [h.entry?_withNew, if_neg (by simp)]
  exact h.below _ (List.prefix_append _ _)

theorem entry?_outside (h : IsNewDirectory s path location) (hk : ¬location <+: k) :
    Store.entry? (s.withNew location).store k = s.store.entry? k := by
  rw [h.entry?_withNew, if_neg]
  rintro rfl
  exact hk List.prefix_rfl

theorem sameOutside (h : IsNewDirectory s path location) :
    s.SameOutside location (s.withNew location) :=
  ⟨fun _ hk => h.entry?_outside hk, rfl, rfl⟩

theorem of_sameView (h : IsNewDirectory t path location) (hview : s.SameView t) :
    IsNewDirectory s path location := by
  refine ⟨?_, h.ne_nil, fun k hk => (hview.tree k).symm.trans (h.below k hk)⟩
  have hlocate := h.located
  rw [hview.directory] at hlocate
  apply Store.locate_mono hlocate
  intro m hm
  rw [← hm, hview.tree.isDirectory_eq]

end IsNewDirectory

/-! ## Actions with a temporary directory -/

section

variable {failure : StoreError → Failure} {parent : Path} {stem : String}
  {action : Path → Action α} {r : Except Failure α}

/-- If the directory cannot be made, nothing happens. -/
theorem ends_withDirectory_of_error {cause : StoreError}
    (hnew : s.newDirectory? parent stem = .error cause) :
    Ends (Action.withDirectory failure parent stem action) s r t ↔
      r = .error (storeFailure failure cause) ∧ t = s := by
  unfold Session.newDirectory? at hnew
  unfold Action.withDirectory
  rw [ends_get_bind]
  cases hparent : s.store.locate s.directory parent with
  | error e =>
    rw [hparent] at hnew
    cases hnew
    exact ends_ofExcept_error_bind
  | ok parentAt =>
    simp only [hparent, bind, Except.bind] at hnew
    split at hnew
    · next e hmake =>
      cases hnew
      rw [Action.ofStore, ends_ofExcept_ok_bind]
      simp only [hmake]
      exact ends_ofExcept_error_bind
    · cases hnew

/-- If the directory can be made, the action is run with it, and then it is erased.  The outcome is
that of the action, whatever it is. -/
theorem ends_withDirectory_of_ok (hnew : s.newDirectory? parent stem = .ok (path, location)) :
    Ends (Action.withDirectory failure parent stem action) s r t ↔
      ∃ inner, Ends (action path) (s.withNew location) r inner ∧
        t = { inner with store := inner.store.eraseTree location } := by
  rcases Session.newDirectory?_eq_ok_iff.mp hnew with ⟨parentAt, hparent, rfl, hlocate, hfree⟩
  have hmake := Store.makeDirectory_eq_ok_iff.mpr ⟨hlocate, hfree, rfl⟩
  unfold Action.withDirectory
  rw [ends_get_bind, hparent, Action.ofStore, ends_ofExcept_ok_bind]
  simp only [hmake]
  rw [Action.ofStore, ends_ofExcept_ok_bind, ends_set_bind]
  cases hinner : (action (parent.child (s.store.freshName parentAt stem))).run.run
      (s.withNew location) with
  | mk outcome inner =>
    have hrun : ((action (parent.child (s.store.freshName parentAt stem))).run >>= fun result => do
          modify (fun s : Session => { s with store := s.store.eraseTree location })
          return result : StateM Session (Except Failure α)).run (s.withNew location) =
        (outcome, { inner with store := inner.store.eraseTree location }) := by
      rw [StateT.run_bind, hinner]
      rfl
    constructor
    · intro h
      cases hrun.symm.trans h
      exact ⟨inner, hinner, rfl⟩
    · rintro ⟨inner', hends, rfl⟩
      cases hinner.symm.trans hends
      exact hrun

/-- What an action with a temporary directory does, step by step: the directory cannot be made, and
nothing has happened; or the action is run with it, and then it is erased. -/
theorem withDirectory_cases (h : Ends (Action.withDirectory failure parent stem action) s r t) :
    (∃ cause, r = .error (storeFailure failure cause) ∧ t = s) ∨
      ∃ parentAt path location inner,
        path = parent.child (s.store.freshName parentAt stem) ∧
        s.store.locate s.directory path = .ok location ∧ s.store.entry? location = none ∧
        Ends (action path) (s.withNew location) r inner ∧
        t = { inner with store := inner.store.eraseTree location } := by
  cases hnew : s.newDirectory? parent stem with
  | error cause => exact Or.inl ⟨cause, (ends_withDirectory_of_error hnew).mp h⟩
  | ok made =>
    rcases made with ⟨path, location⟩
    rcases (ends_withDirectory_of_ok hnew).mp h with ⟨inner, hinner, rfl⟩
    rcases Session.newDirectory?_eq_ok_iff.mp hnew with ⟨parentAt, -, rfl, hlocate, hfree⟩
    exact Or.inr ⟨parentAt, _, location, inner, rfl, hlocate, hfree, hinner, rfl⟩

/-- Where the directory can be made, the action is run with it. -/
theorem exists_ends_of_withDirectory {parentAt : Location} {made : Store × Location}
    (hparent : s.store.locate s.directory parent = .ok parentAt)
    (hmade : s.store.makeDirectory s.directory (parent.child (s.store.freshName parentAt stem)) =
      .ok made)
    (h : Ends (Action.withDirectory failure parent stem action) s r t) :
    ∃ inner, Ends (action (parent.child (s.store.freshName parentAt stem)))
      { s with store := made.1 } r inner := by
  rcases made with ⟨store, location⟩
  rcases Store.makeDirectory_eq_ok_iff.mp hmade with ⟨hlocate, hfree, rfl⟩
  have hnew := Session.newDirectory?_eq_ok_iff.mpr ⟨parentAt, hparent, rfl, hlocate, hfree⟩
  rcases (ends_withDirectory_of_ok hnew).mp h with ⟨inner, hinner, -⟩
  exact ⟨inner, hinner⟩

/-- In a tree, nothing but what the action does outside of the directory is left of it. -/
theorem withDirectory_ends (htree : s.store.IsTree)
    (h : Ends (Action.withDirectory failure parent stem action) s r t) :
    (∃ cause, r = .error (storeFailure failure cause) ∧ t = s) ∨
      ∃ parentAt location inner,
        IsNewDirectory s (parent.child (s.store.freshName parentAt stem)) location ∧
        Ends (action (parent.child (s.store.freshName parentAt stem))) (s.withNew location) r
          inner ∧
        t.directory = inner.directory ∧ t.environment = inner.environment ∧
        (∀ k, location <+: k → t.store.entry? k = s.store.entry? k) ∧
        (∀ k, ¬location <+: k → t.store.entry? k = inner.store.entry? k) := by
  cases hmade : s.newDirectory? parent stem with
  | error cause => exact Or.inl ⟨cause, (ends_withDirectory_of_error hmade).mp h⟩
  | ok made =>
    rcases made with ⟨path, location⟩
    have hnew := IsNewDirectory.of_newDirectory? htree hmade
    rcases Session.newDirectory?_eq_ok_iff.mp hmade with ⟨parentAt, -, rfl, -⟩
    rcases (ends_withDirectory_of_ok hmade).mp h with ⟨inner, hinner, rfl⟩
    refine Or.inr ⟨parentAt, location, inner, hnew, hinner, rfl, rfl, ?_, ?_⟩
    · intro k hk
      rw [Store.entry?_eraseTree hnew.ne_nil, if_pos hk, hnew.below k hk]
    · intro k hk
      rw [Store.entry?_eraseTree hnew.ne_nil, if_neg hk]

/-- An action that changes nothing outside of its temporary directory leaves nothing behind. -/
theorem preserves_withDirectory (htree : s.store.IsTree)
    (hinside : ∀ u path location r t, s.SameView u → IsNewDirectory u path location →
      Ends (action path) (u.withNew location) r t → u.SameOutside location t) :
    (Action.withDirectory failure parent stem action).Preserves s.SameView := by
  intro u r t hview h
  rcases withDirectory_ends (htree.sameTree hview.tree) h with ⟨cause, -, rfl⟩ |
    ⟨parentAt, location, inner, hnew, hinner, hdirectory, henvironment, hbelow, hother⟩
  · exact hview
  have houtside := hinside u _ location r inner hview hnew hinner
  refine hview.trans ⟨?_, hdirectory.trans houtside.directory,
    henvironment.trans houtside.environment⟩
  intro k
  -- below the new directory nothing stood before, and nothing is left
  by_cases hk : location <+: k
  · exact hbelow k hk
  · rw [hother k hk, houtside.tree k hk]

end

end WasmPackage
