import Mathlib.Data.List.Infix
import WasmPackage.Proofs.Package.Success

/-!
# Delivering outputs

The targets of outputs may be any files, each in a directory of its own.  While outputs are moved
the directories stay as they are, so every target leads to where it led before, and as the targets
are different files no output takes the place of another.  Until all outputs are staged, no target
is touched.
-/

namespace WasmPackage

open WasmPackage.Action (Ends ends_get_bind ends_bind ends_bind_ok ends_pure ends_ofStore_ok
  ends_changeStore_ok)

variable {s t t' u u' : Session} {directory staging : Path} {stage k l : Location}
  {index : Nat} {o : Output} {outputs : List Output} {p : Path}

/-! ## Walks that keep out of a location -/

theorem Store.walk_cons (store : Store) (l : Location) (n : String) (rest : List String) :
    store.walk l (n :: rest) = (store.walk l [n]).bind (fun k => store.walk k rest) :=
  store.walk_append l [n] rest

/-- The step from a directory does not depend on what else is in the store. -/
theorem Store.walk_singleton_congr {store store' : Store} (h : store.isDirectory l = true)
    (h' : store'.isDirectory l = true) (n : String) : store'.walk l [n] = store.walk l [n] := by
  rw [Store.isDirectory_iff] at h h'
  simp only [Store.walk, h, h']

/-- A walk that keeps out of a location is the same wherever the directories elsewhere are. -/
theorem Store.walk_of_outside {store store' : Store} {names : List String}
    (hdirs : ∀ m, ¬stage <+: m → store'.isDirectory m = true → store.isDirectory m = true)
    (houtside : ∀ front m, front <+: names → store.walk l front = .ok m → ¬stage <+: m)
    (h : store'.walk l names = .ok k) : store.walk l names = .ok k := by
  induction names generalizing l with
  | nil => exact h
  | cons n rest ih =>
    rw [Store.walk_cons] at h ⊢
    cases hstep : store'.walk l [n] with
    | error e =>
      rw [hstep] at h
      cases h
    | ok m =>
      rw [hstep] at h
      -- the walk begins outside, so the first step is made in both stores
      have hdir' := Store.isDirectory_of_walk hstep
      have hdir := hdirs l (houtside [] l (List.nil_prefix) rfl) hdir'
      rw [Store.walk_singleton_congr hdir hdir'] at hstep
      rw [hstep]
      refine ih ?_ h
      intro front m' hfront hwalk
      apply houtside (n :: front) m' (by simpa using hfront)
      rw [Store.walk_cons, hstep]
      exact hwalk

/-- Some beginning of the path leads to the location or below it. -/
def Session.LeadsInto (s : Session) (p : Path) (stage : Location) : Prop :=
  ∃ names k, names <+: p.parts.toList ∧ s.store.walk (p.start s.directory) names = .ok k ∧
    stage <+: k

instance (s : Session) (p : Path) (stage : Location) : Decidable (s.LeadsInto p stage) :=
  decidable_of_iff (∃ names ∈ p.parts.toList.inits,
      (s.store.walk (p.start s.directory) names).toOption.any (stage.isPrefixOf ·) = true) <| by
    have hfound (names : List String) :
        (s.store.walk (p.start s.directory) names).toOption.any (stage.isPrefixOf ·) = true ↔
          ∃ k, s.store.walk (p.start s.directory) names = .ok k ∧ stage <+: k := by
      cases s.store.walk (p.start s.directory) names <;> simp [Except.toOption]
    simp [Session.LeadsInto, hfound]

theorem not_prefix_of_locate (hout : ¬s.LeadsInto p stage)
    (h : s.store.locate s.directory p = .ok k) : ¬stage <+: k := by
  have hzero := Store.hasZero_eq_false_of_locate h
  rw [Store.locate_eq _ _ hzero] at h
  split at h
  · cases h
  · exact fun hprefix => hout ⟨p.parts.toList, k, List.prefix_rfl, h, hprefix⟩

/-- The session sees the same directories, but for a location and what is below it. -/
structure Session.KeepsDirectories (s : Session) (stage : Location) (u : Session) : Prop where
  directory : u.directory = s.directory
  isDirectory : ∀ m, ¬stage <+: m → u.store.isDirectory m = s.store.isDirectory m

theorem Session.KeepsDirectories.locate (h : s.KeepsDirectories stage u)
    (hout : ¬s.LeadsInto p stage) (hlocate : u.store.locate u.directory p = .ok k) :
    s.store.locate s.directory p = .ok k := by
  have hzero := Store.hasZero_eq_false_of_locate hlocate
  rw [h.directory] at hlocate
  rw [Store.locate_eq _ _ hzero] at hlocate ⊢
  split at hlocate
  · cases hlocate
  · next hshort =>
    rw [if_neg hshort]
    have hdirs : ∀ m, ¬stage <+: m → u.store.isDirectory m = true →
        s.store.isDirectory m = true := by
      intro m hm hdir
      rwa [h.isDirectory m hm] at hdir
    exact Store.walk_of_outside hdirs
      (fun names m hnames hwalk hprefix => hout ⟨names, m, hnames, hwalk, hprefix⟩) hlocate

/-! ## Moving -/

/-- An output is moved to where its target leads, and no directory stands there. -/
theorem moveOutput_ok (hplaces : HasStagingPlaces u staging stage [o])
    (hsource : u.store.entry? (stage ++ [stagedName index o.target.name]) =
      some (.file o.content false))
    (h : Ends (moveOutput staging index o) u (.ok ()) u') :
    ∃ k, u.store.locate u.directory o.target = .ok k ∧ u.store.isDirectory k = false ∧
      u' = { u with
        store := movedStore u.store (stage ++ [stagedName index o.target.name]) k o.content } := by
  unfold moveOutput at h
  rw [ends_get_bind] at h
  rcases ends_bind_ok.mp h with ⟨source, v, hlocate, hmove⟩
  rcases ends_ofStore_ok.mp hlocate with ⟨hlocated, rfl⟩
  rw [hplaces.eq_of_locate hlocated] at hmove
  rcases ends_changeStore_ok.mp hmove with ⟨store, hmoveTo, rfl⟩
  rcases (Store.moveTo_eq_ok_iff hsource).mp hmoveTo with ⟨k, htarget, hfree, rfl⟩
  exact ⟨k, htarget, hfree, rfl⟩

/-- Moving a staged output puts a file where no directory is. -/
theorem Session.KeepsDirectories.movedStore {n : String} (h : s.KeepsDirectories stage u)
    (hfree : u.store.isDirectory k = false) (content : Bytes) : s.KeepsDirectories stage
      { u with store := WasmPackage.movedStore u.store (stage ++ [n]) k content } := by
  refine ⟨h.directory, ?_⟩
  intro m hm
  have hsource : m ≠ stage ++ [n] := by
    rintro rfl
    exact hm (List.prefix_append _ _)
  rw [← h.isDirectory m hm, Store.isDirectory,
    entry?_movedStore (by simp) (Store.ne_nil_of_isDirectory hfree), if_neg hsource]
  split
  · next hmk =>
    rw [hmk, hfree]
    rfl
  · rfl

/-- The targets of the outputs lead to different locations, where they lead anywhere. -/
def Session.AreDifferentFiles (s : Session) (outputs : List Output) : Prop :=
  outputs.Pairwise fun a b =>
    ∀ k, s.store.locate s.directory a.target = .ok k → s.store.locate s.directory b.target ≠ .ok k

theorem Session.AreDifferentFiles.of_ne (h : outputs.Pairwise fun a b =>
    s.store.locate s.directory a.target ≠ s.store.locate s.directory b.target) :
    s.AreDifferentFiles outputs :=
  h.imp fun hne _ ha hb => hne (ha.trans hb.symm)

/-- If all staged outputs are moved, each stands where its target led to at the start, and outside
of the staging directory nothing else has changed. -/
theorem forOutputs_moveOutput_ok (hkeeps : s.KeepsDirectories stage u)
    (hplaces : HasStagingPlaces u staging stage outputs)
    (hstaged : AreStaged u.store stage index outputs)
    (hout : ∀ o ∈ outputs, ¬s.LeadsInto o.target stage) (hfiles : s.AreDifferentFiles outputs)
    (h : Ends (forOutputs (moveOutput staging) index outputs) u (.ok ()) u') :
    s.KeepsDirectories stage u' ∧
      (∀ o ∈ outputs, ∃ k, s.store.locate s.directory o.target = .ok k ∧
        u'.store.entry? k = some (.file o.content false)) ∧
      ∀ k, ¬stage <+: k → (∀ o ∈ outputs, s.store.locate s.directory o.target ≠ .ok k) →
        u'.store.entry? k = u.store.entry? k := by
  -- on the outputs: the directories stay, and the outputs still to be moved stay staged
  induction outputs generalizing index u with
  | nil =>
    rcases ends_pure.mp h with ⟨-, rfl⟩
    exact ⟨hkeeps, by simp, fun _ _ _ => rfl⟩
  | cons o rest ih =>
    rcases hstaged with ⟨hsource, hstagedRest⟩
    rcases List.forall_mem_cons.mp hout with ⟨houtFirst, houtRest⟩
    rcases List.pairwise_cons.mp hfiles with ⟨hothers, hfilesRest⟩
    unfold forOutputs at h
    rcases ends_bind_ok.mp h with ⟨⟨⟩, v, hmove, hrest⟩
    rcases moveOutput_ok hplaces.head hsource hmove with ⟨k, hlocate, hfree, rfl⟩
    have hlocated := hkeeps.locate houtFirst hlocate
    have hkOut := not_prefix_of_locate houtFirst hlocated
    have hkNe := Store.ne_nil_of_isDirectory hfree
    have hfile : u.store.isDirectory (stage ++ [stagedName index o.target.name]) = false := by
      simp [Store.isDirectory, hsource]
    have hplacesRest : HasStagingPlaces { u with
        store := movedStore u.store (stage ++ [stagedName index o.target.name]) k o.content }
        staging stage rest :=
      hplaces.tail.of_isDirectory rfl fun _ hm => isDirectory_movedStore hfile hfree hm
    rcases ih (hkeeps.movedStore hfree o.content) hplacesRest
      (hstagedRest.movedStore hkNe hkOut o.content) houtRest hfilesRest hrest with
      ⟨hkeepsRest, hdelivered, hframe⟩
    have hsourceNe : stage ++ [stagedName index o.target.name] ≠ [] := by simp
    have hentry := entry?_movedStore (s := u.store) hsourceNe hkNe o.content
    refine ⟨hkeepsRest, List.forall_mem_cons.mpr ⟨⟨k, hlocated, ?_⟩, hdelivered⟩, ?_⟩
    · -- the outputs that are moved later go elsewhere
      rw [hframe k hkOut (fun o' ho' => hothers o' ho' k hlocated), hentry, if_pos rfl]
    · intro m hm hne
      rcases List.forall_mem_cons.mp hne with ⟨hneFirst, hneRest⟩
      rw [hframe m hm hneRest, hentry, if_neg, if_neg]
      · rintro rfl
        exact hm (List.prefix_append _ _)
      · rintro rfl
        exact hneFirst hlocated

/-! ## Staging -/

/-- An output can be staged if its staged name is one that files can have and is not too long. -/
structure Output.Fits (o : Output) (staging : Path) (index : Nat) : Prop where
  zero_notMem : '\x00' ∉ o.target.name.toList
  short : (stagedPath staging index o).isTooLong = false

/-- In an empty place of the staging directory an output is staged exactly if it fits. -/
theorem exists_stageOutput_ok_iff (hlocate : u.store.locate u.directory staging = .ok stage)
    (hdir : u.store.isDirectory stage = true)
    (hfree : u.store.entry? (stage ++ [stagedName index o.target.name]) = none) :
    (∃ u', Ends (stageOutput staging index o) u (.ok ()) u') ↔ o.Fits staging index := by
  have hwrite (hzero : '\x00' ∉ o.target.name.toList) :
      u.store.write u.directory (stagedPath staging index o) o.content =
        if (stagedPath staging index o).isTooLong then .error .nameTooLong
        else .ok (u.store.put (stage ++ [stagedName index o.target.name])
          (.file o.content false)) := by
    have hplaces : HasStagingPlaces u staging stage [o] :=
      hasStagingPlaces hlocate hdir (by simpa using hzero)
    rcases hplaces index o (List.mem_singleton_self o) with ⟨hplace, hname⟩
    rw [hplace.write (by rw [hname, hfree]), hname]
  constructor
  · rintro ⟨u', h⟩
    have hzero := zero_notMem_of_stageOutput h
    refine ⟨hzero, ?_⟩
    unfold stageOutput at h
    rw [ends_get_bind] at h
    rcases ends_changeStore_ok.mp h with ⟨store, hwritten, -⟩
    rw [hwrite hzero] at hwritten
    by_contra hlong
    rw [Bool.not_eq_false] at hlong
    rw [if_pos hlong] at hwritten
    cases hwritten
  · rintro ⟨hzero, hshort⟩
    have hwritten := hwrite hzero
    rw [if_neg (by simp [hshort])] at hwritten
    simp only [stageOutput, ends_get_bind]
    exact ⟨_, ends_changeStore_ok.mpr ⟨_, hwritten, rfl⟩⟩

/-- If all outputs are staged, each of them fits. -/
theorem fits_of_forOutputs (hlocate : u.store.locate u.directory staging = .ok stage)
    (hdir : u.store.isDirectory stage = true)
    (hfree : ∀ i name, index ≤ i → u.store.entry? (stage ++ [stagedName i name]) = none)
    (h : Ends (forOutputs (stageOutput staging) index outputs) u (.ok ()) u') :
    ∀ (i : Nat) (o : Output), outputs[i]? = some o → o.Fits staging (index + i) := by
  induction outputs generalizing index u with
  | nil => simp
  | cons first rest ih =>
    unfold forOutputs at h
    rcases ends_bind_ok.mp h with ⟨⟨⟩, v, hstage, hrest⟩
    have hfits := (exists_stageOutput_ok_iff hlocate hdir
      (hfree index _ (Nat.le_refl index))).mp ⟨v, hstage⟩
    have hplaces : HasStagingPlaces u staging stage [first] :=
      hasStagingPlaces hlocate hdir (by simpa using hfits.zero_notMem)
    rcases stageOutput_ok hplaces hfree hstage with ⟨honly, hfreeRest, -⟩
    have hfitsRest := ih (honly.locate hlocate) (honly.isDirectory _ hdir) hfreeRest hrest
    intro i o ho
    cases i with
    | zero =>
      cases ho
      exact hfits
    | succ i =>
      have hindex : index + (i + 1) = index + 1 + i := by omega
      rw [hindex]
      exact hfitsRest i o ho

/-! ## Writing -/

/-- The staging directory for outputs of a directory is made at the location. -/
def Session.StagesAt (s : Session) (directory : Path) (stage : Location) : Prop :=
  ∃ staging, s.newDirectory? directory ".wasm-polish-" = .ok (staging, stage)

/-- A staging directory can be made, and the output written to it under its number. -/
def Session.CanStage (s : Session) (directory : Path) (index : Nat) (o : Output) : Prop :=
  ∃ t, Ends (Action.withDirectory (fun e => .artifact directory (.notStaged e)) directory
    ".wasm-polish-" fun staging => stageOutput staging index o) s (.ok ()) t

instance (s : Session) (directory : Path) (index : Nat) (o : Output) :
    Decidable (s.CanStage directory index o) :=
  decidable_of_iff (((Action.withDirectory (fun e => .artifact directory (.notStaged e)) directory
      ".wasm-polish-" fun staging => stageOutput staging index o).value? s).isSome = true) <| by
    constructor
    · intro h
      obtain ⟨⟨⟩, t, ht⟩ := Action.exists_ends_of_value? h
      exact ⟨t, ht⟩
    · rintro ⟨t, ht⟩
      rw [ht.value?_eq]
      rfl

/-- If nothing has changed outside of a new directory, nothing has changed when it is erased. -/
theorem sameTree_eraseTree (hnew : IsNewDirectory s staging stage)
    (houtside : ∀ k, ¬stage <+: k → u.store.entry? k = s.store.entry? k) :
    s.store.SameTree (u.store.eraseTree stage) := by
  intro k
  rw [Store.entry?_eraseTree hnew.ne_nil]
  split
  · next hk => rw [hnew.below k hk]
  · next hk => exact houtside k hk

/-- If an output cannot be staged, nothing is moved, and the file tree is left as it was. -/
theorem sameTree_of_not_canStage {r : Except Failure Unit} {i : Nat} (htree : s.store.IsTree)
    (ho : outputs[i]? = some o) (hstage : ¬s.CanStage directory i o)
    (h : Ends (writeOutputs directory outputs) s r t) :
    (∃ f, r = .error f) ∧ s.store.SameTree t.store := by
  unfold writeOutputs at h
  cases hmade : s.newDirectory? directory ".wasm-polish-" with
  | error cause =>
    rcases (ends_withDirectory_of_error hmade).mp h with ⟨rfl, rfl⟩
    exact ⟨⟨_, rfl⟩, .refl _⟩
  | ok made =>
    rcases made with ⟨staging, stage⟩
    have hnew := IsNewDirectory.of_newDirectory? htree hmade
    rcases (ends_withDirectory_of_ok hmade).mp h with ⟨inner, hinner, rfl⟩
    have hfree := fun j name (_ : 0 ≤ j) => hnew.entry?_inside (stagedName j name)
    rcases ends_bind.mp hinner with ⟨f, hfail, rfl⟩ | ⟨⟨⟩, u, hall, -⟩
    · rcases forOutputs_stageOutput hnew.located_withNew hnew.isDirectory_self hfree hfail
        with ⟨honly, -, -⟩
      refine ⟨⟨f, rfl⟩, sameTree_eraseTree hnew ?_⟩
      intro k hk
      rw [honly.outside hk, hnew.entry?_outside hk]
    · -- all outputs have been staged, so this one could be
      have hfits := fits_of_forOutputs hnew.located_withNew hnew.isDirectory_self hfree hall i o
        ho
      rw [Nat.zero_add] at hfits
      obtain ⟨u', hu'⟩ := (exists_stageOutput_ok_iff hnew.located_withNew hnew.isDirectory_self
        (hfree i _ (Nat.zero_le i))).mpr hfits
      exact absurd ⟨_, (ends_withDirectory_of_ok hmade).mpr ⟨u', hu', rfl⟩⟩ hstage

/-- Outputs that are staged and moved without a failure stand at their targets. -/
theorem areWritten_of_stageAndMove (hnew : IsNewDirectory s staging stage)
    (hfiles : s.AreDifferentFiles outputs)
    (hout : ∀ o ∈ outputs, ¬s.LeadsInto o.target stage)
    (h : Ends (do
      forOutputs (stageOutput staging) 0 outputs
      forOutputs (moveOutput staging) 0 outputs) (s.withNew stage) (.ok ()) u) :
    AreWritten s outputs (u.store.eraseTree stage) := by
  have hfree := fun j name (_ : 0 ≤ j) => hnew.entry?_inside (stagedName j name)
  rcases ends_bind_ok.mp h with ⟨⟨⟩, v, hstage, hmove⟩
  rcases forOutputs_stageOutput hnew.located_withNew hnew.isDirectory_self hfree hstage with
    ⟨honly, hstaged, -⟩
  have hzero : ∀ o ∈ outputs, '\x00' ∉ o.target.name.toList := by
    intro o ho
    obtain ⟨i, hi⟩ := List.getElem?_of_mem ho
    exact (fits_of_forOutputs hnew.located_withNew hnew.isDirectory_self hfree hstage i o
      hi).zero_notMem
  have hplaces : HasStagingPlaces v staging stage outputs :=
    (hasStagingPlaces hnew.located_withNew hnew.isDirectory_self hzero).of_isDirectory
      honly.directory honly.isDirectory
  have hsame : ∀ k, ¬stage <+: k → v.store.entry? k = s.store.entry? k := by
    intro k hk
    rw [honly.outside hk, hnew.entry?_outside hk]
  have hkeeps : s.KeepsDirectories stage v :=
    ⟨honly.directory, fun m hm => by rw [Store.isDirectory, hsame m hm, Store.isDirectory]⟩
  rcases forOutputs_moveOutput_ok hkeeps hplaces (hstaged rfl) hout hfiles hmove with
    ⟨hkeeps', hdelivered, hframe⟩
  have herase := Store.entry?_eraseTree (s := u.store) hnew.ne_nil
  have hdirs : ∀ k, (u.store.eraseTree stage).isDirectory k = s.store.isDirectory k := by
    intro k
    rw [Store.isDirectory, herase]
    split
    · next hk => rw [Store.isDirectory, hnew.below k hk]
    · next hk => exact hkeeps'.isDirectory k hk
  refine ⟨?_, ?_, hdirs⟩
  · intro o ho
    obtain ⟨k, hlocate, hentry⟩ := hdelivered o ho
    have hk := not_prefix_of_locate (hout o ho) hlocate
    have hlocate' := Store.locate_mono hlocate fun m hm => (hdirs m).trans hm
    rw [Store.read, Store.find_eq_ok_iff.mpr ⟨k, hlocate', by rw [herase, if_neg hk, hentry]⟩]
    rfl
  · intro k hne
    rw [herase]
    split
    · next hk => rw [hnew.below k hk]
    · next hk => rw [hframe k hk hne, hsame k hk]

/-- Writing outputs to targets that are different files delivers each of them: if it succeeds, each
target holds its own output and nothing else has changed, whatever the outputs are named and
wherever their targets are.  If an output cannot be staged, writing fails and nothing has changed.
In any case the staging directory is gone in the end.

The staging directory is a new one, with a name that nobody has chosen, so no target is meant to be
in it.  A store has no symbolic links, permissions or full disk: where a target is a link to a file,
or a directory refuses to be written to, nothing is said. -/
theorem writeOutputs_delivers {r : Except Failure Unit} (htree : s.store.IsTree)
    (hfiles : s.AreDifferentFiles outputs)
    (h : Ends (writeOutputs directory outputs) s r t) :
    ((∀ stage, s.StagesAt directory stage → ∀ o ∈ outputs, ¬s.LeadsInto o.target stage) →
      r = .ok () → AreWritten s outputs t.store) ∧
    (∀ stage, s.StagesAt directory stage → ∀ k, stage <+: k → t.store.entry? k = none) ∧
    ∀ i o, outputs[i]? = some o → ¬s.CanStage directory i o →
      (∃ f, r = .error f) ∧ s.store.SameTree t.store := by
  refine ⟨?_, ?_, fun i o ho hstage => sameTree_of_not_canStage htree ho hstage h⟩
  · rintro hout rfl
    unfold writeOutputs at h
    cases hmade : s.newDirectory? directory ".wasm-polish-" with
    | error cause => cases ((ends_withDirectory_of_error hmade).mp h).1
    | ok made =>
      rcases made with ⟨staging, stage⟩
      rcases (ends_withDirectory_of_ok hmade).mp h with ⟨inner, hinner, rfl⟩
      have hnew := IsNewDirectory.of_newDirectory? htree hmade
      exact areWritten_of_stageAndMove hnew hfiles (hout stage ⟨staging, hmade⟩) hinner
  · rintro stage ⟨staging, hmade⟩ k hk
    rcases (ends_withDirectory_of_ok hmade).mp h with ⟨inner, -, rfl⟩
    have hnew := IsNewDirectory.of_newDirectory? htree hmade
    rw [Store.entry?_eraseTree hnew.ne_nil, if_pos hk]

/-- A package with one directory in it. -/
def nestedSession : Session :=
  ⟨⟨[(["pkg"], .directory), (["pkg", "sub"], .directory), (["pkg", "a"], .file [1] true)]⟩,
    [], [], [], []⟩

/-- Outputs with the same name in two directories, and one that is named like a staged one. -/
def nestedOutputs : List Output :=
  [⟨⟨0, ["pkg", "a"]⟩, [2]⟩, ⟨⟨0, ["pkg", "sub", "a"]⟩, [3]⟩, ⟨⟨0, ["pkg", "0-a"]⟩, [4]⟩]

/-- Two outputs, the second one with a name that no file can have. -/
def unnamedOutputs : List Output :=
  [⟨⟨0, ["pkg", "a"]⟩, [2]⟩, ⟨⟨0, ["pkg", "b\x00"]⟩, [3]⟩]

/-- All of the first outputs are delivered; of the others none is, since one cannot be staged. -/
theorem writeOutputs_delivers_nested :
    (∃ t, Ends (writeOutputs ⟨0, ["pkg"]⟩ nestedOutputs) nestedSession (.ok ()) t ∧
      AreWritten nestedSession nestedOutputs t.store) ∧
    ∃ f t, Ends (writeOutputs ⟨0, ["pkg"]⟩ unnamedOutputs) nestedSession (.error f) t ∧
      nestedSession.store.SameTree t.store := by
  have htree : nestedSession.store.IsTree := by decide
  constructor
  · have hfiles : nestedSession.AreDifferentFiles nestedOutputs := .of_ne (by decide +kernel)
    have hout : ∀ stage, nestedSession.StagesAt ⟨0, ["pkg"]⟩ stage →
        ∀ o ∈ nestedOutputs, ¬nestedSession.LeadsInto o.target stage := by
      rintro stage ⟨staging, hstaging⟩
      have hmade : nestedSession.newDirectory? ⟨0, ["pkg"]⟩ ".wasm-polish-" =
          .ok (⟨0, ["pkg", ".wasm-polish-00000000"]⟩, ["pkg", ".wasm-polish-00000000"]) := by
        decide +kernel
      cases hmade.symm.trans hstaging
      decide +kernel
    obtain ⟨⟨⟩, t, h⟩ := Action.exists_ends_of_value? (x := writeOutputs ⟨0, ["pkg"]⟩ nestedOutputs)
      (s := nestedSession) (by decide +kernel)
    exact ⟨t, h, (writeOutputs_delivers htree hfiles h).1 hout rfl⟩
  · rcases hrun : (writeOutputs ⟨0, ["pkg"]⟩ unnamedOutputs).run.run nestedSession with ⟨r, t⟩
    have hfiles : nestedSession.AreDifferentFiles unnamedOutputs := .of_ne (by decide +kernel)
    have hstage : ¬nestedSession.CanStage ⟨0, ["pkg"]⟩ 1
        ⟨⟨0, ["pkg", "b\x00"]⟩, [3]⟩ := by decide +kernel
    obtain ⟨⟨f, rfl⟩, hsame⟩ :=
      (writeOutputs_delivers htree hfiles hrun).2.2 1 _ rfl hstage
    exact ⟨f, t, hrun, hsame⟩

end WasmPackage
