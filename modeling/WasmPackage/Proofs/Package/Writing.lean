import WasmPackage.Proofs.Package.Temporary

/-!
# What writing outputs does

Staging changes nothing outside the staging directory, and moving changes nothing there but the
places of the outputs that are moved.  So a run that writes outputs leaves the tree as it was but
for the places of those that it came to.
-/

namespace WasmPackage

open WasmPackage.Action (Ends ends_get_bind ends_bind ends_pure ends_ofStore_ok ends_ofStore_error
  ends_changeStore_ok ends_changeStore_error storeFailure storeFailure_of_ne)

variable {s t t' : Session} {staging : Path} {location parent k : Location} {index : Nat}
  {o : Output} {outputs : List Output} {r : Except Failure Unit}

/-! ## Entries after moves -/

/-- What stands at each location after some outputs have been moved to places in a directory. -/
def entriesAfter (parent : Location) (found : Location → Option Entry) :
    List Output → Location → Option Entry
  | [] => found
  | o :: r =>
    entriesAfter parent
      (fun k => if k = parent ++ [o.target.name] then some (.file o.content false) else found k) r

theorem entriesAfter_congr {f g : Location → Option Entry} (h : f k = g k) :
    entriesAfter parent f outputs k = entriesAfter parent g outputs k := by
  induction outputs generalizing f g with
  | nil => exact h
  | cons o r ih =>
    apply ih
    rw [h]

/-- Only the places of outputs change. -/
theorem entriesAfter_of_forall_ne {f : Location → Option Entry}
    (h : ∀ o ∈ outputs, k ≠ parent ++ [o.target.name]) : entriesAfter parent f outputs k = f k := by
  induction outputs generalizing f with
  | nil => rfl
  | cons o r ih =>
    rcases List.forall_mem_cons.mp h with ⟨ho, hr⟩
    rw [entriesAfter, ih hr, if_neg ho]

/-- Each output stands at its place in the end if no two have the same. -/
theorem entriesAfter_of_mem {f : Location → Option Entry}
    (hdistinct : (outputs.map (·.target.name)).Nodup) (ho : o ∈ outputs) :
    entriesAfter parent f outputs (parent ++ [o.target.name]) = some (.file o.content false) := by
  induction outputs generalizing f with
  | nil => cases ho
  | cons first r ih =>
    rw [List.map_cons, List.nodup_cons] at hdistinct
    rcases hdistinct with ⟨hfirst, hr⟩
    rw [entriesAfter]
    rcases List.mem_cons.mp ho with rfl | hin
    · -- the outputs that are moved later go to other places
      have hother : ∀ o' ∈ r, parent ++ [o.target.name] ≠ parent ++ [o'.target.name] := by
        intro o' ho' hsame
        apply hfirst
        have hname : o.target.name = o'.target.name := by simpa using hsame
        rw [hname]
        exact List.mem_map_of_mem ho'
      rw [entriesAfter_of_forall_ne hother, if_pos rfl]
    · exact ih hr hin

/-- A location has changed exactly if it is the place of an output that did not stand there. -/
theorem entriesAfter_eq_iff {f : Location → Option Entry}
    (hdistinct : (outputs.map (·.target.name)).Nodup) :
    entriesAfter parent f outputs k = f k ↔
      ∀ o ∈ outputs, parent ++ [o.target.name] = k → f k = some (.file o.content false) := by
  constructor
  · -- what stands at the place of an output in the end is that output
    rintro hsame o ho rfl
    rw [← hsame, entriesAfter_of_mem hdistinct ho]
  · intro hstood
    by_cases hplace : ∃ o ∈ outputs, parent ++ [o.target.name] = k
    · rcases hplace with ⟨o, ho, rfl⟩
      rw [entriesAfter_of_mem hdistinct ho, hstood o ho rfl]
    · apply entriesAfter_of_forall_ne
      rintro o ho rfl
      exact hplace ⟨o, ho, rfl⟩

/-! ## Staging -/

theorem append_stagedName_ne {i j : Nat} (hij : i ≠ j) (location : Location) (a b : String) :
    location ++ [stagedName i a] ≠ location ++ [stagedName j b] := by
  intro hsame
  have hnames : stagedName i a = stagedName j b := by simpa using hsame
  exact stagedName_ne hij a b hnames

/-- The outputs are staged, the first with number `index`. -/
def AreStaged (store : Store) (location : Location) : Nat → List Output → Prop
  | _, [] => True
  | index, o :: r =>
    store.entry? (location ++ [stagedName index o.target.name]) = some (.file o.content false) ∧
      AreStaged store location (index + 1) r

theorem AreStaged.congr {store store' : Store} (h : AreStaged store location index outputs)
    (hsame : ∀ i name, index ≤ i → store'.entry? (location ++ [stagedName i name]) =
      store.entry? (location ++ [stagedName i name])) :
    AreStaged store' location index outputs := by
  induction outputs generalizing index with
  | nil => trivial
  | cons o r ih =>
    rcases h with ⟨hfirst, hrest⟩
    refine ⟨?_, ih hrest ?_⟩
    · rw [hsame index _ (Nat.le_refl index), hfirst]
    · intro i name hi
      exact hsame i name (Nat.le_of_succ_le hi)

/-- Every output has a place in the staging directory, whatever its number is. -/
def HasStagingPlaces (t : Session) (staging : Path) (location : Location)
    (outputs : List Output) : Prop :=
  ∀ i, ∀ o ∈ outputs, t.store.IsPlace t.directory (stagedPath staging i o) location ∧
    (stagedPath staging i o).name = stagedName i o.target.name

/-- A staged output that is found is found at its place. -/
theorem HasStagingPlaces.eq_of_locate {source : Location}
    (h : HasStagingPlaces t staging location [o])
    (hlocate : t.store.locate t.directory (stagedPath staging index o) = .ok source) :
    source = location ++ [stagedName index o.target.name] := by
  rcases h index o (List.mem_singleton_self o) with ⟨hplace, hname⟩
  rw [hplace.locate, hname] at hlocate
  split at hlocate
  · cases hlocate
  · cases hlocate
    rfl

theorem HasStagingPlaces.head (h : HasStagingPlaces t staging location (o :: outputs)) :
    HasStagingPlaces t staging location [o] := by
  intro i o' ho'
  rw [List.mem_singleton.mp ho']
  exact h i o List.mem_cons_self

theorem HasStagingPlaces.tail (h : HasStagingPlaces t staging location (o :: outputs)) :
    HasStagingPlaces t staging location outputs :=
  fun i o' ho' => h i o' (List.mem_cons_of_mem o ho')

theorem HasStagingPlaces.of_isDirectory (h : HasStagingPlaces t staging location outputs)
    (hdirectory : t'.directory = t.directory)
    (hdirs : ∀ m, t.store.isDirectory m = true → t'.store.isDirectory m = true) :
    HasStagingPlaces t' staging location outputs := by
  intro i o ho
  rcases h i o ho with ⟨hplace, hname⟩
  rw [hdirectory]
  exact ⟨hplace.mono hdirs, hname⟩

/-- A directory that is there has staging places for all outputs whose names files can have. -/
theorem hasStagingPlaces (hlocate : t.store.locate t.directory staging = .ok location)
    (hdir : t.store.isDirectory location = true)
    (hzero : ∀ o ∈ outputs, '\x00' ∉ o.target.name.toList) :
    HasStagingPlaces t staging location outputs := by
  intro i o ho
  have hplain := isPlain_stagedName i o.target
  rw [stagedPath_eq]
  constructor
  · apply Store.isPlace_child hlocate hdir hplain
    exact notMem_stagedName (by decide) (by decide) (hzero o ho)
  · exact Path.name_child staging hplain

/-- An output that is staged has a name that a file can have. -/
theorem zero_notMem_of_stageOutput (h : Ends (stageOutput staging index o) t (.ok ()) t') :
    '\x00' ∉ o.target.name.toList := by
  unfold stageOutput at h
  rw [ends_get_bind] at h
  rcases ends_changeStore_ok.mp h with ⟨store, hwrite, -⟩
  obtain ⟨place, hlocate⟩ := Store.exists_locate_of_write hwrite
  have hnames := Store.hasZero_eq_false_iff.mp (Store.hasZero_eq_false_of_locate hlocate)
  rw [stagedPath_eq, Path.parts_child_of_isPlain _ (isPlain_stagedName index o.target)] at hnames
  have hname := hnames (stagedName index o.target.name) (by simp)
  intro hzero
  exact hname (by simp [stagedName, hzero])

/-- The failure has nothing to do with an output that cannot be moved to its place. -/
def IsBeforeMoves (f : Failure) : Prop :=
  ∀ p e, f ≠ .artifact p (.notReplaced e)

theorem isBeforeMoves_storeFailure {failure : StoreError → Failure}
    (h : ∀ cause, IsBeforeMoves (failure cause)) (cause : StoreError) :
    IsBeforeMoves (storeFailure failure cause) := by
  unfold storeFailure
  split
  · intro p e hstore
    cases hstore
  · exact h cause

/-- All that staging outputs with numbers from `index` on may change: their own files. -/
structure StagesOnly (t t' : Session) (location : Location) (index : Nat) : Prop where
  directory : t'.directory = t.directory
  others : ∀ k, (∀ i name, index ≤ i → k ≠ location ++ [stagedName i name]) →
    t'.store.entry? k = t.store.entry? k
  isDirectory : ∀ m, t.store.isDirectory m = true → t'.store.isDirectory m = true

theorem StagesOnly.refl (t : Session) : StagesOnly t t location index :=
  ⟨rfl, fun _ _ => rfl, fun _ hm => hm⟩

theorem StagesOnly.trans {u : Session} (htu : StagesOnly t u location index)
    (hut : StagesOnly u t' location (index + 1)) : StagesOnly t t' location index := by
  refine ⟨hut.directory.trans htu.directory, ?_,
    fun m hm => hut.isDirectory m (htu.isDirectory m hm)⟩
  intro k hk
  rw [hut.others k (fun i name hi => hk i name (Nat.le_of_succ_le hi)), htu.others k hk]

/-- Outside of the staging directory nothing changes. -/
theorem StagesOnly.outside (h : StagesOnly t t' location index) (hk : ¬location <+: k) :
    t'.store.entry? k = t.store.entry? k := by
  apply h.others
  rintro i name - rfl
  exact hk (List.prefix_append _ _)

theorem StagesOnly.locate (h : StagesOnly t t' location index)
    (hlocate : t.store.locate t.directory staging = .ok location) :
    t'.store.locate t'.directory staging = .ok location := by
  rw [h.directory]
  exact Store.locate_mono hlocate h.isDirectory

/-- A staged output is a file of its own in the staging directory. -/
theorem stageOutput_ok (hplaces : HasStagingPlaces t staging location [o])
    (hfree : ∀ i name, index ≤ i → t.store.entry? (location ++ [stagedName i name]) = none)
    (h : Ends (stageOutput staging index o) t (.ok ()) t') :
    StagesOnly t t' location index ∧
      (∀ i name, index + 1 ≤ i → t'.store.entry? (location ++ [stagedName i name]) = none) ∧
      t'.store.entry? (location ++ [stagedName index o.target.name]) =
        some (.file o.content false) := by
  rcases hplaces index o (List.mem_singleton_self o) with ⟨hplace, hname⟩
  have hown := hfree index o.target.name (Nat.le_refl index)
  unfold stageOutput at h
  rw [ends_get_bind] at h
  rcases ends_changeStore_ok.mp h with ⟨store, hwrite, rfl⟩
  rw [hplace.write (by rw [hname, hown]), hname] at hwrite
  split at hwrite
  · cases hwrite
  cases hwrite
  have hput := fun k => Store.entry?_put (s := t.store) (e := .file o.content false)
    (l := location ++ [stagedName index o.target.name]) (by simp) k
  -- nothing stood at the place of the staged output, so no directory was lost there
  refine ⟨⟨rfl, ?_, ?_⟩, ?_, ?_⟩
  · intro k hk
    rw [hput, if_neg (hk index o.target.name (Nat.le_refl index))]
  · intro m hm
    rw [Store.isDirectory_iff] at hm ⊢
    rw [hput, if_neg, hm]
    rintro rfl
    rw [hown] at hm
    cases hm
  · intro i name hi
    rw [hput, if_neg (append_stagedName_ne (Nat.ne_of_gt hi) _ _ _)]
    exact hfree i name (Nat.le_of_succ_le hi)
  · rw [hput, if_pos rfl]

theorem stageOutput_error {f : Failure} (h : Ends (stageOutput staging index o) t (.error f) t') :
    t' = t ∧ IsBeforeMoves f := by
  unfold stageOutput at h
  rw [ends_get_bind] at h
  rcases ends_changeStore_error.mp h with ⟨cause, -, rfl, rfl⟩
  refine ⟨rfl, isBeforeMoves_storeFailure ?_ cause⟩
  intro cause p e hwritten
  cases hwritten

/-- Staging goes on to the last output, or fails with one of them; in any case nothing but what is
staged has changed. -/
theorem forOutputs_stageOutput (hlocate : t.store.locate t.directory staging = .ok location)
    (hdir : t.store.isDirectory location = true)
    (hfree : ∀ i name, index ≤ i → t.store.entry? (location ++ [stagedName i name]) = none)
    (h : Ends (forOutputs (stageOutput staging) index outputs) t r t') :
    StagesOnly t t' location index ∧
      (r = .ok () → AreStaged t'.store location index outputs) ∧
      (∀ f, r = .error f → IsBeforeMoves f) := by
  -- on the outputs: nothing is staged yet under this number or a later one
  induction outputs generalizing index t with
  | nil =>
    rcases ends_pure.mp h with ⟨rfl, rfl⟩
    refine ⟨.refl t', fun _ => trivial, ?_⟩
    intro f hf
    cases hf
  | cons o rest ih =>
    unfold forOutputs at h
    rcases ends_bind.mp h with ⟨f, hstage, rfl⟩ | ⟨⟨⟩, u, hstage, hrest⟩
    · rcases stageOutput_error hstage with ⟨rfl, hbefore⟩
      refine ⟨.refl t', ?_, ?_⟩
      · intro hok
        cases hok
      · intro f' hf'
        cases hf'
        exact hbefore
    · have hplaces : HasStagingPlaces t staging location [o] :=
        hasStagingPlaces hlocate hdir (by simpa using zero_notMem_of_stageOutput hstage)
      rcases stageOutput_ok hplaces hfree hstage with ⟨honly, hfreeRest, hown⟩
      rcases ih (honly.locate hlocate) (honly.isDirectory _ hdir) hfreeRest hrest with
        ⟨honlyRest, hstaged, hbefore⟩
      refine ⟨honly.trans honlyRest, ?_, hbefore⟩
      intro hok
      refine ⟨?_, hstaged hok⟩
      -- the outputs behind this one have other numbers
      rw [honlyRest.others, hown]
      intro i name hi
      exact append_stagedName_ne (Nat.ne_of_lt hi) _ _ _

/-! ## Moving -/

/-- The store with a staged file at its place. -/
def movedStore (s : Store) (source place : Location) (content : Bytes) : Store :=
  (s.erase source).put place (.file content false)

theorem entry?_movedStore {s : Store} {source place : Location} (hsource : source ≠ [])
    (hplace : place ≠ []) (content : Bytes) (k : Location) :
    Store.entry? (movedStore s source place content) k =
      if k = place then some (.file content false)
      else if k = source then none
      else s.entry? k := by
  rw [movedStore, Store.entry?_put hplace, Store.entry?_erase hsource]

/-- Neither the file that is moved nor what it replaces is a directory. -/
theorem isDirectory_movedStore {s : Store} {source place : Location} {content : Bytes}
    (hfile : s.isDirectory source = false) (hfree : s.isDirectory place = false)
    (hk : s.isDirectory k = true) : (movedStore s source place content).isDirectory k = true := by
  have hentry := Store.isDirectory_iff.mp hk
  rw [Store.isDirectory_iff, entry?_movedStore (Store.ne_nil_of_isDirectory hfile)
    (Store.ne_nil_of_isDirectory hfree), if_neg, if_neg, hentry]
  · rintro rfl
    simp [hfile] at hk
  · rintro rfl
    simp [hfree] at hk

/-- The outputs behind one that is moved stay staged. -/
theorem AreStaged.movedStore {store : Store} {name : String} {place : Location}
    (h : AreStaged store location (index + 1) outputs) (hplace : place ≠ [])
    (hout : ¬location <+: place) (content : Bytes) :
    AreStaged (movedStore store (location ++ [stagedName index name]) place content)
      location (index + 1) outputs := by
  apply h.congr
  intro i name' hi
  have hplaceNe : location ++ [stagedName i name'] ≠ place := by
    rintro rfl
    exact hout (List.prefix_append _ _)
  rw [entry?_movedStore (by simp) hplace, if_neg hplaceNe,
    if_neg (append_stagedName_ne (Nat.ne_of_gt hi) _ _ _)]

/-- A staged output is moved to its place, or nothing has happened. -/
theorem moveOutput_cases (hplaces : HasStagingPlaces t staging location [o])
    (htarget : t.store.IsPlace t.directory o.target parent)
    (hsource : t.store.entry? (location ++ [stagedName index o.target.name]) =
      some (.file o.content false))
    (h : Ends (moveOutput staging index o) t r t') :
    (∃ e, r = .error (.artifact o.target (.notReplaced e)) ∧ t' = t) ∨
      r = .ok () ∧ o.target.isTooLong = false ∧
        t.store.isDirectory (parent ++ [o.target.name]) = false ∧
        t' = { t with
          store := movedStore t.store (location ++ [stagedName index o.target.name])
            (parent ++ [o.target.name]) o.content } := by
  have hplace := (hplaces index o (List.mem_singleton_self o)).1
  unfold moveOutput at h
  rw [ends_get_bind] at h
  -- the staged file is looked up first, and found unless its path is too long
  rcases ends_bind.mp h with ⟨f, hlocate, rfl⟩ | ⟨source, u, hlocate, hmove⟩
  · rcases ends_ofStore_error.mp hlocate with ⟨cause, hcause, rfl, rfl⟩
    rw [hplace.locate] at hcause
    split at hcause
    · cases hcause
      exact Or.inl ⟨.nameTooLong, by rw [storeFailure_of_ne (by decide)], rfl⟩
    · cases hcause
  rcases ends_ofStore_ok.mp hlocate with ⟨hlocated, rfl⟩
  rw [hplaces.eq_of_locate hlocated] at hmove
  have hmoveTo := htarget.moveTo hsource
  -- then only the place of the output decides
  by_cases hlong : o.target.isTooLong = true
  · rw [if_pos hlong] at hmoveTo
    rcases hmove.changeStore_of_error hmoveTo with ⟨rfl, rfl⟩
    exact Or.inl ⟨.nameTooLong, by rw [storeFailure_of_ne (by decide)], rfl⟩
  rw [if_neg hlong] at hmoveTo
  by_cases hdir : u.store.isDirectory (parent ++ [o.target.name]) = true
  · rw [if_pos hdir] at hmoveTo
    rcases hmove.changeStore_of_error hmoveTo with ⟨rfl, rfl⟩
    exact Or.inl ⟨.isDirectory, by rw [storeFailure_of_ne (by decide)], rfl⟩
  · rw [if_neg hdir] at hmoveTo
    rcases hmove.changeStore_of_ok hmoveTo with ⟨rfl, rfl⟩
    exact Or.inr ⟨rfl, by simpa using hlong, by simpa using hdir, rfl⟩

/-- How far a run came that moved outputs: to the end, or to one that could not be moved. -/
inductive CameTo (outputs : List Output) : Except Failure Unit → List Output → Prop
  | done : CameTo outputs (.ok ()) outputs
  | stopped {moved after : List Output} {o : Output} {e : StoreError} :
    outputs = moved ++ o :: after →
      CameTo outputs (.error (.artifact o.target (.notReplaced e))) moved

theorem CameTo.cons {moved : List Output} (h : CameTo outputs r moved) (o : Output) :
    CameTo (o :: outputs) r (o :: moved) := by
  cases h with
  | done => exact .done
  | stopped hsplit =>
    apply CameTo.stopped
    rw [hsplit]
    rfl

/-- The output can be moved to its place in a directory: its path is short enough, and no directory
stands there. -/
structure CanBeMoved (s : Store) (parent : Location) (o : Output) : Prop where
  short : o.target.isTooLong = false
  free : s.isDirectory (parent ++ [o.target.name]) = false

theorem CanBeMoved.of_isDirectory {store store' : Store} (h : CanBeMoved store' parent o)
    (hdirs : ∀ m, store.isDirectory m = true → store'.isDirectory m = true) :
    CanBeMoved store parent o := by
  refine ⟨h.short, ?_⟩
  rw [Bool.eq_false_iff]
  intro hdir
  have hfree := h.free
  rw [hdirs _ hdir] at hfree
  cases hfree

/-- Outside the staging directory, moving changes the places of the outputs that are moved, and
these are the outputs before the one that it fails with. -/
theorem forOutputs_moveOutput (hplaces : HasStagingPlaces t staging location outputs)
    (htargets : ∀ o ∈ outputs, t.store.IsPlace t.directory o.target parent)
    (houtside : ∀ o ∈ outputs, ¬location <+: parent ++ [o.target.name])
    (hstaged : AreStaged t.store location index outputs)
    (h : Ends (forOutputs (moveOutput staging) index outputs) t r t') :
    ∃ moved, CameTo outputs r moved ∧ (∀ o ∈ moved, CanBeMoved t.store parent o) ∧
      ∀ k, ¬location <+: k → t'.store.entry? k = entriesAfter parent t.store.entry? moved k := by
  -- on the outputs: the directories stay, and the outputs still to be moved stay staged
  induction outputs generalizing index t with
  | nil =>
    rcases ends_pure.mp h with ⟨rfl, rfl⟩
    exact ⟨[], .done, by simp, fun k _ => rfl⟩
  | cons o rest ih =>
    rcases hstaged with ⟨hsource, hstagedRest⟩
    rcases List.forall_mem_cons.mp htargets with ⟨htarget, htargetsRest⟩
    rcases List.forall_mem_cons.mp houtside with ⟨hout, houtsideRest⟩
    have hplace := hplaces.head
    unfold forOutputs at h
    rcases ends_bind.mp h with ⟨f, hmove, rfl⟩ | ⟨⟨⟩, u, hmove, hrest⟩
    · rcases moveOutput_cases hplace htarget hsource hmove with ⟨e, hf, rfl⟩ | ⟨hok, -⟩
      · cases hf
        exact ⟨[], .stopped rfl, by simp, fun k _ => rfl⟩
      · cases hok
    rcases moveOutput_cases hplace htarget hsource hmove with ⟨e, hf, -⟩ | ⟨-, hshort, hfree, rfl⟩
    · cases hf
    have hfile : t.store.isDirectory (location ++ [stagedName index o.target.name]) = false := by
      simp [Store.isDirectory, hsource]
    have hdirs : ∀ m, t.store.isDirectory m = true →
        (movedStore t.store (location ++ [stagedName index o.target.name])
          (parent ++ [o.target.name]) o.content).isDirectory m = true :=
      fun _ hm => isDirectory_movedStore hfile hfree hm
    have hplacesRest : HasStagingPlaces { t with
        store := movedStore t.store (location ++ [stagedName index o.target.name])
          (parent ++ [o.target.name]) o.content } staging location rest :=
      hplaces.tail.of_isDirectory rfl hdirs
    have htargetsRest' := fun o' ho' => (htargetsRest o' ho').mono hdirs
    obtain ⟨moved, hcame, hmovedRest, hframe⟩ := ih hplacesRest htargetsRest' houtsideRest
      (hstagedRest.movedStore (by simp) hout o.content) hrest
    have hmoved : ∀ o' ∈ moved, CanBeMoved t.store parent o' :=
      fun o' ho' => (hmovedRest o' ho').of_isDirectory hdirs
    refine ⟨o :: moved, hcame.cons o, List.forall_mem_cons.mpr ⟨⟨hshort, hfree⟩, hmoved⟩, ?_⟩
    intro k hk
    rw [hframe k hk, entriesAfter]
    apply entriesAfter_congr
    -- what is outside has not been a staged file
    have hsourceNe : k ≠ location ++ [stagedName index o.target.name] := by
      rintro rfl
      exact hk (List.prefix_append _ _)
    rw [entry?_movedStore (by simp) (by simp), if_neg hsourceNe]

/-! ## Writing -/

/-- No output has its place in a new staging directory, or is that directory. -/
theorem not_prefix_of_isNewDirectory {directory : Path} {parentAt : Location}
    (hnew : IsNewDirectory s (directory.child (s.store.freshName parentAt ".wasm-polish-"))
      location)
    (htarget : s.store.IsPlace s.directory o.target parent)
    (hname : s.store.freshName parentAt ".wasm-polish-" ≠ o.target.name) :
    ¬location <+: parent ++ [o.target.name] := by
  intro hprefix
  rcases List.prefix_concat_iff.mp hprefix with hsame | hprefix
  · -- both are found in a directory, under names that differ
    have hplain := s.store.isPlain_stagingName parentAt
    have hlast := Path.name_child directory hplain
    have hlocate := hnew.located
    rcases Store.exists_isPlace_of_locate (by rw [hlast]; exact hplain) hlocate with ⟨at', hplace⟩
    rw [hplace.locate, hlast] at hlocate
    split at hlocate
    · cases hlocate
    · cases hlocate
      have hnames := List.append_inj_right' hsame rfl
      exact hname (List.singleton_inj.mp hnames)
  · -- the directory of the output is there, and the staging directory is not
    have hdir := htarget.isDirectory
    rw [Store.isDirectory_iff, hnew.below _ hprefix] at hdir
    cases hdir

/-- How a run that writes outputs ends, and which outputs it has moved by then. -/
inductive Wrote (outputs : List Output) : Except Failure Unit → List Output → Prop
  | moved {r : Except Failure Unit} {moved : List Output} :
    CameTo outputs r moved → Wrote outputs r moved
  | notMoved {f : Failure} : IsBeforeMoves f → Wrote outputs (.error f) []

theorem Wrote.subset {moved : List Output} (h : Wrote outputs r moved) (ho : o ∈ moved) :
    o ∈ outputs := by
  cases h with
  | notMoved _ => cases ho
  | moved hcame =>
    cases hcame with
    | done => exact ho
    | stopped hsplit =>
      rw [hsplit]
      exact List.mem_append_left _ ho

/-- In a new staging directory outputs are staged and moved; outside of it, nothing changes but the
places of those that are moved. -/
theorem stageAndMove_ends (hnew : IsNewDirectory s staging location)
    (htargets : ∀ o ∈ outputs, s.store.IsPlace s.directory o.target parent)
    (houtside : ∀ o ∈ outputs, ¬location <+: parent ++ [o.target.name])
    (h : Ends (do
      forOutputs (stageOutput staging) 0 outputs
      forOutputs (moveOutput staging) 0 outputs) (s.withNew location) r t) :
    ∃ moved, Wrote outputs r moved ∧ (∀ o ∈ moved, CanBeMoved s.store parent o) ∧
      ∀ k, ¬location <+: k → t.store.entry? k = entriesAfter parent s.store.entry? moved k := by
  have htargetsNew : ∀ o ∈ outputs,
      (s.withNew location).store.IsPlace (s.withNew location).directory o.target parent :=
    fun o ho => (htargets o ho).mono fun _ hm => hnew.isDirectory_withNew hm
  have hplaces := hasStagingPlaces hnew.located_withNew hnew.isDirectory_self
    (fun o ho => (htargets o ho).zero_notMem)
  have hfree := fun i name (_ : 0 ≤ i) => hnew.entry?_inside (stagedName i name)
  -- if staging fails nothing has been moved, and what is staged is inside the directory
  rcases ends_bind.mp h with ⟨f, hstage, rfl⟩ | ⟨⟨⟩, u, hstage, hmove⟩
  · rcases forOutputs_stageOutput hnew.located_withNew hnew.isDirectory_self hfree hstage
      with ⟨honly, -, hbefore⟩
    refine ⟨[], .notMoved (hbefore f rfl), by simp, ?_⟩
    intro k hk
    rw [honly.outside hk, hnew.entry?_outside hk, entriesAfter]
  · rcases forOutputs_stageOutput hnew.located_withNew hnew.isDirectory_self hfree hstage
      with ⟨honly, hstaged, -⟩
    have hplacesStaged := hplaces.of_isDirectory honly.directory honly.isDirectory
    have htargetsStaged : ∀ o ∈ outputs, u.store.IsPlace u.directory o.target parent := by
      intro o ho
      rw [honly.directory]
      exact (htargetsNew o ho).mono honly.isDirectory
    obtain ⟨moved, hcame, hmoved, hframe⟩ :=
      forOutputs_moveOutput hplacesStaged htargetsStaged houtside (hstaged rfl) hmove
    have hdirs : ∀ m, s.store.isDirectory m = true → u.store.isDirectory m = true :=
      fun m hm => honly.isDirectory m (hnew.isDirectory_withNew hm)
    refine ⟨moved, .moved hcame, fun o ho => (hmoved o ho).of_isDirectory hdirs, ?_⟩
    intro k hk
    rw [hframe k hk]
    apply entriesAfter_congr
    rw [honly.outside hk, hnew.entry?_outside hk]

/-- Writing changes the places of the outputs that are moved and nothing else. -/
theorem writeOutputs_ends {directory : Path} (htree : s.store.IsTree)
    (htargets : ∀ o ∈ outputs, s.store.IsPlace s.directory o.target parent)
    (hnames : ∀ o ∈ outputs, ∀ l, s.store.freshName l ".wasm-polish-" ≠ o.target.name)
    (h : Ends (writeOutputs directory outputs) s r t) :
    ∃ moved, Wrote outputs r moved ∧ (∀ o ∈ moved, CanBeMoved s.store parent o) ∧
      ∀ k, t.store.entry? k = entriesAfter parent s.store.entry? moved k := by
  rcases withDirectory_ends htree h with ⟨cause, rfl, rfl⟩ |
    ⟨parentAt, location, inner, hnew, hinner, -, -, hbelow, hother⟩
  · refine ⟨[], .notMoved (isBeforeMoves_storeFailure ?_ cause), by simp, fun k => rfl⟩
    intro cause p e hstaged
    cases hstaged
  have houtside : ∀ o ∈ outputs, ¬location <+: parent ++ [o.target.name] :=
    fun o ho => not_prefix_of_isNewDirectory hnew (htargets o ho) (hnames o ho parentAt)
  rcases stageAndMove_ends hnew htargets houtside hinner with ⟨moved, hwrote, hmoved, hframe⟩
  refine ⟨moved, hwrote, hmoved, ?_⟩
  intro k
  -- the staging directory is gone in the end, and no output was moved into it
  by_cases hk : location <+: k
  · rw [hbelow k hk, entriesAfter_of_forall_ne]
    rintro o ho rfl
    exact houtside o (hwrote.subset ho) hk
  · rw [hother k hk, hframe k hk]

end WasmPackage
