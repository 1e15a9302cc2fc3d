import WasmPackage.Project.Config
import WasmPackage.Proofs.Bindings.Extensions

/-!
# How configurations are read

A configuration is read, or refused with a word about the setting that is wrong.  What keeps it
from either is known: tables that are none, a crate's name that is no text, authors and counts that
cannot be written, and a directory with the character zero in its name.
-/

namespace WasmPackage

open Bindings (bind_ok_iff exists_eq_ok_of_isOk mapError_ok_iff)

variable {α β : Type} {manifest settings : Table String} {npm crate : Table CodeText}
  {description : Value CodeText} {root : Path} {overrides : Overrides} {room : Nat} {c : Config}

/-! ## Failures -/

/-- Is the failure a refusal of the configuration? -/
def ProjectError.IsConfig (e : ProjectError) : Prop :=
  ∃ cause, e = .config cause

/-- If the reader fails, it refuses the configuration. -/
def FailsAsConfig (x : Except ProjectError α) : Prop :=
  ∀ e, x = .error e → e.IsConfig

theorem failsAsConfig_ok (a : α) : FailsAsConfig (.ok a : Except ProjectError α) :=
  nofun

theorem failsAsConfig_error_iff {e : ProjectError} :
    FailsAsConfig (.error e : Except ProjectError α) ↔ e.IsConfig := by
  constructor
  · exact fun h => h e rfl
  · rintro h e' ⟨⟩
    exact h

instance (x : Except ProjectError α) : Decidable (FailsAsConfig x) :=
  match x with
  | .ok a => isTrue (failsAsConfig_ok a)
  | .error (.config cause) => isTrue (failsAsConfig_error_iff.mpr ⟨cause, rfl⟩)
  | .error (.generator _) | .error (.shape _) | .error (.undecodable _) | .error (.numeral _)
  | .error .tooDeep | .error (.store _) =>
    isFalse fun h => by
      rcases failsAsConfig_error_iff.mp h with ⟨cause, ⟨⟩⟩

theorem failsAsConfig_bind_iff {x : Except ProjectError α} {f : α → Except ProjectError β} :
    FailsAsConfig (x >>= f) ↔ FailsAsConfig x ∧ ∀ a, x = .ok a → FailsAsConfig (f a) := by
  cases x with
  | error e =>
    have hbind : ((.error e : Except ProjectError α) >>= f) = .error e := rfl
    rw [hbind, failsAsConfig_error_iff, failsAsConfig_error_iff]
    exact ⟨fun h => ⟨h, nofun⟩, fun h => h.1⟩
  | ok a =>
    have hbind : ((.ok a : Except ProjectError α) >>= f) = f a := rfl
    rw [hbind]
    constructor
    · rintro h
      refine ⟨failsAsConfig_ok a, ?_⟩
      rintro _ ⟨⟩
      exact h
    · exact fun h => h.2 a rfl

theorem failsAsConfig_mapError (x : Except SettingError α) :
    FailsAsConfig (x.mapError .config) := by
  cases x with
  | error e => exact failsAsConfig_error_iff.mpr ⟨e, rfl⟩
  | ok a => exact failsAsConfig_ok a

theorem failsAsConfig_mapError_shape_iff {x : Except ShapeError α} :
    FailsAsConfig (x.mapError .shape) ↔ ∃ a, x = .ok a := by
  cases x with
  | error e =>
    apply iff_of_false
    · intro h
      rcases h _ rfl with ⟨cause, hcause⟩
      cases hcause
    · rintro ⟨a, ⟨⟩⟩
  | ok a => exact iff_of_true (failsAsConfig_ok a) ⟨a, rfl⟩

/-- The reader succeeds exactly under a condition; where it fails, it does not refuse the
configuration. -/
def SucceedsIf (x : Except ProjectError α) (p : Prop) : Prop :=
  (p ∧ ∃ a, x = .ok a) ∨ (¬p ∧ ∃ e, x = .error e ∧ ¬e.IsConfig)

theorem succeedsIf_ok {a : α} {p : Prop} (hp : p) :
    SucceedsIf (.ok a : Except ProjectError α) p :=
  Or.inl ⟨hp, a, rfl⟩

theorem succeedsIf_error {e : ProjectError} {p : Prop} (hp : ¬p) (he : ¬e.IsConfig) :
    SucceedsIf (.error e : Except ProjectError α) p :=
  Or.inr ⟨hp, e, rfl, he⟩

theorem SucceedsIf.failsAsConfig_iff {x : Except ProjectError α} {p : Prop} (h : SucceedsIf x p) :
    FailsAsConfig x ↔ p := by
  rcases h with ⟨hp, a, rfl⟩ | ⟨hp, e, rfl, he⟩
  · exact iff_of_true (failsAsConfig_ok a) hp
  · exact iff_of_false (fun h => he (failsAsConfig_error_iff.mp h)) hp

/-- A condition on the rest that does not depend on what was read before. -/
theorem SucceedsIf.bind_const {x : Except ProjectError α} {f : α → Except ProjectError β}
    {p q : Prop} (hx : SucceedsIf x p) (hf : ∀ a, SucceedsIf (f a) q) :
    SucceedsIf (x >>= f) (p ∧ q) := by
  rcases hx with ⟨hp, a, rfl⟩ | ⟨hp, e, rfl, he⟩
  · rcases hf a with ⟨hq, b, hb⟩ | ⟨hq, e, hfail, he⟩
    · exact Or.inl ⟨⟨hp, hq⟩, b, hb⟩
    · exact Or.inr ⟨fun h => hq h.2, e, hfail, he⟩
  · exact Or.inr ⟨fun h => hp h.1, e, rfl, he⟩

/-- What is done with what was read does not fail. -/
theorem SucceedsIf.bind_ok {x : Except ProjectError α} {f : α → Except ProjectError β} {p : Prop}
    (hx : SucceedsIf x p) (hf : ∀ a, ∃ b, f a = .ok b) : SucceedsIf (x >>= f) p := by
  rcases hx with ⟨hp, a, rfl⟩ | ⟨hp, e, rfl, he⟩
  · exact Or.inl ⟨hp, hf a⟩
  · exact Or.inr ⟨hp, e, rfl, he⟩

theorem not_isConfig_ofWriting (e : WritingError) : ¬(ProjectError.ofWriting e).IsConfig := by
  rintro ⟨cause, hcause⟩
  cases e <;> cases hcause

/-! ## Tables -/

/-- The package of a manifest, and what it says about itself, are tables where they are given. -/
structure HasTables (manifest : Table String) : Prop where
  package : ∀ v, manifest.lookup "package" = some v → ∃ entries, v = .table entries
  metadata : ∀ entries v, manifest.lookup "package" = some (.table entries) →
    entries.lookup "metadata" = some v → ∃ entries, v = .table entries

theorem entry_eq_ok_iff {v w default : Value String} {key : String} :
    v.entry key default = .ok w ↔
      ∃ entries, v = .table entries ∧ w = (entries.lookup key).getD default := by
  cases v <;> simp [Value.entry, eq_comm]

/-- A key of a key is found if both values that it is looked up in are tables. -/
theorem entry_bind_eq_ok_iff {v w default : Value String} {key inner : String} :
    (v.entry key default >>= fun m => m.entry inner default) = .ok w ↔
      ∃ entries, v = .table entries ∧ ∃ entries', (entries.lookup key).getD default =
        .table entries' ∧ w = (entries'.lookup inner).getD default := by
  cases hv : v.entry key default with
  | error e =>
    apply iff_of_false
    · nofun
    · rintro ⟨entries, rfl, -⟩
      cases hv
  | ok m =>
    rcases entry_eq_ok_iff.mp hv with ⟨entries, rfl, rfl⟩
    have hbind : (Except.ok ((entries.lookup key).getD default) >>= fun m =>
        m.entry inner default) = ((entries.lookup key).getD default).entry inner default := rfl
    rw [hbind, entry_eq_ok_iff]
    constructor
    · rintro ⟨entries', htable, rfl⟩
      exact ⟨entries, rfl, entries', htable, rfl⟩
    · rintro ⟨_, ⟨⟩, entries', htable, rfl⟩
      exact ⟨entries', htable, rfl⟩

theorem hasTables_iff : HasTables manifest ↔
    ∃ entries, (manifest.lookup "package").getD (.table []) = .table entries ∧
      ∃ entries', (entries.lookup "metadata").getD (.table []) = .table entries' := by
  constructor
  · rintro ⟨hpackage, hmetadata⟩
    cases hp : manifest.lookup "package" with
    | none => exact ⟨[], rfl, [], rfl⟩
    | some p =>
      rcases hpackage p hp with ⟨entries, rfl⟩
      refine ⟨entries, rfl, ?_⟩
      cases hm : entries.lookup "metadata" with
      | none => exact ⟨[], rfl⟩
      | some m =>
        rcases hmetadata entries m hp hm with ⟨entries', rfl⟩
        exact ⟨entries', rfl⟩
  · rintro ⟨entries, hpackage, entries', hmetadata⟩
    constructor
    · intro v hv
      rw [hv] at hpackage
      exact ⟨entries, hpackage⟩
    · intro inner v hp hm
      rw [hp] at hpackage
      cases hpackage
      rw [hm] at hmetadata
      exact ⟨entries', hmetadata⟩

theorem settingsOf_failsAsConfig_iff :
    FailsAsConfig (settingsOf manifest) ↔ HasTables manifest := by
  unfold settingsOf
  rw [failsAsConfig_bind_iff, failsAsConfig_mapError_shape_iff, hasTables_iff]
  constructor
  · rintro ⟨⟨v, hfound⟩, -⟩
    rcases entry_bind_eq_ok_iff.mp hfound with ⟨entries, hpackage, entries', hmetadata, -⟩
    exact ⟨entries, hpackage, entries', hmetadata⟩
  · rintro ⟨entries, hpackage, entries', hmetadata⟩
    refine ⟨⟨_, entry_bind_eq_ok_iff.mpr ⟨entries, hpackage, entries', hmetadata, rfl⟩⟩, ?_⟩
    intro v _
    split
    · dsimp only
      split
      · exact failsAsConfig_ok _
      · exact failsAsConfig_error_iff.mpr ⟨_, rfl⟩
    · exact failsAsConfig_error_iff.mpr ⟨_, rfl⟩

/-! ## Authors -/

/-- The value of a key in an author's table can be written, if there is one. -/
def IsWritableEntry [Limits] (entries : Table CodeText) (key : String) : Prop :=
  ((entries.lookup (.ofString key)).getD (.text [])).fault? = none

mutual

/-- The author or authors that a value names can be written. -/
def IsWritableAuthor [Limits] (room : Nat) : Value CodeText → Prop
  | .table entries => IsWritableEntry entries "name" ∧ IsWritableEntry entries "email"
  | .list vs => room ≠ 0 ∧ AreWritableAuthors (room - 1) vs
  | _ => True

/-- The authors that the values of a list name can be written. -/
def AreWritableAuthors [Limits] (room : Nat) : List (Value CodeText) → Prop
  | [] => True
  | v :: r => IsWritableAuthor room v ∧ AreWritableAuthors room r

end

theorem succeedsIf_writtenEntry [Limits] (entries : Table CodeText) (key : String) :
    SucceedsIf (writtenEntry entries key) (IsWritableEntry entries key) := by
  unfold writtenEntry IsWritableEntry
  cases hfault : ((entries.lookup (.ofString key)).getD (.text [])).fault? with
  | none =>
    simp only [hfault]
    exact succeedsIf_ok trivial
  | some e =>
    simp only [hfault]
    exact succeedsIf_error nofun (not_isConfig_ofWriting e)

theorem succeedsIf_authorOf [Limits] (entries : Table CodeText) :
    SucceedsIf (authorOf entries)
      (IsWritableEntry entries "name" ∧ IsWritableEntry entries "email") := by
  refine (succeedsIf_writtenEntry entries "name").bind_const fun name => ?_
  refine (succeedsIf_writtenEntry entries "email").bind_ok fun email => ?_
  split
  · exact ⟨_, rfl⟩
  · split
    · exact ⟨_, rfl⟩
    · exact ⟨_, rfl⟩

mutual

theorem succeedsIf_writtenAuthor [Limits] (room : Nat) (v : Value CodeText) :
    SucceedsIf (writtenAuthor room v) (IsWritableAuthor room v) := by
  cases v with
  | table entries =>
    rw [writtenAuthor, IsWritableAuthor]
    exact succeedsIf_authorOf entries
  | list vs =>
    rw [writtenAuthor, IsWritableAuthor]
    split
    · next hroom =>
      exact succeedsIf_error (fun h => h.1 hroom) (by rintro ⟨cause, ⟨⟩⟩)
    · next hroom =>
      rw [and_iff_right hroom]
      exact (succeedsIf_writtenAuthors (room - 1) vs).bind_ok fun _ => ⟨_, rfl⟩
  | _ =>
    rw [writtenAuthor, IsWritableAuthor]
    · exact succeedsIf_ok trivial
    all_goals nofun

theorem succeedsIf_writtenAuthors [Limits] (room : Nat) (vs : List (Value CodeText)) :
    SucceedsIf (writtenAuthors room vs) (AreWritableAuthors room vs) := by
  cases vs with
  | nil =>
    rw [writtenAuthors, AreWritableAuthors]
    exact succeedsIf_ok trivial
  | cons v r =>
    rw [writtenAuthors, AreWritableAuthors]
    exact (succeedsIf_writtenAuthor room v).bind_const fun _ =>
      (succeedsIf_writtenAuthors room r).bind_ok fun _ => ⟨_, rfl⟩

end

/-- The value of a key in a package's data. -/
def dataEntry (t : Table CodeText) (key : String) : Value CodeText :=
  (t.lookup (.ofString key)).getD .null

/-- The authors of a package can be written; those of the crate count only if the npm description
names none. -/
structure HasWritableAuthors [Limits] (npm crate : Table CodeText) : Prop where
  author : IsWritableAuthor Limits.authors (dataEntry npm "author")
  authors : writtenAuthor Limits.authors (dataEntry npm "author") = .ok none →
    IsWritableAuthor Limits.authors (dataEntry crate "authors")

theorem authorIn_failsAsConfig_iff [Limits] :
    FailsAsConfig (authorIn npm crate) ↔ HasWritableAuthors npm crate := by
  have hnpm := succeedsIf_writtenAuthor Limits.authors (dataEntry npm "author")
  have hcrate := succeedsIf_writtenAuthor Limits.authors (dataEntry crate "authors")
  unfold authorIn
  rw [failsAsConfig_bind_iff]
  -- the crate is asked only where the npm description names nobody
  change FailsAsConfig (writtenAuthor Limits.authors (dataEntry npm "author")) ∧ _ ↔ _
  rw [hnpm.failsAsConfig_iff]
  constructor
  · rintro ⟨hwritable, hrest⟩
    exact ⟨hwritable, fun hnone => hcrate.failsAsConfig_iff.mp (hrest none hnone)⟩
  · rintro ⟨hwritable, hnone⟩
    refine ⟨hwritable, fun author hfound => ?_⟩
    cases author with
    | some name => exact failsAsConfig_ok _
    | none => exact hcrate.failsAsConfig_iff.mpr (hnone hfound)

/-! ## Metadata -/

/-- The value of a key in the npm description, or else in the crate. -/
def sharedEntry (npm crate : Table CodeText) (key : String) : Value CodeText :=
  (dataEntry npm key).orElse (dataEntry crate key)

/-- The package has a name and a version. -/
def IsNamed (npm crate : Table CodeText) : Prop :=
  (∃ name, (sharedEntry npm crate "name").givenText? = some name) ∧
    ∃ version, (sharedEntry npm crate "version").givenText? = some version

theorem metadata_of_named [Limits] {name version : CodeText}
    (hname : (sharedEntry npm crate "name").givenText? = some name)
    (hversion : (sharedEntry npm crate "version").givenText? = some version) :
    ∃ license, Metadata.of npm crate = (do
      let author ← authorIn npm crate
      return ⟨name, version, author, license⟩) := by
  unfold sharedEntry dataEntry at hname hversion
  unfold Metadata.of
  simp only [hname, hversion]
  exact ⟨_, rfl⟩

theorem metadata_of_not_named [Limits] (h : ¬IsNamed npm crate) :
    ∃ cause, Metadata.of npm crate = .error (.config cause) := by
  cases hname : (sharedEntry npm crate "name").givenText? with
  | none =>
    unfold sharedEntry dataEntry at hname
    unfold Metadata.of
    simp only [hname]
    exact ⟨_, rfl⟩
  | some name =>
    cases hversion : (sharedEntry npm crate "version").givenText? with
    | none =>
      unfold sharedEntry dataEntry at hname hversion
      unfold Metadata.of
      simp only [hname, hversion]
      exact ⟨_, rfl⟩
    | some version => exact (h ⟨⟨name, hname⟩, version, hversion⟩).elim

theorem metadata_failsAsConfig_iff [Limits] : FailsAsConfig (Metadata.of npm crate) ↔
    (IsNamed npm crate → HasWritableAuthors npm crate) := by
  by_cases hnamed : IsNamed npm crate
  · rcases hnamed with ⟨⟨name, hname⟩, version, hversion⟩
    have hnamed : IsNamed npm crate := ⟨⟨name, hname⟩, version, hversion⟩
    rcases metadata_of_named hname hversion with ⟨license, hof⟩
    rw [hof, failsAsConfig_bind_iff, authorIn_failsAsConfig_iff]
    exact ⟨fun h _ => h.1, fun h => ⟨h hnamed, fun _ _ => failsAsConfig_ok _⟩⟩
  · rcases metadata_of_not_named hnamed with ⟨cause, hof⟩
    rw [hof]
    exact iff_of_true (failsAsConfig_error_iff.mpr ⟨cause, rfl⟩) fun h => (hnamed h).elim

theorem ne_nil_of_givenText? {v : Value CodeText} {t : CodeText} (h : v.givenText? = some t) :
    t ≠ [] := by
  cases v with
  | text u =>
    simp only [Value.givenText?] at h
    split at h
    · cases h
    · next hempty =>
      cases h
      simpa using hempty
  | _ => cases h

theorem name_ne_nil_of_metadata [Limits] {m : Metadata} (h : Metadata.of npm crate = .ok m) :
    m.name ≠ [] := by
  by_cases hnamed : IsNamed npm crate
  · rcases hnamed with ⟨⟨name, hname⟩, version, hversion⟩
    rcases metadata_of_named hname hversion with ⟨license, hof⟩
    rw [hof] at h
    cases hauthor : authorIn npm crate with
    | error e =>
      rw [hauthor] at h
      cases h
    | ok author =>
      rw [hauthor] at h
      cases h
      exact ne_nil_of_givenText? hname
  · rcases metadata_of_not_named hnamed with ⟨cause, hof⟩
    cases hof.symm.trans h

/-! ## Names of artifacts -/

/-- The crate's description in a manifest. -/
def crateTable (manifest : Table String) : Table CodeText :=
  match manifest.lookup "package" with
  | some (.table entries) => Value.mapEntries CodeText.ofString entries
  | _ => []

/-- The name that the artifacts are called by, unless another is set: the crate's, or else the
package's. -/
def nameSource (manifest : Table String) (m : Metadata) : Value CodeText :=
  (dataEntry (crateTable manifest) "name").orElse (.text m.name)

theorem artifactName_mapError_failsAsConfig_iff {v : Value CodeText} :
    FailsAsConfig ((artifactName v).mapError .shape) ↔ ∃ t, v = .text t := by
  rw [failsAsConfig_mapError_shape_iff]
  cases v <;> simp [artifactName]

/-- The name that the artifacts are called by. -/
def outNameFor (manifest settings : Table String) (overrides : Overrides) (m : Metadata) :
    Except ProjectError CodeText := do
  match ← (overriddenSetting overrides.outName settings "out-name").mapError .config with
  | some name => pure (.ofString name)
  | none => (artifactName (nameSource manifest m)).mapError .shape

theorem outNameFor_failsAsConfig_iff {m : Metadata} :
    FailsAsConfig (outNameFor manifest settings overrides m) ↔
      (overriddenSetting overrides.outName settings "out-name" = .ok none →
        ∃ t, nameSource manifest m = .text t) := by
  unfold outNameFor
  cases hname : overriddenSetting overrides.outName settings "out-name" with
  | error e => exact iff_of_true (failsAsConfig_error_iff.mpr ⟨e, rfl⟩) nofun
  | ok name =>
    cases name with
    | some name => exact iff_of_true (failsAsConfig_ok _) nofun
    | none =>
      have hsource : FailsAsConfig ((artifactName (nameSource manifest m)).mapError .shape) ↔
          ∃ t, nameSource manifest m = .text t := artifactName_mapError_failsAsConfig_iff
      exact hsource.trans ⟨fun h _ => h, fun h => h rfl⟩

/-! ## Settings -/

/-- What is checked before the package's directory is looked at is in order. -/
structure SettingsAreKnown (settings : Table String) (overrides : Overrides)
    (entries : Table String) (directory : Option String) : Prop where
  flags : ∃ flags, flagSetting settings = .ok flags
  offsets : offsetSetting settings = .ok entries
  skip : ∃ skip, skipSetting settings = .ok skip
  internal : ∃ internal, textSetting settings "internal-init-name" = .ok internal ∧
    Text.isIdentifier (internal.getD Bindings.defaultInternalName).toList = true
  directory : overriddenSetting overrides.packageDirectory settings "pkg-dir" = .ok directory

/-- The directory can be one, and what the refusal of an offset is about can be written. -/
structure PlacesAreRegular [Limits] (entries : Table String)
    (directory : Option String) : Prop where
  noZero : (Path.ofString (directory.getD defaultPackageDirectory)).hasZero = false
  offsets : ∀ front entry rest v, entries = front ++ entry :: rest →
    OffsetTable.standard.Accepts front → OffsetTable.standard.IsTold front entry v →
      v.fault? = none

/-- The rest of the configuration, for a package with some data and a name. -/
def configWith [Limits] (root : Path) (manifest settings : Table String) (overrides : Overrides)
    (metadata : Metadata) (outName : CodeText) : Except ProjectError Config := do
  let flags ← (flagSetting settings).mapError .config
  let entries ← (offsetSetting settings).mapError .config
  let skip ← (skipSetting settings).mapError .config
  let internal ← (textSetting settings "internal-init-name").mapError .config
  let internal := internal.getD Bindings.defaultInternalName
  if !Text.isIdentifier internal.toList then throw (.config (.notIdentifier internal))
  let directory ←
    (overriddenSetting overrides.packageDirectory settings "pkg-dir").mapError .config
  let packageDirectory ← resolvedPath root (directory.getD defaultPackageDirectory)
  let offsets ← (OffsetTable.standard.extend entries).mapError .ofOffset
  let copyright ← (textSetting settings "copyright").mapError .config
  let generatorVersion ← (textSetting settings "generator-version").mapError .config
  return {
    root
    packageDirectory
    outName
    metadata
    offsets
    internalName := internal
    copyright
    generatorVersion
    skipsGeneratorCheck := overrides.skipsGeneratorCheck.getD skip
    flags
    manifest }

theorem configOf_eq [Limits] : configOf root manifest settings npm overrides = (do
    let metadata ← Metadata.of npm (crateTable manifest)
    let outName ← outNameFor manifest settings overrides metadata
    configWith root manifest settings overrides metadata outName) := by
  have hcrate : configOf root manifest settings npm overrides = (do
      let metadata ← Metadata.of npm (crateTable manifest)
      let name ← (overriddenSetting overrides.outName settings "out-name").mapError .config
      let outName ← match name with
        | some name => pure (.ofString name)
        | none => (artifactName (nameSource manifest metadata)).mapError .shape
      configWith root manifest settings overrides metadata outName) := rfl
  rw [hcrate]
  congr 1
  funext metadata
  rw [outNameFor, bind_assoc]
  congr 1
  funext name
  cases name with
  | none => rfl
  | some name => rfl

theorem resolvedPath_failsAsConfig_iff {written : String} :
    FailsAsConfig (resolvedPath root written) ↔ (Path.ofString written).hasZero = false := by
  unfold resolvedPath
  dsimp only
  split
  · next hzero =>
    exact iff_of_false (fun h => by cases failsAsConfig_error_iff.mp h with | _ cause h => cases h)
      (by simp [hzero])
  · next hzero => exact iff_of_true (failsAsConfig_ok _) (by simpa using hzero)

theorem resolvedPath_eq_ok {written : String} (h : (Path.ofString written).hasZero = false) :
    resolvedPath root written = .ok (root.resolve (Path.ofString written)) := by
  unfold resolvedPath
  simp [h]

theorem ofOffset_failsAsConfig_iff {x : Except OffsetError OffsetTable} :
    FailsAsConfig (x.mapError .ofOffset) ↔ ∀ e, x ≠ .error (.unwritable e) := by
  cases x with
  | ok t => exact iff_of_true (failsAsConfig_ok t) nofun
  | error e =>
    cases e with
    | unwritable e =>
      exact iff_of_false (fun h => not_isConfig_ofWriting e (failsAsConfig_error_iff.mp h))
        fun h => h e rfl
    | invalidName name => exact iff_of_true (failsAsConfig_error_iff.mpr ⟨_, rfl⟩) nofun
    | notPositive name count => exact iff_of_true (failsAsConfig_error_iff.mpr ⟨_, rfl⟩) nofun
    | fixed name count other => exact iff_of_true (failsAsConfig_error_iff.mpr ⟨_, rfl⟩) nofun

theorem extend_failsAsConfig_iff [Limits] {entries : Table String} :
    FailsAsConfig ((OffsetTable.standard.extend entries).mapError .ofOffset) ↔
      ∀ front entry rest v, entries = front ++ entry :: rest →
        OffsetTable.standard.Accepts front → OffsetTable.standard.IsTold front entry v →
          v.fault? = none := by
  rw [ofOffset_failsAsConfig_iff, ← not_exists, OffsetTable.extend_eq_unwritable_iff]
  push Not
  rfl

theorem configWith_failsAsConfig_iff [Limits] {m : Metadata} {outName : CodeText} :
    FailsAsConfig (configWith root manifest settings overrides m outName) ↔
      ∀ entries directory, SettingsAreKnown settings overrides entries directory →
        PlacesAreRegular entries directory := by
  unfold configWith
  simp only [failsAsConfig_bind_iff, failsAsConfig_mapError, true_and, mapError_ok_iff]
  constructor
  · rintro h entries directory ⟨⟨flags, hflags⟩, hentries, ⟨skip, hskip⟩, ⟨internal, hinternal,
      hidentifier⟩, hdirectory⟩
    have hrest := h flags hflags entries hentries skip hskip internal hinternal
    rw [if_neg (by simp [hidentifier])] at hrest
    simp only [failsAsConfig_bind_iff, failsAsConfig_mapError, true_and,
      mapError_ok_iff] at hrest
    rcases hrest directory hdirectory with ⟨hresolved, hoffsets⟩
    have hzero := resolvedPath_failsAsConfig_iff.mp hresolved
    refine ⟨hzero, extend_failsAsConfig_iff.mp ?_⟩
    exact (hoffsets _ (resolvedPath_eq_ok hzero)).1
  · intro h flags hflags entries hentries skip hskip internal hinternal
    split
    · exact failsAsConfig_bind_iff.mpr ⟨failsAsConfig_error_iff.mpr ⟨_, rfl⟩, nofun⟩
    · next hidentifier =>
      simp only [failsAsConfig_bind_iff, failsAsConfig_mapError, true_and,
        mapError_ok_iff]
      intro directory hdirectory
      have hplaces := h entries directory ⟨⟨flags, hflags⟩, hentries, ⟨skip, hskip⟩,
        ⟨internal, hinternal, by simpa using hidentifier⟩, hdirectory⟩
      refine ⟨resolvedPath_failsAsConfig_iff.mpr hplaces.noZero, fun _ _ =>
        ⟨extend_failsAsConfig_iff.mpr hplaces.offsets, fun _ _ _ _ _ _ => failsAsConfig_ok _⟩⟩

theorem objectOf_eq_ok_iff {p : Path} :
    objectOf p description = .ok npm ↔ description = .table npm := by
  cases description <;> simp [objectOf]

/-- A description that is no object is refused. -/
theorem failsAsConfig_objectOf (p : Path) (v : Value CodeText) : FailsAsConfig (objectOf p v) := by
  cases v with
  | table entries => exact failsAsConfig_ok entries
  | _ => exact failsAsConfig_error_iff.mpr ⟨_, rfl⟩

/-- Where nothing keeps the configuration from being read or refused: tables are tables, and what is
looked at because all before it is in order can be used. -/
structure IsRegular [Limits] (manifest : Table String) (description : Value CodeText)
    (overrides : Overrides) : Prop where
  tables : HasTables manifest
  authors : ∀ settings npm, settingsOf manifest = .ok settings → description = .table npm →
    IsNamed npm (crateTable manifest) → HasWritableAuthors npm (crateTable manifest)
  name : ∀ settings npm m, settingsOf manifest = .ok settings → description = .table npm →
    Metadata.of npm (crateTable manifest) = .ok m →
    overriddenSetting overrides.outName settings "out-name" = .ok none →
      ∃ t, nameSource manifest m = .text t
  places : ∀ settings npm m outName entries directory, settingsOf manifest = .ok settings →
    description = .table npm → Metadata.of npm (crateTable manifest) = .ok m →
    outNameFor manifest settings overrides m = .ok outName →
    SettingsAreKnown settings overrides entries directory → PlacesAreRegular entries directory

/-- The configuration for a manifest, and for the value that the npm description beside it holds. -/
def configIn [Limits] (root : Path) (manifest : Table String) (description : Value CodeText)
    (overrides : Overrides) : Except ProjectError Config := do
  let settings ← settingsOf manifest
  let npm ← objectOf (root.child "package.json") description
  configOf root manifest settings npm overrides

theorem configIn_failsAsConfig_iff [Limits] :
    FailsAsConfig (configIn root manifest description overrides) ↔
      IsRegular manifest description overrides := by
  simp only [configIn, configOf_eq, failsAsConfig_bind_iff, settingsOf_failsAsConfig_iff,
    failsAsConfig_objectOf, true_and, objectOf_eq_ok_iff, metadata_failsAsConfig_iff,
    outNameFor_failsAsConfig_iff, configWith_failsAsConfig_iff]
  constructor
  · rintro ⟨htables, hrest⟩
    exact ⟨htables, fun settings npm hsettings hnpm => (hrest settings hsettings npm hnpm).1,
      fun settings npm m hsettings hnpm hm => ((hrest settings hsettings npm hnpm).2 m hm).1,
      fun settings npm m outName entries directory hsettings hnpm hm hname =>
        ((hrest settings hsettings npm hnpm).2 m hm).2 outName hname entries directory⟩
  · intro h
    exact ⟨h.tables, fun settings hsettings npm hnpm =>
      ⟨h.authors settings npm hsettings hnpm, fun m hm =>
        ⟨h.name settings npm m hsettings hnpm hm, fun outName hname entries directory =>
          h.places settings npm m outName entries directory hsettings hnpm hm hname⟩⟩⟩

/-! ## Configurations that are read -/

/-- The artifacts have a name, the loader has one that can stand in a script, and the standard value
types keep their numbers. -/
structure Config.IsComplete (c : Config) : Prop where
  outName : c.outName ≠ []
  internalName : Text.isIdentifier c.internalName.toList = true
  offsets : ∀ entry ∈ OffsetTable.standard.entries, c.offsets.get? entry.1 = some entry.2

theorem ne_empty_of_textSetting {key name : String}
    (h : textSetting settings key = .ok (some name)) : name ≠ "" := by
  unfold textSetting at h
  split at h
  · cases h
  · cases h
  · next t _ =>
    dsimp only at h
    split at h
    · cases h
    · next hempty =>
      cases h
      rintro hname
      rw [← String.toList_inj] at hname
      simp_all
  · cases h

theorem ne_empty_of_overriddenSetting {override : Option String} {key name : String}
    (h : overriddenSetting override settings key = .ok (some name)) : name ≠ "" := by
  unfold overriddenSetting at h
  split at h
  · next s hfilter =>
    cases h
    rw [Option.filter_eq_some_iff] at hfilter
    simpa using hfilter.2
  · exact ne_empty_of_textSetting h

theorem ne_nil_of_nameSource {m : Metadata} {t : CodeText} (hm : m.name ≠ [])
    (h : nameSource manifest m = .text t) : t ≠ [] := by
  unfold nameSource Value.orElse at h
  split at h
  · next hgiven =>
    rw [h] at hgiven
    simpa [Value.isGiven] using hgiven
  · cases h
    exact hm

theorem outName_ne_nil {m : Metadata} {outName : CodeText} (hm : m.name ≠ [])
    (h : outNameFor manifest settings overrides m = .ok outName) : outName ≠ [] := by
  rcases bind_ok_iff.mp h with ⟨name, hname, h⟩
  rw [mapError_ok_iff] at hname
  cases name with
  | some name =>
    cases h
    have hnonempty := ne_empty_of_overriddenSetting hname
    rw [Ne, ← String.toList_inj] at hnonempty
    exact fun hnil => hnonempty (List.map_eq_nil_iff.mp hnil)
  | none =>
    have hartifact : artifactName (nameSource manifest m) = .ok outName := mapError_ok_iff.mp h
    cases hsource : nameSource manifest m with
    | text t =>
      rw [hsource] at hartifact
      cases hartifact
      simpa using ne_nil_of_nameSource hm hsource
    | _ =>
      rw [hsource] at hartifact
      cases hartifact

theorem isComplete_of_configOf [Limits]
    (h : configOf root manifest settings npm overrides = .ok c) :
    c.IsComplete := by
  rw [configOf_eq] at h
  rcases bind_ok_iff.mp h with ⟨m, hm, h⟩
  rcases bind_ok_iff.mp h with ⟨outName, hname, h⟩
  have hnonempty := outName_ne_nil (name_ne_nil_of_metadata hm) hname
  unfold configWith at h
  simp only [bind_ok_iff, mapError_ok_iff] at h
  rcases h with ⟨flags, -, entries, -, skip, -, internal, -, h⟩
  split at h
  · rcases bind_ok_iff.mp h with ⟨_, ⟨⟩, -⟩
  · next hidentifier =>
    simp only [bind_ok_iff, mapError_ok_iff] at h
    rcases h with ⟨directory, -, path, -, offsets, hoffsets, copyright, -, version, -, h⟩
    cases h
    refine ⟨hnonempty, by simpa using hidentifier, ?_⟩
    intro entry hentry
    -- further offsets are only added to the standard ones
    have hstandard : ∀ entry ∈ OffsetTable.standard.entries,
        OffsetTable.standard.get? entry.1 = some entry.2 := by decide +kernel
    exact (OffsetTable.continues_extend hoffsets).counts _ _ (hstandard entry hentry)

/-! ## Projects -/

theorem configFor_eq [Limits] {s : Store} {directory : Path} {project : String}
    (hroot : resolvedPath directory project = .ok root)
    (hmanifest : readManifest s (root.child "Cargo.toml") = .ok manifest)
    (hnpm : readValue s (root.child "package.json") = .ok description) :
    configFor s directory project overrides = configIn root manifest description overrides := by
  have hobject : readObject s (root.child "package.json") =
      objectOf (root.child "package.json") description := by
    rw [readObject, hnpm]
    rfl
  have hfor : configFor s directory project overrides = (do
      let root ← resolvedPath directory project
      let manifest ← readManifest s (root.child "Cargo.toml")
      let settings ← settingsOf manifest
      let npm ← readObject s (root.child "package.json")
      configOf root manifest settings npm overrides) := rfl
  rw [hfor, hroot]
  show (do
    let manifest ← readManifest s (root.child "Cargo.toml")
    let settings ← settingsOf manifest
    let npm ← readObject s (root.child "package.json")
    configOf root manifest settings npm overrides) = _
  rw [hmanifest, hobject]
  rfl

/-- If its files can be read, a project's configuration is given with all that it needs, or refused;
nothing else happens exactly if what the files hold is regular. -/
theorem configFor_failsAsConfig_iff [Limits] {s : Store} {directory : Path} {project : String}
    (hroot : resolvedPath directory project = .ok root)
    (hmanifest : readManifest s (root.child "Cargo.toml") = .ok manifest)
    (hnpm : readValue s (root.child "package.json") = .ok description) :
    (FailsAsConfig (configFor s directory project overrides) ↔
      IsRegular manifest description overrides) ∧
    ∀ c, configFor s directory project overrides = .ok c → c.IsComplete := by
  rw [configFor_eq hroot hmanifest hnpm]
  refine ⟨configIn_failsAsConfig_iff, ?_⟩
  intro c h
  rcases bind_ok_iff.mp h with ⟨settings, -, h⟩
  rcases bind_ok_iff.mp h with ⟨npm, -, h⟩
  exact isComplete_of_configOf h

/-! ### Small projects -/

/-- A project with a manifest and an npm description. -/
def projectStore (manifest npm : String) : Store where
  entries := [(["Cargo.toml"], .file (Text.encode manifest.toList) false),
    (["package.json"], .file (Text.encode npm.toList) false)]

/-- A project whose name stands in its manifest, and whose version in the npm description. -/
def plainProject : Store :=
  projectStore "[package]\nname = \"a-b\"" "\x7b\"version\": \"1\"\x7d"

theorem configFor_plainProject : ∃ manifest npm c,
    readManifest plainProject ⟨1, ["Cargo.toml"]⟩ = .ok manifest ∧
      readValue plainProject ⟨1, ["package.json"]⟩ = .ok npm ∧
      configFor plainProject (.ofString "/") "." ⟨none, none, none⟩ = .ok c ∧
      IsRegular manifest npm ⟨none, none, none⟩ ∧ c.IsComplete := by
  have hroot : resolvedPath (.ofString "/") "." = .ok (.ofString "/") := by rfl
  have hmanifest : (readManifest plainProject ⟨1, ["Cargo.toml"]⟩).isOk = true := by
    decide +kernel
  have hnpm : (readValue plainProject ⟨1, ["package.json"]⟩).isOk = true := by
    decide +kernel
  have hread : (configFor plainProject (.ofString "/") "." ⟨none, none, none⟩).isOk = true := by
    decide +kernel
  rcases exists_eq_ok_of_isOk hmanifest with ⟨manifest, hmanifest⟩
  rcases exists_eq_ok_of_isOk hnpm with ⟨npm, hnpm⟩
  rcases exists_eq_ok_of_isOk hread with ⟨c, hread⟩
  have hall : (FailsAsConfig (configFor plainProject (.ofString "/") "." ⟨none, none, none⟩) ↔
      IsRegular manifest npm ⟨none, none, none⟩) ∧
      ∀ c, configFor plainProject (.ofString "/") "." ⟨none, none, none⟩ = .ok c → c.IsComplete :=
    configFor_failsAsConfig_iff hroot hmanifest hnpm
  refine ⟨manifest, npm, c, hmanifest, hnpm, hread, hall.1.mp ?_, hall.2 c hread⟩
  rw [hread]
  exact failsAsConfig_ok c

/-- Values of an unexpected kind, and a directory with the character zero, are neither read nor
refused. -/
theorem configFor_not_failsAsConfig :
    ¬∃ manifest ∈ ["package = 1", "[package]\nmetadata = 1", "[package]\nname = 1",
      "[package.metadata.wasm-polish]\npkg-dir = \"\\u0000\""],
      FailsAsConfig (configFor (projectStore manifest
        "\x7b\"name\": \"a\", \"version\": \"1\"\x7d") (.ofString "/") "." ⟨none, none, none⟩) := by
  decide +kernel

end WasmPackage
