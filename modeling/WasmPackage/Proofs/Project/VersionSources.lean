import WasmPackage.Proofs.Project.Configuration
import WasmPackage.Proofs.Project.GeneratorGate

/-!
# The sources of a version

A version in the settings decides which generator wrote a package, but the lock file and the
manifest are looked through all the same.  The main statement compares two projects with one
setting: both get its version exactly if there is nothing in either of them that stops this.
-/

namespace WasmPackage

open Bindings (bind_ok_iff mapError_ok_iff)

variable {s s' : Store} {c c' : Config} {manifest : Table String}
  {items r : List (Value String)} {v : Value String} {keys : List String} {key raw : String}
  {found : Option Generator} {x : Version}

/-! ## Sources that can be looked through -/

/-- The packages of a lock file are tables, as far as they are looked at: up to the first that is
the generator and has a text for version. -/
inductive AreLookedThrough : List (Value String) → Prop
  | nil : AreLookedThrough []
  | found {package : Table String} {r : List (Value String)} {version : String} :
    generatorVersion? package = some version → AreLookedThrough (.table package :: r)
  | other {package : Table String} {r : List (Value String)} :
    generatorVersion? package = none → AreLookedThrough r → AreLookedThrough (.table package :: r)

/-- The value is a list of packages that can be looked through; an empty table or text holds nothing
to look at. -/
def IsPackageList (v : Value String) : Prop :=
  v = .table [] ∨ v = .text "" ∨ ∃ items, v = .list items ∧ AreLookedThrough items

/-- The lock file can be read and its packages looked through, and so can the tables of the manifest
that hold what is required; the second of these counts only if the first tells nothing. -/
structure CanBeConsulted [Limits] (s : Store) (c : Config) : Prop where
  lock : ∃ lock, readManifest s (c.root.child "Cargo.lock") = .ok lock ∧
    ∀ v, lock.lookup "package" = some v → IsPackageList v
  dependencies : ∀ v, c.manifest.lookup "dependencies" = some v → ∃ entries, v = .table entries
  buildDependencies : requirement? c.manifest "dependencies" = none →
    ∀ v, c.manifest.lookup "build-dependencies" = some v → ∃ entries, v = .table entries

/-! ## The lock file -/

theorem lockedVersion_isOk_iff :
    (∃ version, lockedVersion items = .ok version) ↔ AreLookedThrough items := by
  induction items with
  | nil => exact iff_of_true ⟨none, rfl⟩ .nil
  | cons v r ih =>
    by_cases htable : ∃ package, v = .table package
    · rcases htable with ⟨package, rfl⟩
      rw [lockedVersion_cons]
      cases hversion : generatorVersion? package with
      | some version => exact iff_of_true ⟨_, rfl⟩ (.found hversion)
      | none =>
        rw [Option.elim_none, ih]
        constructor
        · exact .other hversion
        · rintro (_ | hfound | ⟨_, hr⟩)
          · cases hversion.symm.trans hfound
          · exact hr
    · -- the name of a package is looked up before anything else
      apply iff_of_false
      · rintro ⟨version, h⟩
        rcases bind_ok_iff.mp h with ⟨name, hname, -⟩
        rcases entry_eq_ok_iff.mp hname with ⟨entries, hv, -⟩
        exact htable ⟨entries, hv⟩
      · rintro (_ | _ | _) <;> exact htable ⟨_, rfl⟩

theorem not_areLookedThrough_text {name : String} : ¬AreLookedThrough (.text name :: r) :=
  nofun

theorem itemsOf_areLookedThrough_iff :
    (∃ items, itemsOf v = .ok items ∧ AreLookedThrough items) ↔ IsPackageList v := by
  unfold IsPackageList
  cases v with
  | list items => simp [itemsOf]
  | table entries =>
    -- the items of a table are its keys
    cases entries with
    | nil => exact iff_of_true ⟨[], rfl, .nil⟩ (Or.inl rfl)
    | cons e r =>
      apply iff_of_false
      · rintro ⟨_, ⟨⟩, h⟩
        exact not_areLookedThrough_text h
      · simp
  | text t =>
    cases ht : t.toList with
    | nil =>
      have hempty : t = "" := String.toList_eq_nil_iff.mp ht
      subst hempty
      exact iff_of_true ⟨[], rfl, .nil⟩ (Or.inr (Or.inl rfl))
    | cons c r =>
      apply iff_of_false
      · rintro ⟨items, hitems, h⟩
        simp only [itemsOf, ht, List.map_cons, Except.ok.injEq] at hitems
        rw [← hitems] at h
        exact not_areLookedThrough_text h
      · rintro (h | h | ⟨items, h, -⟩) <;> cases h
        cases ht
  | null | bool b | int n | float parts | moment m => simp [itemsOf]

theorem lockFileVersion_isOk_iff [Limits] {root : Path} :
    (∃ version, lockFileVersion s root = .ok version) ↔
      ∃ lock, readManifest s (root.child "Cargo.lock") = .ok lock ∧
        ∀ v, lock.lookup "package" = some v → IsPackageList v := by
  have hdefault {lock : Table String} : IsPackageList ((lock.lookup "package").getD (.list [])) ↔
      ∀ v, lock.lookup "package" = some v → IsPackageList v := by
    cases lock.lookup "package" with
    | none => exact iff_of_true (Or.inr (Or.inr ⟨[], rfl, .nil⟩)) nofun
    | some v => simp
  constructor
  · rintro ⟨version, h⟩
    rcases bind_ok_iff.mp h with ⟨lock, hlock, h⟩
    rcases bind_ok_iff.mp h with ⟨items, hitems, h⟩
    refine ⟨lock, hlock, hdefault.mp (itemsOf_areLookedThrough_iff.mp ⟨items, ?_, ?_⟩)⟩
    · exact mapError_ok_iff.mp hitems
    · exact lockedVersion_isOk_iff.mp ⟨version, mapError_ok_iff.mp h⟩
  · rintro ⟨lock, hlock, h⟩
    rcases itemsOf_areLookedThrough_iff.mpr (hdefault.mpr h) with ⟨items, hitems, hlooked⟩
    rcases lockedVersion_isOk_iff.mpr hlooked with ⟨version, hversion⟩
    exact ⟨version, bind_ok_iff.mpr ⟨lock, hlock, bind_ok_iff.mpr ⟨items,
      mapError_ok_iff.mpr hitems, mapError_ok_iff.mpr hversion⟩⟩⟩

/-! ## The manifest -/

/-- The tables are looked through up to the first that tells a requirement. -/
theorem requirementIn_cons_isOk_iff :
    (∃ version, requirementIn manifest (key :: keys) = .ok version) ↔
      (∀ v, manifest.lookup key = some v → ∃ entries, v = .table entries) ∧
        (requirement? manifest key = none →
          ∃ version, requirementIn manifest keys = .ok version) := by
  by_cases htable : ∀ v, manifest.lookup key = some v → ∃ entries, v = .table entries
  · rcases exists_requirement_entry htable with ⟨entry, hentry, htext⟩
    simp only [requirementIn, hentry, ← htext, bind, Except.bind]
    cases requirementText entry with
    | some text => exact iff_of_true ⟨_, rfl⟩ ⟨htable, nofun⟩
    | none => exact ⟨fun h => ⟨htable, fun _ => h⟩, fun h => h.2 rfl⟩
  · apply iff_of_false
    · rintro ⟨version, h⟩
      rcases bind_ok_iff.mp h with ⟨entry, hentry, -⟩
      rcases entry_eq_ok_iff.mp hentry with ⟨entries, hentries, -⟩
      apply htable
      intro v hv
      rw [hv] at hentries
      exact ⟨entries, hentries⟩
    · exact fun h => htable h.1

theorem requiredGenerator_isOk_iff :
    (∃ version, requiredGenerator manifest = .ok version) ↔
      (∀ v, manifest.lookup "dependencies" = some v → ∃ entries, v = .table entries) ∧
        (requirement? manifest "dependencies" = none →
          ∀ v, manifest.lookup "build-dependencies" = some v → ∃ entries, v = .table entries) := by
  have hlast : ∃ version, requirementIn manifest [] = .ok version := ⟨none, rfl⟩
  unfold requiredGenerator
  rw [requirementIn_cons_isOk_iff, requirementIn_cons_isOk_iff]
  simp only [hlast, implies_true, and_true]

/-! ## A version in the settings -/

/-- A version in the settings is the one that is found, if the other sources do not fail. -/
theorem resolveGenerator_eq_ok_iff [Limits] (hset : c.generatorVersion = some raw)
    (hparse : Version.parse? raw = .ok (some x)) :
    resolveGenerator s c = .ok found ↔ found = some ⟨x, .settings⟩ ∧ CanBeConsulted s c := by
  have hchoice {locked required : Option String} :
      chooseGenerator c.generatorVersion locked required = .ok (some ⟨x, .settings⟩) := by
    simp only [hset, chooseGenerator, generatorAt, hparse]
    rfl
  constructor
  · intro h
    rcases bind_ok_iff.mp h with ⟨locked, hlocked, h⟩
    rcases bind_ok_iff.mp h with ⟨required, hrequired, h⟩
    rw [hchoice] at h
    cases h
    rcases requiredGenerator_isOk_iff.mp ⟨required, mapError_ok_iff.mp hrequired⟩ with
      ⟨hdependencies, hbuild⟩
    exact ⟨rfl, lockFileVersion_isOk_iff.mp ⟨locked, hlocked⟩, hdependencies, hbuild⟩
  · rintro ⟨rfl, hlock, hdependencies, hbuild⟩
    rcases lockFileVersion_isOk_iff.mpr hlock with ⟨locked, hlocked⟩
    rcases requiredGenerator_isOk_iff.mpr ⟨hdependencies, hbuild⟩ with ⟨required, hrequired⟩
    exact bind_ok_iff.mpr ⟨locked, hlocked, bind_ok_iff.mpr ⟨required,
      mapError_ok_iff.mpr hrequired, hchoice⟩⟩

/-- Two projects with one version in their settings both get it, from the settings, if and only if
the other sources of both can be consulted; and whatever these hold, no other version is found. -/
theorem resolveGenerator_decidedBySetting_iff [Limits] (hset : c.generatorVersion = some raw)
    (hset' : c'.generatorVersion = some raw) (hparse : Version.parse? raw = .ok (some x)) :
    (resolveGenerator s c = resolveGenerator s' c' ∧
        resolveGenerator s c = .ok (some ⟨x, .settings⟩) ↔
      CanBeConsulted s c ∧ CanBeConsulted s' c') ∧
    ∀ found, resolveGenerator s c = .ok found → found = some ⟨x, .settings⟩ := by
  constructor
  · constructor
    · rintro ⟨hsame, h⟩
      have h' := hsame.symm.trans h
      exact ⟨((resolveGenerator_eq_ok_iff hset hparse).mp h).2,
        ((resolveGenerator_eq_ok_iff hset' hparse).mp h').2⟩
    · rintro ⟨hconsulted, hconsulted'⟩
      have h := (resolveGenerator_eq_ok_iff hset hparse).mpr ⟨rfl, hconsulted⟩
      have h' := (resolveGenerator_eq_ok_iff hset' hparse).mpr ⟨rfl, hconsulted'⟩
      exact ⟨h.trans h'.symm, h⟩
  · intro found h
    exact ((resolveGenerator_eq_ok_iff hset hparse).mp h).1

/-- A project that pins another release than the one in its settings. -/
def pinningConfig : Config :=
  { configWithVersion (some "0.2.26") with
    manifest := [("dependencies", .table [("wasm-bindgen", .text "=0.2.50")])] }

theorem resolveGenerator_decidedBySetting_iff_pinned :
    (configWithVersion (some "0.2.26")).generatorVersion = some "0.2.26" ∧
      pinningConfig.generatorVersion = some "0.2.26" ∧
      Version.parse? "0.2.26" = .ok (some ⟨0, 2, 26⟩) ∧
      resolveGenerator lockedSession.store (configWithVersion (some "0.2.26")) =
        resolveGenerator ⟨[]⟩ pinningConfig ∧
      resolveGenerator lockedSession.store (configWithVersion (some "0.2.26")) =
        .ok (some ⟨⟨0, 2, 26⟩, .settings⟩) := by
  have hparse : Version.parse? "0.2.26" = .ok (some ⟨0, 2, 26⟩) := by decide +kernel
  have hlocked : CanBeConsulted lockedSession.store (configWithVersion (some "0.2.26")) := by
    refine ⟨⟨_, readManifest_lockedSession, ?_⟩, nofun, nofun⟩
    rintro _ ⟨⟩
    exact Or.inr (Or.inr ⟨_, rfl, .found rfl⟩)
  have hpinning : CanBeConsulted ⟨[]⟩ pinningConfig := by
    refine ⟨⟨[], by with_unfolding_all rfl, nofun⟩, ?_, nofun⟩
    rintro _ ⟨⟩
    exact ⟨_, rfl⟩
  exact ⟨rfl, rfl, hparse,
    (resolveGenerator_decidedBySetting_iff rfl rfl hparse).1.mpr ⟨hlocked, hpinning⟩⟩

/-- A store that holds nothing but a lock file. -/
def storeWithLock (text : String) : Store :=
  ⟨[(["Cargo.lock"], .file (Text.encode text.toList) false)]⟩

/-- A lock file that cannot be read, or whose packages are no list, keeps the version in the
settings from being found. -/
theorem resolveGenerator_malformedLock :
    Version.parse? "0.2.29" = .ok (some ⟨0, 2, 29⟩) ∧
      resolveGenerator ⟨[]⟩ (configWithVersion (some "0.2.29")) =
        .ok (some ⟨⟨0, 2, 29⟩, .settings⟩) ∧
      resolveGenerator (storeWithLock "x") (configWithVersion (some "0.2.29")) =
        .error (.config (.unreadable ⟨1, ["Cargo.lock"]⟩)) ∧
      resolveGenerator (storeWithLock "package = 1") (configWithVersion (some "0.2.29")) =
        .error (.shape .noItems) := by
  refine ⟨by decide +kernel, ?_, ?_, ?_⟩ <;> with_unfolding_all rfl

end WasmPackage
