import WasmPackage.Proofs.Bindings.Edits
import WasmPackage.Proofs.Package.Atomicity
import WasmPackage.Proofs.Project.Versions

/-!
# The gate for generators

A package is let through if its generator is of a known version.  What that version is, is said by
the texts that can tell it; how the gate ends, by that version alone.  The gate ends otherwise
exactly if a version that it has to read has too long a number.  Nothing of a package is looked at
before the gate.
-/

namespace WasmPackage

open WasmPackage.Action (Ends ends_get_bind ends_modify ends_ofExcept_error_bind
  ends_ofExcept_ok_bind ends_pure)
open Bindings (bind_ok_iff mapError_ok_iff)

variable {c : Config} {s s' t : Session} {lock manifest : Table String}
  {packages : List (Table String)} {found found' : Option Generator}

/-! ## Where versions are looked for -/

/-- The text that a value is. -/
def textOf? : Option (Value String) → Option String
  | some (.text s) => some s
  | _ => none

/-- The version of a package of a lock file, if it is the generator and has a text for version. -/
def generatorVersion? (package : Table String) : Option String :=
  if textOf? (package.lookup "name") = some generatorName then textOf? (package.lookup "version")
  else none

/-- What a table of a manifest requires of the generator, if that is a text. -/
def requirement? (manifest : Table String) (key : String) : Option String :=
  match manifest.lookup key with
  | some (.table entries) => (entries.lookup generatorName).bind requirementText
  | _ => none

/-- The packages of a lock file are these tables, if it has any. -/
def HasPackages (lock : Table String) (packages : List (Table String)) : Prop :=
  (lock.lookup "package" = none ∧ packages = []) ∨
    lock.lookup "package" = some (.list (packages.map .table))

/-- The keys of a manifest that hold what is required. -/
def requirementKeys : List String := ["dependencies", "build-dependencies"]

/-- What a manifest requires stands in tables. -/
def HasRequirementTables (manifest : Table String) : Prop :=
  ∀ key ∈ requirementKeys, ∀ v, manifest.lookup key = some v → ∃ entries, v = .table entries

theorem lockedVersion_cons (package : Table String) (r : List (Value String)) :
    lockedVersion (.table package :: r) =
      (generatorVersion? package).elim (lockedVersion r) (fun version => .ok (some version)) := by
  rw [lockedVersion, generatorVersion?]
  simp only [Value.entry, bind, Except.bind]
  cases package.lookup "name" with
  | none => rfl
  | some name =>
    cases name with
    | text name =>
      by_cases hname : name = generatorName
      · simp only [Option.getD_some, textOf?, hname, if_true]
        cases package.lookup "version" with
        | none => rfl
        | some version => cases version <;> rfl
      · simp [textOf?, hname]
    | _ => rfl

theorem lockedVersion_map_table :
    lockedVersion (packages.map .table) = .ok (packages.findSome? generatorVersion?) := by
  induction packages with
  | nil => rfl
  | cons package packages ih =>
    rw [List.map_cons, lockedVersion_cons, List.findSome?_cons]
    cases generatorVersion? package with
    | none => exact ih
    | some version => rfl

theorem lockFileVersion_eq [Limits] {root : Path}
    (hlock : readManifest s.store (root.child "Cargo.lock") = .ok lock)
    (hpackages : HasPackages lock packages) :
    lockFileVersion s.store root = .ok (packages.findSome? generatorVersion?) := by
  have hitems : itemsOf ((lock.lookup "package").getD (.list [])) = .ok (packages.map .table) := by
    rcases hpackages with ⟨hnone, rfl⟩ | hsome
    · rw [hnone]
      rfl
    · rw [hsome]
      rfl
  exact bind_ok_iff.mpr ⟨lock, hlock, bind_ok_iff.mpr ⟨_, mapError_ok_iff.mpr hitems,
    mapError_ok_iff.mpr lockedVersion_map_table⟩⟩

/-- What a table requires is looked up in it; a table that is not there holds nothing. -/
theorem exists_requirement_entry {key : String}
    (h : ∀ v, manifest.lookup key = some v → ∃ entries, v = .table entries) :
    ∃ entry, ((manifest.lookup key).getD (.table [])).entry generatorName .null = .ok entry ∧
      requirementText entry = requirement? manifest key := by
  unfold requirement?
  cases hlookup : manifest.lookup key with
  | none => exact ⟨.null, rfl, rfl⟩
  | some v =>
    rcases h v hlookup with ⟨entries, rfl⟩
    refine ⟨(entries.lookup generatorName).getD .null, rfl, ?_⟩
    cases hentry : entries.lookup generatorName <;> simp [hentry, requirementText]

theorem requirementIn_eq {keys : List String}
    (h : ∀ key ∈ keys, ∀ v, manifest.lookup key = some v → ∃ entries, v = .table entries) :
    requirementIn manifest keys = .ok (keys.findSome? (requirement? manifest)) := by
  induction keys with
  | nil => rfl
  | cons key keys ih =>
    have hrest := ih fun key hkey => h key (List.mem_cons_of_mem _ hkey)
    rcases exists_requirement_entry (h key List.mem_cons_self) with ⟨entry, hentry, htext⟩
    refine bind_ok_iff.mpr ⟨entry, hentry, ?_⟩
    rw [List.findSome?_cons, ← htext]
    cases requirementText entry with
    | none => exact hrest
    | some s => rfl

/-- The texts that can tell the version of the generator: the one in the settings, the one in the
lock file, and the one that the manifest requires. -/
structure VersionTexts where
  setting : Option String
  locked : Option String
  required : Option String

/-- The texts for a configuration and the packages of a lock file. -/
def VersionTexts.of (c : Config) (packages : List (Table String)) : VersionTexts where
  setting := c.generatorVersion
  locked := packages.findSome? generatorVersion?
  required := requirementKeys.findSome? (requirement? c.manifest)

theorem resolveGenerator_eq [Limits]
    (hlock : readManifest s.store (c.root.child "Cargo.lock") = .ok lock)
    (hpackages : HasPackages lock packages) (htables : HasRequirementTables c.manifest) :
    resolveGenerator s.store c = chooseGenerator (VersionTexts.of c packages).setting
      (VersionTexts.of c packages).locked (VersionTexts.of c packages).required := by
  have hrequired : requiredGenerator c.manifest =
      .ok (requirementKeys.findSome? (requirement? c.manifest)) := requirementIn_eq htables
  unfold resolveGenerator
  rw [lockFileVersion_eq hlock hpackages, hrequired]
  rfl

/-! ## The version that counts -/

namespace VersionTexts

open Version (Reads Pins IsShort parse?_of_isShort parse?_of_not_isShort)

variable {x : VersionTexts}

/-- The text in the lock file begins with no version, or there is none. -/
def IsUnlocked (x : VersionTexts) : Prop :=
  ∀ raw v, x.locked = some raw → ¬Reads raw v

/-- The generator that the texts tell of, if they do: the setting comes first, then the lock file,
then a requirement that pins a release. -/
inductive Finds (x : VersionTexts) : Option Generator → Prop
  | setting {raw : String} {v : Version} :
    x.setting = some raw → Reads raw v → Finds x (some ⟨v, .settings⟩)
  | locked {raw : String} {v : Version} :
    x.setting = none → x.locked = some raw → Reads raw v → Finds x (some ⟨v, .lockFile⟩)
  | pinned {raw : String} {v : Version} :
    x.setting = none → x.IsUnlocked → x.required = some raw → Pins raw → Reads raw v →
      Finds x (some ⟨v, .manifest⟩)
  | nothing :
    x.setting = none → x.IsUnlocked → (∀ raw, x.required = some raw → ¬Pins raw) → Finds x none

/-- The setting is a text that begins with no version. -/
def IsRefused (x : VersionTexts) (raw : String) : Prop :=
  x.setting = some raw ∧ ∀ v, ¬Reads raw v

/-- The texts whose versions count have numbers that can be read. -/
structure AreShort (x : VersionTexts) : Prop where
  setting : ∀ raw, x.setting = some raw → IsShort raw
  locked : x.setting = none → ∀ raw, x.locked = some raw → IsShort raw
  required : x.setting = none → x.IsUnlocked → ∀ raw, x.required = some raw → Pins raw →
    IsShort raw

theorem Finds.unique (h : x.Finds found) (h' : x.Finds found') : found = found' := by
  cases h with
  | setting hset hreads =>
    cases h' with
    | setting hset' hreads' =>
      cases hset.symm.trans hset'
      rw [hreads.unique hreads']
    | locked hnone | pinned hnone | nothing hnone => cases hset.symm.trans hnone
  | locked hset hlocked hreads =>
    cases h' with
    | setting hset' => cases hset.symm.trans hset'
    | locked _ hlocked' hreads' =>
      cases hlocked.symm.trans hlocked'
      rw [hreads.unique hreads']
    | pinned _ hunlocked | nothing _ hunlocked => exact (hunlocked _ _ hlocked hreads).elim
  | pinned hset hunlocked hrequired hpins hreads =>
    cases h' with
    | setting hset' => cases hset.symm.trans hset'
    | locked _ hlocked hreads' => exact (hunlocked _ _ hlocked hreads').elim
    | pinned _ _ hrequired' _ hreads' =>
      cases hrequired.symm.trans hrequired'
      rw [hreads.unique hreads']
    | nothing _ _ hloose => exact (hloose _ hrequired hpins).elim
  | nothing hset hunlocked hloose =>
    cases h' with
    | setting hset' => cases hset.symm.trans hset'
    | locked _ hlocked hreads => exact (hunlocked _ _ hlocked hreads).elim
    | pinned _ _ hrequired hpins => exact (hloose _ hrequired hpins).elim
    | nothing => rfl

theorem IsRefused.not_finds {raw : String} (h : x.IsRefused raw) : ¬x.Finds found := by
  intro hfinds
  cases hfinds with
  | setting hset hreads =>
    cases h.1.symm.trans hset
    exact h.2 _ hreads
  | locked hnone | pinned hnone | nothing hnone => cases h.1.symm.trans hnone

theorem generatorAt_of_isShort (source : VersionSource) {raw : String} (h : IsShort raw) :
    (∃ v, Reads raw v ∧ generatorAt source (some raw) = .ok (some ⟨v, source⟩)) ∨
      (∀ v, ¬Reads raw v) ∧ generatorAt source (some raw) = .ok none := by
  unfold generatorAt
  rcases parse?_of_isShort h with ⟨v, hreads, hparse⟩ | ⟨hnone, hparse⟩
  · exact Or.inl ⟨v, hreads, bind_ok_iff.mpr ⟨some v, mapError_ok_iff.mpr hparse, rfl⟩⟩
  · exact Or.inr ⟨hnone, bind_ok_iff.mpr ⟨none, mapError_ok_iff.mpr hparse, rfl⟩⟩

theorem generatorAt_of_not_isShort (source : VersionSource) {raw : String} (h : ¬IsShort raw) :
    ∃ e, generatorAt source (some raw) = .error (.numeral e) := by
  rcases parse?_of_not_isShort h with ⟨e, hparse⟩
  refine ⟨e, ?_⟩
  simp only [generatorAt, hparse]
  rfl

/-- The generator that the texts tell of, as the program looks for it. -/
def choice (x : VersionTexts) : Except ProjectError (Option Generator) :=
  chooseGenerator x.setting x.locked x.required

theorem choice_of_setting {raw : String} (hset : x.setting = some raw) :
    x.choice = (do
      match ← generatorAt .settings (some raw) with
      | some g => return some g
      | none => throw (.generator (.notExact raw))) := by
  unfold choice chooseGenerator
  rw [hset]
  congr 1
  funext g
  cases g <;> rfl

theorem choice_of_locked (hset : x.setting = none) :
    x.choice = (do
      match ← generatorAt .lockFile x.locked with
      | some g => return some g
      | none => generatorAt .manifest (x.required.filter Version.isPin)) := by
  unfold choice chooseGenerator
  rw [hset]
  rfl

/-- Where neither the settings nor the lock file tell a version, a pinned release does. -/
theorem choice_of_required (hset : x.setting = none) (hunlocked : x.IsUnlocked)
    (hlocked : ∀ raw, x.locked = some raw → IsShort raw) :
    x.choice = generatorAt .manifest (x.required.filter Version.isPin) := by
  rw [choice_of_locked hset]
  have hnone : generatorAt .lockFile x.locked = .ok none := by
    cases hlock : x.locked with
    | none => rfl
    | some raw =>
      rcases generatorAt_of_isShort .lockFile (hlocked raw hlock) with ⟨v, hreads, -⟩ | ⟨-, h⟩
      · exact (hunlocked raw v hlock hreads).elim
      · exact h
  rw [hnone]
  rfl

theorem choice_of_areShort (h : x.AreShort) :
    (∃ found, x.Finds found ∧ x.choice = .ok found) ∨
      ∃ raw, x.IsRefused raw ∧ x.choice = .error (.generator (.notExact raw)) := by
  cases hset : x.setting with
  | some raw =>
    rw [choice_of_setting hset]
    rcases generatorAt_of_isShort .settings (h.setting raw hset) with
      ⟨v, hreads, hat⟩ | ⟨hnone, hat⟩
    · exact Or.inl ⟨_, .setting hset hreads, by rw [hat]; rfl⟩
    · exact Or.inr ⟨raw, ⟨hset, hnone⟩, by rw [hat]; rfl⟩
  | none =>
    left
    -- the manifest counts only if the lock file tells nothing, be it by a text that is no version
    by_cases hlock : ∃ raw v, x.locked = some raw ∧ Reads raw v
    · rcases hlock with ⟨raw, v, hlock, hreads⟩
      rw [choice_of_locked hset, hlock]
      rcases generatorAt_of_isShort .lockFile (h.locked hset raw hlock) with
        ⟨w, hreads', hat⟩ | hnone
      · exact ⟨_, .locked hset hlock hreads', by rw [hat]; rfl⟩
      · exact (hnone.1 v hreads).elim
    · have hunlocked : x.IsUnlocked := fun raw v hraw hreads => hlock ⟨raw, v, hraw, hreads⟩
      rw [choice_of_required hset hunlocked (h.locked hset)]
      cases hrequired : x.required with
      | none => exact ⟨none, .nothing hset hunlocked (by simp [hrequired]), rfl⟩
      | some raw =>
        by_cases hpins : Pins raw
        · rw [Option.filter_some_pos (Version.isPin_iff.mpr hpins)]
          rcases generatorAt_of_isShort .manifest
            (h.required hset hunlocked raw hrequired hpins) with ⟨v, hreads, hat⟩ | hnone
          · exact ⟨_, .pinned hset hunlocked hrequired hpins hreads, hat⟩
          · rcases hpins.reads with ⟨v, hreads⟩
            exact (hnone.1 v hreads).elim
        · have hloose : Version.isPin raw = false :=
            Bool.eq_false_iff.mpr (fun hpin => hpins (Version.isPin_iff.mp hpin))
          rw [Option.filter_some_neg hloose]
          refine ⟨none, .nothing hset hunlocked ?_, rfl⟩
          rintro _ hraw
          cases hrequired.symm.trans hraw
          exact hpins

theorem choice_of_not_areShort (h : ¬x.AreShort) : ∃ e, x.choice = .error (.numeral e) := by
  have hlong : ∀ {source raw f}, ¬IsShort raw →
      ∃ e, (generatorAt source (some raw) >>= f : Except ProjectError (Option Generator)) =
        .error (.numeral e) := by
    intro source raw f hraw
    rcases generatorAt_of_not_isShort source hraw with ⟨e, hat⟩
    exact ⟨e, by rw [hat]; rfl⟩
  cases hset : x.setting with
  | some raw =>
    rw [choice_of_setting hset]
    apply hlong
    intro hraw
    -- the conditions on the other two texts are for projects without a setting
    apply h
    constructor
    · rintro _ hraw'
      cases hset.symm.trans hraw'
      exact hraw
    · intro hnone
      cases hset.symm.trans hnone
    · intro hnone
      cases hset.symm.trans hnone
  | none =>
    by_cases hlocked : ∀ raw, x.locked = some raw → IsShort raw
    · have hrequired : ¬(x.IsUnlocked → ∀ raw, x.required = some raw → Pins raw → IsShort raw) := by
        intro hrequired
        exact h ⟨by simp [hset], fun _ => hlocked, fun _ => hrequired⟩
      push Not at hrequired
      rcases hrequired with ⟨hunlocked, raw, hraw, hpins, hlong⟩
      rw [choice_of_required hset hunlocked hlocked, hraw,
        Option.filter_some_pos (Version.isPin_iff.mpr hpins)]
      exact generatorAt_of_not_isShort .manifest hlong
    · push Not at hlocked
      rcases hlocked with ⟨raw, hraw, hlock⟩
      rw [choice_of_locked hset, hraw]
      exact hlong hlock

end VersionTexts

/-! ## How the gate ends -/

/-- The generator is unknown, or of a version that the passes do not know. -/
def IsForeign (found : Option Generator) : Prop :=
  ∀ g, found = some g → ¬g.version.IsKnown

/-- What is said against a generator that is foreign. -/
def complaint : Option Generator → GeneratorError
  | none => .undetermined
  | some g => .unsupported g

/-- The line that warns of a generator that is foreign. -/
def foreignWarning (found : Option Generator) : String :=
  Session.line .warning ((complaint found).message ++ "; continuing because the check is skipped")

/-- How the gate has to end: it lets a known generator pass without a word; it warns once of a
foreign one if the check is skipped, and refuses it if not; and it refuses a setting that is no
version. -/
inductive VersionTexts.Gates (x : VersionTexts) (skips : Bool) (s : Session) :
    Except Failure (Option Generator) → Session → Prop
  | passes {g : Generator} :
    x.Finds (some g) → g.version.IsKnown → Gates x skips s (.ok (some g)) s
  | warns {found : Option Generator} :
    x.Finds found → IsForeign found → skips = true →
      Gates x skips s (.ok found) { s with said := s.said ++ [foreignWarning found] }
  | refuses {found : Option Generator} :
    x.Finds found → IsForeign found → skips = false →
      Gates x skips s (.error (.project (.generator (complaint found)))) s
  | unreadable {raw : String} :
    x.IsRefused raw → Gates x skips s (.error (.project (.generator (.notExact raw)))) s

theorem objection?_eq_none {g : Generator} (h : g.version.IsKnown) :
    objection? (some g) = none := by
  simp only [objection?, Version.isSupported_iff.mpr h, if_true]

theorem objection?_eq_some (h : IsForeign found) : objection? found = some (complaint found) := by
  cases found with
  | none => rfl
  | some g =>
    have hnot : ¬g.version.isSupported = true := fun hsupported =>
      h g rfl (Version.isSupported_iff.mp hsupported)
    simp only [objection?, hnot, complaint]
    rfl

theorem isKnown_or_isForeign (found : Option Generator) :
    (∃ g, found = some g ∧ g.version.IsKnown) ∨ IsForeign found := by
  by_cases h : ∃ g, found = some g ∧ g.version.IsKnown
  · exact Or.inl h
  · exact Or.inr fun g hg hknown => h ⟨g, hg, hknown⟩

theorem ends_checkGeneratorAction_warning [Limits] {e : GeneratorError}
    (h : checkGenerator s.store c = .ok (found, some e)) :
    Ends (checkGeneratorAction c) s (.ok found) (s.say .warning
      (e.message ++ "; continuing because the check is skipped")) := by
  unfold checkGeneratorAction
  rw [ends_get_bind, h, ends_ofExcept_ok_bind]
  exact (ends_modify.mpr ⟨rfl, rfl⟩).bind (ends_pure.mpr ⟨rfl, rfl⟩)

/-- The gate fails only where the check does, and leaves the session as it was. -/
theorem ends_checkGeneratorAction_error_iff [Limits] {e : Failure} :
    Ends (checkGeneratorAction c) s (.error e) t ↔
      ∃ cause, checkGenerator s.store c = .error cause ∧ e = .project cause ∧ t = s := by
  cases hcheck : checkGenerator s.store c with
  | error cause =>
    unfold checkGeneratorAction
    rw [ends_get_bind, hcheck, ends_ofExcept_error_bind]
    simp
  | ok result =>
    rcases result with ⟨found, objection⟩
    have hends : ∃ u, Ends (checkGeneratorAction c) s (.ok found) u := by
      cases objection with
      | none => exact ⟨_, ends_checkGeneratorAction hcheck⟩
      | some cause => exact ⟨_, ends_checkGeneratorAction_warning hcheck⟩
    rcases hends with ⟨u, hends⟩
    apply iff_of_false
    · intro h
      cases (h.unique hends).1
    · rintro ⟨cause, ⟨⟩, -⟩

theorem checkGenerator_of_isKnown [Limits] {store : Store} {g : Generator}
    (hfound : resolveGenerator store c = .ok (some g)) (hknown : g.version.IsKnown) :
    checkGenerator store c = .ok (some g, none) := by
  refine bind_ok_iff.mpr ⟨some g, hfound, ?_⟩
  rw [objection?_eq_none hknown]
  rfl

theorem checkGenerator_of_isForeign [Limits] {store : Store}
    (hfound : resolveGenerator store c = .ok found) (hforeign : IsForeign found) :
    checkGenerator store c = if c.skipsGeneratorCheck then .ok (found, some (complaint found))
      else .error (.generator (complaint found)) := by
  simp only [checkGenerator, hfound, bind, Except.bind, objection?_eq_some hforeign]
  rfl

namespace VersionTexts

variable {x : VersionTexts}

theorem Gates.unique {skips : Bool} {r r' : Except Failure (Option Generator)} {t t' : Session}
    (h : x.Gates skips s r t) (h' : x.Gates skips s r' t') : r = r' ∧ t = t' := by
  cases h with
  | passes hfinds hknown =>
    cases h' with
    | passes hfinds' =>
      cases hfinds.unique hfinds'
      exact ⟨rfl, rfl⟩
    | warns hfinds' hforeign | refuses hfinds' hforeign =>
      cases hfinds.unique hfinds'
      exact (hforeign _ rfl hknown).elim
    | unreadable hrefused => exact (hrefused.not_finds hfinds).elim
  | warns hfinds hforeign hskips =>
    cases h' with
    | passes hfinds' hknown =>
      cases hfinds.unique hfinds'
      exact (hforeign _ rfl hknown).elim
    | warns hfinds' =>
      cases hfinds.unique hfinds'
      exact ⟨rfl, rfl⟩
    | refuses _ _ hstays => cases hskips.symm.trans hstays
    | unreadable hrefused => exact (hrefused.not_finds hfinds).elim
  | refuses hfinds hforeign hstays =>
    cases h' with
    | passes hfinds' hknown =>
      cases hfinds.unique hfinds'
      exact (hforeign _ rfl hknown).elim
    | warns _ _ hskips => cases hskips.symm.trans hstays
    | refuses hfinds' =>
      cases hfinds.unique hfinds'
      exact ⟨rfl, rfl⟩
    | unreadable hrefused => exact (hrefused.not_finds hfinds).elim
  | unreadable hrefused =>
    cases h' with
    | passes hfinds | warns hfinds | refuses hfinds => exact (hrefused.not_finds hfinds).elim
    | unreadable hrefused' =>
      cases hrefused.1.symm.trans hrefused'.1
      exact ⟨rfl, rfl⟩

/-- The gate is as it has to be if the numbers that it reads are short. -/
theorem exists_gates_of_areShort [Limits] (hresolve : resolveGenerator s.store c = x.choice)
    (h : x.AreShort) :
    ∃ r t, Ends (checkGeneratorAction c) s r t ∧ x.Gates c.skipsGeneratorCheck s r t := by
  rcases choice_of_areShort h with ⟨found, hfinds, hchoice⟩ | ⟨raw, hrefused, hchoice⟩
  · rw [hchoice] at hresolve
    rcases isKnown_or_isForeign found with ⟨g, rfl, hknown⟩ | hforeign
    · exact ⟨_, _, ends_checkGeneratorAction (checkGenerator_of_isKnown hresolve hknown),
        .passes hfinds hknown⟩
    · have hcheck := checkGenerator_of_isForeign hresolve hforeign
      cases hskips : c.skipsGeneratorCheck with
      | true =>
        rw [hskips, if_pos rfl] at hcheck
        exact ⟨_, _, ends_checkGeneratorAction_warning hcheck, .warns hfinds hforeign rfl⟩
      | false =>
        rw [hskips, if_neg Bool.false_ne_true] at hcheck
        exact ⟨_, _, ends_checkGeneratorAction_error_iff.mpr ⟨_, hcheck, rfl, rfl⟩,
          .refuses hfinds hforeign rfl⟩
  · rw [hchoice] at hresolve
    have hcheck : checkGenerator s.store c = .error (.generator (.notExact raw)) := by
      unfold checkGenerator
      rw [hresolve]
      rfl
    exact ⟨_, _, ends_checkGeneratorAction_error_iff.mpr ⟨_, hcheck, rfl, rfl⟩,
      .unreadable hrefused⟩

theorem ends_of_not_areShort [Limits] (hresolve : resolveGenerator s.store c = x.choice)
    (h : ¬x.AreShort) :
    ∃ e, Ends (checkGeneratorAction c) s (.error (.project (.numeral e))) s := by
  rcases choice_of_not_areShort h with ⟨e, hchoice⟩
  refine ⟨e, ends_checkGeneratorAction_error_iff.mpr ⟨_, ?_, rfl, rfl⟩⟩
  unfold checkGenerator
  rw [hresolve, hchoice]
  rfl

theorem gates_iff_areShort [Limits] (hresolve : resolveGenerator s.store c = x.choice) :
    (∀ r t, Ends (checkGeneratorAction c) s r t ↔ x.Gates c.skipsGeneratorCheck s r t) ↔
      x.AreShort := by
  constructor
  · intro h
    by_contra hlong
    rcases ends_of_not_areShort hresolve hlong with ⟨e, hends⟩
    -- no way in which the gate has to end is the failure of a number
    cases (h _ _).mp hends
  · intro h r t
    rcases exists_gates_of_areShort hresolve h with ⟨r', t', hends, hgates⟩
    constructor
    · intro hends'
      rcases hends'.unique hends with ⟨rfl, rfl⟩
      exact hgates
    · intro hgates'
      rcases hgates'.unique hgates with ⟨rfl, rfl⟩
      exact hends

end VersionTexts

/-! ## Nothing happens before the gate -/

/-- The gate depends on the lock file only. -/
theorem checkGenerator_congr [Limits] {store store' : Store}
    (h : readManifest store' (c.root.child "Cargo.lock") =
      readManifest store (c.root.child "Cargo.lock")) :
    checkGenerator store' c = checkGenerator store c := by
  unfold checkGenerator resolveGenerator lockFileVersion
  rw [h]

/-- A run whose gate fails ends there, whatever the package is and whatever tools there are, and
leaves the session as it was; so does one that sees another package with the same lock file. -/
theorem ends_polishPackage_of_gate [Limits] {e : Failure} {search : ToolSearch} {dryRun : Bool}
    (h : Ends (checkGeneratorAction c) s (.error e) t)
    (hlock : readManifest s'.store (c.root.child "Cargo.lock") =
      readManifest s.store (c.root.child "Cargo.lock")) :
    Ends (polishPackage c search dryRun) s' (.error e) s' := by
  rcases ends_checkGeneratorAction_error_iff.mp h with ⟨cause, hcheck, he, -⟩
  rw [← checkGenerator_congr hlock] at hcheck
  have hgate : Ends (checkGeneratorAction c) s' (.error e) s' :=
    ends_checkGeneratorAction_error_iff.mpr ⟨cause, hcheck, he, rfl⟩
  -- the gate is the first step of a run
  exact hgate.bind_error

/-- The gate ends as the texts that tell a version demand, exactly if the numbers that it reads are
short; and a run whose gate fails ends with it, before anything else is read, called or written. -/
theorem checkGeneratorAction_gates_iff [Limits]
    (hlock : readManifest s.store (c.root.child "Cargo.lock") = .ok lock)
    (hpackages : HasPackages lock packages) (htables : HasRequirementTables c.manifest) :
    ((∀ r t, Ends (checkGeneratorAction c) s r t ↔
        (VersionTexts.of c packages).Gates c.skipsGeneratorCheck s r t) ↔
      (VersionTexts.of c packages).AreShort) ∧
    ∀ e t, Ends (checkGeneratorAction c) s (.error e) t →
      ∀ search dryRun s', readManifest s'.store (c.root.child "Cargo.lock") = .ok lock →
        Ends (polishPackage c search dryRun) s' (.error e) s' := by
  refine ⟨VersionTexts.gates_iff_areShort (resolveGenerator_eq hlock hpackages htables), ?_⟩
  intro e t h search dryRun s' hlock'
  exact ends_polishPackage_of_gate h (hlock'.trans hlock.symm)

/-! ### A setting that is too long -/

/-- A project whose lock file names a generator of a known version. -/
def lockedSession : Session where
  store := ⟨[(["Cargo.lock"], .file (Text.encode
    "[[package]]\nname = \"wasm-bindgen\"\nversion = \"0.2.29\"".toList) false)]⟩
  directory := []
  environment := []
  said := []
  steps := []

/-- The package in its lock file. -/
def lockedPackage : Table String :=
  [("name", .text "wasm-bindgen"), ("version", .text "0.2.29")]

theorem readManifest_lockedSession [Limits] :
    readManifest lockedSession.store ⟨1, ["Cargo.lock"]⟩ =
      .ok [("package", .list [.table lockedPackage])] := by
  with_unfolding_all rfl

/-- The small configuration with another version for the generator. -/
def configWithVersion (version : Option String) : Config :=
  { smallConfig with generatorVersion := version }

theorem hasRequirementTables_configWithVersion (version : Option String) :
    HasRequirementTables (configWithVersion version).manifest := by
  intro key _ v hv
  cases hv

/-- The written version `0.2.29`, with more zeros in front. -/
def paddedVersion (zeros : Nat) : Version.Written :=
  ⟨List.replicate (zeros + 1) '0', ['2'], ['2', '9']⟩

theorem isNumeric_paddedVersion (zeros : Nat) : (paddedVersion zeros).IsNumeric := by
  have hminor : ∀ d ∈ ['2'], isDecimal d = true := List.all_eq_true.mp rfl
  have hpatch : ∀ d ∈ ['2', '9'], isDecimal d = true := List.all_eq_true.mp rfl
  constructor
  · refine ⟨List.cons_ne_nil _ _, fun d hd => ?_⟩
    rw [List.eq_of_mem_replicate hd]
    rfl
  · exact ⟨List.cons_ne_nil _ _, hminor⟩
  · exact ⟨List.cons_ne_nil _ _, hpatch⟩

theorem value_paddedVersion (zeros : Nat) : (paddedVersion zeros).value = ⟨0, 2, 29⟩ := by
  have hzero : ∀ k, Version.numeralValue (List.replicate k '0') = 0 := by
    intro k
    induction k with
    | zero => rfl
    | succ k ih => exact ih
  unfold Version.Written.value
  rw [paddedVersion, hzero]
  rfl

/-- The text of such a version. -/
def paddedText (zeros : Nat) : String :=
  String.ofList (paddedVersion zeros).text

theorem begins_paddedText (zeros : Nat) :
    Version.Begins false (paddedText zeros).toList (paddedVersion zeros) [] := by
  refine ⟨[], ⟨[], [], [], nofun, nofun, Or.inl rfl, rfl⟩, isNumeric_paddedVersion zeros, ?_, rfl⟩
  rw [paddedText, String.toList_ofList, List.append_nil, List.nil_append]

theorem reads_paddedText (zeros : Nat) : Version.Reads (paddedText zeros) ⟨0, 2, 29⟩ :=
  ⟨false, _, [], begins_paddedText zeros, value_paddedVersion zeros⟩

theorem hasPackages_lockedPackage :
    HasPackages [("package", .list [.table lockedPackage])] [lockedPackage] :=
  Or.inr rfl

theorem checkGeneratorAction_lockedSession :
    readManifest lockedSession.store ⟨1, ["Cargo.lock"]⟩ =
        .ok [("package", .list [.table lockedPackage])] ∧
      HasPackages [("package", .list [.table lockedPackage])] [lockedPackage] ∧
      HasRequirementTables (configWithVersion none).manifest ∧
      (VersionTexts.of (configWithVersion none) [lockedPackage]).AreShort ∧
      Ends (checkGeneratorAction (configWithVersion none)) lockedSession
        (.ok (some ⟨⟨0, 2, 29⟩, .lockFile⟩)) lockedSession := by
  have htables := hasRequirementTables_configWithVersion none
  have hlocked : (VersionTexts.of (configWithVersion none) [lockedPackage]).locked =
      some "0.2.29" := by
    rfl
  have hshort : (VersionTexts.of (configWithVersion none) [lockedPackage]).AreShort := by
    refine ⟨nofun, fun _ raw hraw => ?_, fun _ _ raw hraw => by cases hraw⟩
    cases hlocked.symm.trans hraw
    exact Version.isShort_of_length (by decide)
  have hreads : Version.Reads "0.2.29" ⟨0, 2, 29⟩ := reads_paddedText 0
  have hknown : Version.IsKnown ⟨0, 2, 29⟩ := Version.isSupported_iff.mp rfl
  have hgate := checkGeneratorAction_gates_iff readManifest_lockedSession
    hasPackages_lockedPackage htables
  exact ⟨readManifest_lockedSession, hasPackages_lockedPackage, htables, hshort,
    (hgate.1.mpr hshort _ _).mpr (.passes (.locked rfl hlocked hreads) hknown)⟩

/-- A setting for a known version, with more zeros than can be read, has to pass and ends with
another failure. -/
theorem checkGeneratorAction_paddedVersion :
    readManifest lockedSession.store ⟨1, ["Cargo.lock"]⟩ =
        .ok [("package", .list [.table lockedPackage])] ∧
      HasPackages [("package", .list [.table lockedPackage])] [lockedPackage] ∧
      HasRequirementTables (configWithVersion (paddedText 4300)).manifest ∧
      (VersionTexts.of (configWithVersion (paddedText 4300)) [lockedPackage]).Gates false
        lockedSession (.ok (some ⟨⟨0, 2, 29⟩, .settings⟩)) lockedSession ∧
      ∃ e, Ends (checkGeneratorAction (configWithVersion (paddedText 4300))) lockedSession
        (.error (.project (.numeral e))) lockedSession := by
  have htables := hasRequirementTables_configWithVersion (paddedText 4300)
  have hknown : Version.IsKnown ⟨0, 2, 29⟩ := Version.isSupported_iff.mp rfl
  refine ⟨readManifest_lockedSession, hasPackages_lockedPackage, htables,
    .passes (.setting rfl (reads_paddedText 4300)) hknown, ?_⟩
  apply VersionTexts.ends_of_not_areShort
    (resolveGenerator_eq readManifest_lockedSession hasPackages_lockedPackage htables)
  intro hshort
  have hmajor := (hshort.setting _ rfl _ _ _ (begins_paddedText 4300)).major
  rw [paddedVersion, List.length_replicate] at hmajor
  exact absurd hmajor (by decide)

end WasmPackage
