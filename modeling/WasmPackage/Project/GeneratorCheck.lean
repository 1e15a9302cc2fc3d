import WasmPackage.Project.Config

/-!
# Checking the generator

The shapes that the passes look for are those of certain versions of the bindings generator.  The
version is looked for in the settings, then in the lock file, then in the manifest, and a package of
another version is refused unless the settings say otherwise.
-/

namespace WasmPackage

/-- The values that going through a value gives: items of a list, keys of a table, characters of a
text. -/
def itemsOf : Value String → Except ShapeError (List (Value String))
  | .list vs => .ok vs
  | .table entries => .ok (entries.map (fun e => .text e.1))
  | .text s => .ok (s.toList.map (fun c => .text c.toString))
  | _ => .error .noItems

/-- The version of the first package of a lock file that is the generator and has a text for
version. -/
def lockedVersion : List (Value String) → Except ShapeError (Option String)
  | [] => .ok none
  | package :: r => do
    match ← package.entry "name" .null with
    | .text name =>
      if name = generatorName then
        match ← package.entry "version" .null with
        | .text version => return some version
        | _ => lockedVersion r
      else lockedVersion r
    | _ => lockedVersion r

/-- The version of the generator in the lock file of a project. -/
def lockFileVersion [Limits] (s : Store) (root : Path) : Except ProjectError (Option String) := do
  let lock ← readManifest s (root.child "Cargo.lock")
  let packages ← (itemsOf ((lock.lookup "package").getD (.list []))).mapError .shape
  (lockedVersion packages).mapError .shape

/-- The text of a requirement, which may be a table with a version. -/
def requirementText : Value String → Option String
  | .text s => some s
  | .table entries =>
    match entries.lookup "version" with
    | some (.text s) => some s
    | _ => none
  | _ => none

/-- What a manifest requires of the generator, in the first of these tables that says so. -/
def requirementIn (manifest : Table String) : List String → Except ShapeError (Option String)
  | [] => .ok none
  | key :: r => do
    let requirement ← ((manifest.lookup key).getD (.table [])).entry generatorName .null
    match requirementText requirement with
    | some s => return some s
    | none => requirementIn manifest r

/-- What a manifest requires of the generator. -/
def requiredGenerator (manifest : Table String) : Except ShapeError (Option String) :=
  requirementIn manifest ["dependencies", "build-dependencies"]

/-- The generator of the version in a text that was found at some place. -/
def generatorAt (source : VersionSource) : Option String → Except ProjectError (Option Generator)
  | none => .ok none
  | some raw => do return (← (Version.parse? raw).mapError .numeral).map (⟨·, source⟩)

/-- The generator that versions found in the three places stand for.  One in the settings must be a
version; one in the manifest counts only if it pins a release. -/
def chooseGenerator (setting locked required : Option String) :
    Except ProjectError (Option Generator) := do
  match setting, ← generatorAt .settings setting with
  | some raw, none => throw (.generator (.notExact raw))
  | _, some g => return some g
  | none, none =>
    match ← generatorAt .lockFile locked with
    | some g => return some g
    | none => generatorAt .manifest (required.filter Version.isPin)

/-- The generator of a project. -/
def resolveGenerator [Limits] (s : Store) (c : Config) :
    Except ProjectError (Option Generator) := do
  let locked ← lockFileVersion s c.root
  let required ← (requiredGenerator c.manifest).mapError .shape
  chooseGenerator c.generatorVersion locked required

/-- What there is to say against a generator. -/
def objection? : Option Generator → Option GeneratorError
  | none => some .undetermined
  | some g => if g.version.isSupported then none else some (.unsupported g)

/-- The generator of a project, with an objection that is only to be warned of because the check is
skipped. -/
def checkGenerator [Limits] (s : Store) (c : Config) :
    Except ProjectError (Option Generator × Option GeneratorError) := do
  let found ← resolveGenerator s c
  match objection? found with
  | none => return (found, none)
  | some e => if c.skipsGeneratorCheck then return (found, some e) else throw (.generator e)

end WasmPackage
