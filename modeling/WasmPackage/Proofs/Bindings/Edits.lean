import WasmPackage.Bindings.Declarations
import WasmPackage.Bindings.Glue
import WasmPackage.Proofs.Bindings.Recording
import WasmPackage.Proofs.Script.Places

/-!
# The edits of the passes

A pass records edits that can be told from the outline: those of each accessor, those of the loader,
and those of each output method.  What keeps it from them is a shape that the outline lacks, a
method whose types disagree, a number that is not known or cannot be written, or a name that is
taken.
-/

namespace WasmPackage.Bindings

open Script (ClassShape FunctionShape Member Outline Token TypeNote)

variable {b b' : Revision} {t : Text} {o : Outline} {c : ClassShape × Member} {m : Member}
  {offsets : OffsetTable} {internal artifact type : String} {span : Nat × Nat}

/-! ## Outlines -/

theorem outline_of_outlineOf [Limits]
    (h : outlineOf artifact t = .ok o) : Script.outline t = .ok o := by
  unfold outlineOf at h
  split at h
  · next o' houtline =>
    cases h
    exact houtline
  · split at h
    · cases h
    · cases h
  · cases h

theorem outlineOf_of_outline [Limits]
    (h : Script.outline t = .ok o) : outlineOf artifact t = .ok o := by
  rw [outlineOf, h]

/-- A pass looks at the outline first. -/
theorem eq_ok_iff_exists_outline [Limits] {α : Type} {x : Except RevisionError α} {r : α}
    {f : Outline → Except RevisionError α} {P : Outline → Prop}
    (hx : x = outlineOf artifact t >>= f)
    (h : ∀ o, Script.outline t = .ok o → (x = .ok r ↔ P o)) :
    x = .ok r ↔ ∃ o, Script.outline t = .ok o ∧ P o := by
  constructor
  · intro hr
    obtain ⟨o, houtlineOf, -⟩ := bind_ok_iff.mp (hx.symm.trans hr)
    have houtline := outline_of_outlineOf houtlineOf
    exact ⟨o, houtline, (h o houtline).mp hr⟩
  · rintro ⟨o, houtline, hP⟩
    exact (h o houtline).mpr hP

/-! ## Statements -/

/-- The edit that removes a statement, with its lines if nothing else stands on them. -/
def removalOf (t : Text) (s : Script.Statement) : Edit :=
  ⟨(t.lineSpan s.start s.stop).1, (t.lineSpan s.start s.stop).2, []⟩

theorem removalOf_ordered {s : Script.Statement} (hlt : s.start < s.stop) :
    (removalOf t s).start < (removalOf t s).stop := by
  have hgrows := t.growsByBlanks_lineSpan s.start s.stop
  exact Nat.lt_of_le_of_lt hgrows.first_le (Nat.lt_of_lt_of_le hlt hgrows.le_last)

theorem deleteStatements_eq {statements : List Script.Statement} (htext : b.text = t)
    (hplaces : ∀ s ∈ statements, s.start < s.stop ∧ s.stop ≤ t.length) :
    deleteStatements b statements = record b (statements.map (removalOf t)) := by
  induction statements generalizing b with
  | nil => rfl
  | cons s rest ih =>
    obtain ⟨⟨hlt, hstop⟩, hrest⟩ := List.forall_mem_cons.mp hplaces
    have hfirst : (b.deleteLines s.start s.stop).mapError RevisionError.conflict =
        record b [removalOf t s] := by
      rw [Revision.deleteLines_eq (by rw [htext]; omega) (htext ▸ hstop), htext]
      exact replaceIn_eq b _ _
    unfold deleteStatements at ih ⊢
    rw [List.foldlM_cons, hfirst]
    exact record_then fun b' hb' => ih (hb'.trans htext) hrest

theorem place_of_statementsOf [Limits] {words : List String} {s : Script.Statement}
    (h : Script.outline t = .ok o) (hwords : words ≠ []) (hs : s ∈ o.statementsOf words) :
    s.start < s.stop ∧ s.stop ≤ t.length := by
  rcases List.mem_filter.mp hs with ⟨hmem, hsame⟩
  rw [decide_eq_true_eq] at hsame
  exact Script.place_of_statement h hmem (hsame ▸ hwords)

theorem deleteStatements_statementsOf [Limits] {words : List String}
    (houtline : Script.outline t = .ok o) (htext : b.text = t)
    (hwords : words ≠ []) : deleteStatements b (o.statementsOf words) =
      record b ((o.statementsOf words).map (removalOf t)) :=
  deleteStatements_eq htext fun _ hs => place_of_statementsOf houtline hwords hs

/-! ## Output methods -/

/-- A method that writes its result of this type into its first parameter, and has the word `void`
in its documentation at this span. -/
structure IsOutput (m : Member) (type : String) (span : Nat × Nat) : Prop where
  method : m.kind = .method
  static : m.isStatic = true
  first : ∃ first rest, m.params = first :: rest ∧ first.name = outName ∧
    ∀ declared, first.type = some declared → declared = type
  documented : ∃ doc, m.doc = some doc ∧ doc.voidSpan? = some span ∧
    (doc.typesOfParameter outName).getLast? = some type

theorem outputType?_eq_some_iff :
    outputType? artifact m = .ok (some (type, span)) ↔ IsOutput m type span := by
  constructor
  · intro h
    unfold outputType? at h
    split at h
    · next doc first rest hdoc hparams =>
      split at h
      · next hshape =>
        simp only [Bool.and_eq_true, decide_eq_true_eq] at hshape
        rcases hshape with ⟨⟨hmethod, hstatic⟩, hname⟩
        split at h
        · next span' type' hvoid htype =>
          split at h
          · next declared hdeclared =>
            split at h
            · next hagree =>
              cases h
              exact ⟨hmethod, hstatic, ⟨first, rest, hparams, hname, by simp [hdeclared, hagree]⟩,
                doc, hdoc, hvoid, htype⟩
            · cases h
          · next hdeclared =>
            cases h
            exact ⟨hmethod, hstatic, ⟨first, rest, hparams, hname, by simp [hdeclared]⟩,
              doc, hdoc, hvoid, htype⟩
        · cases h
      · cases h
    · cases h
  · rintro ⟨hmethod, hstatic, ⟨first, rest, hparams, hname, hagree⟩, doc, hdoc, hvoid, htype⟩
    unfold outputType?
    rw [hdoc, hparams]
    simp only [hmethod, hstatic, hname, hvoid, htype, decide_true, Bool.and_self, if_true]
    cases hdeclared : first.type with
    | none => rfl
    | some declared => simp [hagree declared hdeclared]

/-- The output type of a member, and the span of the `void` in its documentation. -/
def output? (m : Member) : Option (String × (Nat × Nat)) :=
  (outputType? glueArtifact m).toOption.join

theorem output?_eq_some_iff : output? m = some (type, span) ↔ IsOutput m type span := by
  have hiff : outputType? glueArtifact m = .ok (some (type, span)) ↔ IsOutput m type span :=
    outputType?_eq_some_iff
  rw [← hiff, output?]
  cases outputType? glueArtifact m with
  | error e => simp [Except.toOption]
  | ok found => simp [Except.toOption]

/-- The name of the artifact appears in failures only. -/
theorem exists_outputType?_eq (m : Member) :
    ∃ found : Except Obstacle (Option (String × (Nat × Nat))), ∀ artifact,
      outputType? artifact m = found.mapError (.missing artifact .outputMethod) := by
  unfold outputType?
  cases m.doc with
  | none => exact ⟨.ok none, fun _ => rfl⟩
  | some doc =>
    cases m.params with
    | nil => exact ⟨.ok none, fun _ => rfl⟩
    | cons first rest =>
      simp only
      split
      case isFalse => exact ⟨.ok none, fun _ => rfl⟩
      case isTrue =>
        split
        case h_2 => exact ⟨.ok none, fun _ => rfl⟩
        case h_1 span type _ _ =>
          split
          case h_2 => exact ⟨.ok (some (type, span)), fun _ => rfl⟩
          case h_1 declared _ =>
            split
            case isTrue => exact ⟨.ok (some (type, span)), fun _ => rfl⟩
            case isFalse => exact ⟨.error (.typesDisagree m.name type declared), fun _ => rfl⟩

/-- The types that a member gives for its first parameter do not disagree. -/
def TypesAgree (m : Member) : Prop :=
  ∀ artifact, outputType? artifact m = .ok (output? m)

/-- Types that disagree are found to, whatever the artifact is. -/
theorem outputType?_of_not_typesAgree (h : ¬ TypesAgree m) (artifact : String) : ∃ obstacle,
    outputType? artifact m = .error (.missing artifact .outputMethod obstacle) := by
  obtain ⟨found, hfound⟩ := exists_outputType?_eq m
  cases found with
  | error obstacle => exact ⟨obstacle, hfound artifact⟩
  | ok found =>
    refine (h fun artifact => ?_).elim
    rw [output?, hfound, hfound]
    rfl

/-! ## Declarations -/

/-- The edit that makes a property of an accessor with a parameter list. -/
def propertyEdits (m : Member) : List Edit :=
  (m.paramsStop.map fun stop => ⟨m.start, stop, ("readonly " ++ accessorName).toList⟩).toList

theorem isStep_declareAccessor {fails : RevisionError → Prop} (found : List String) :
    IsStep False fails b (propertyEdits c.2)
      (fun b => (b, found ++ (c.2.paramsStop.map fun _ => c.1.name).toList))
      (declareAccessor (b, found) c) := by
  unfold declareAccessor propertyEdits
  cases c.2.paramsStop with
  | none => exact .pass not_false
  | some stop => exact .replace (.of_ok not_false)

/-- What a method that is declared to return nothing gives: the place of that, the type of its
result, and the place in its documentation. -/
def declaredOutput? (m : Member) : Option (TypeNote × String × (Nat × Nat)) := do
  let note ← m.returnType
  let (type, span) ← output? m
  if note.text = "void" then some (note, type, span) else none

theorem declaredOutput?_eq_some_iff {note : TypeNote} :
    declaredOutput? m = some (note, type, span) ↔
      m.returnType = some note ∧ note.text = "void" ∧ IsOutput m type span := by
  rw [← output?_eq_some_iff]
  simp only [declaredOutput?, Option.bind_eq_bind, Option.bind_eq_some_iff,
    Option.ite_none_right_eq_some, Option.some.injEq, Prod.mk.injEq, Prod.exists]
  constructor
  · rintro ⟨note', hnote, type', first, last, houtput, hvoid, rfl, rfl, rfl⟩
    exact ⟨hnote, hvoid, houtput⟩
  · rintro ⟨hnote, hvoid, houtput⟩
    exact ⟨note, hnote, type, span.1, span.2, houtput, hvoid, rfl, rfl, rfl⟩

/-- The edits that declare the result of an output method. -/
def resultEdits (m : Member) : List Edit :=
  (declaredOutput? m).elim [] fun (note, type, span) =>
    [⟨note.start, note.stop, type.toList⟩, ⟨span.1, span.2, type.toList⟩]

/-- The member is declared to return nothing. -/
def DeclaresVoid (m : Member) : Prop :=
  ∃ note, m.returnType = some note ∧ note.text = "void"

/-- A method that is declared to return nothing gets a result, unless its types disagree. -/
theorem isStep_declareOutput (found : List OutMethod) :
    IsStep (DeclaresVoid c.2 ∧ ¬ TypesAgree c.2) RevisionError.IsMissing b (resultEdits c.2)
      (fun b => (b, found ++
        ((declaredOutput? c.2).map fun r => ⟨c.1.name, c.2.name, r.2.1⟩).toList))
      (declareOutput (b, found) c) := by
  unfold declareOutput
  cases hnote : c.2.returnType with
  | none =>
    have hnone : declaredOutput? c.2 = none := by simp [declaredOutput?, hnote]
    have hnot : ¬ DeclaresVoid c.2 := by simp [DeclaresVoid, hnote]
    rw [resultEdits, hnone]
    exact .pass fun h => hnot h.1
  | some note =>
    by_cases hvoid : note.text = "void"
    case neg =>
      have hnone : declaredOutput? c.2 = none := by
        cases hfound : output? c.2 <;> simp [declaredOutput?, hnote, hvoid, hfound]
      have hnot : ¬ DeclaresVoid c.2 := by simp [DeclaresVoid, hnote, hvoid]
      simp only [hvoid, if_false, resultEdits, hnone]
      exact .pass fun h => hnot h.1
    case pos =>
      simp only [hvoid, if_true]
      by_cases hagree : TypesAgree c.2
      case neg =>
        obtain ⟨obstacle, hdiffer⟩ := outputType?_of_not_typesAgree hagree declarationsArtifact
        rw [hdiffer]
        exact .of_error ⟨⟨note, hnote, hvoid⟩, hagree⟩ .of_missing
      case pos =>
        rw [hagree declarationsArtifact]
        cases houtput : output? c.2 with
        | none =>
          have hnone : declaredOutput? c.2 = none := by simp [declaredOutput?, hnote, houtput]
          rw [resultEdits, hnone]
          exact .pass fun h => h.2 hagree
        | some output =>
          obtain ⟨type, span⟩ := output
          have hsome : declaredOutput? c.2 = some (note, type, span) := by
            simp [declaredOutput?, hnote, houtput, hvoid]
          rw [resultEdits, hsome]
          change IsStep _ _ _ _ _ (replaceIn b (note.start, note.stop) type.toList >>= _)
          exact .replace (.replace (.of_ok fun h => h.2 hagree))

/-- The edits of the declarations. -/
def declarationEdits (o : Outline) : List Edit :=
  (accessorsOf o).flatMap (fun c => propertyEdits c.2) ++
    ((o.function? "init").map fun f => ⟨f.start, f.stop, initDeclaration⟩).toList ++
    (membersOf o).flatMap (fun c => resultEdits c.2)

/-- The classes whose accessor becomes a property. -/
def declaredAccessors (o : Outline) : List String :=
  (accessorsOf o).flatMap (fun c => (c.2.paramsStop.map fun _ => c.1.name).toList)

/-- The output methods that are declared to return nothing. -/
def declaredMethods (o : Outline) : List OutMethod :=
  (membersOf o).flatMap (fun c =>
    ((declaredOutput? c.2).map fun r => ⟨c.1.name, c.2.name, r.2.1⟩).toList)

/-! ## Glue -/

/-- The body of an accessor that gets a new one, and the number of floats of its class. -/
def elements? (offsets : OffsetTable) (c : ClassShape × Member) : Option ((Nat × Nat) × Nat) := do
  let body ← c.2.body
  let count ← offsets.get? c.1.name
  some (body, count)

theorem elements?_eq_some_iff {body : Nat × Nat} {count : Nat} :
    elements? offsets c = some (body, count) ↔
      c.2.body = some body ∧ offsets.get? c.1.name = some count := by
  simp [elements?, Option.bind_eq_some_iff]

/-- The edit that gives an accessor a new body. -/
def bodyEdits (o : Outline) (offsets : OffsetTable) (c : ClassShape × Member) : List Edit :=
  (elements? offsets c).elim [] fun (body, count) =>
    let outer := o.text.lineIndent c.2.start
    [⟨body.1, body.2, elementsBody count outer (bodyIndent o.text body outer)⟩]

/-- The number of floats of a class is known, and can be written. -/
def HasCount (offsets : OffsetTable) (name : String) : Prop :=
  ∃ count, offsets.get? name = some count ∧ Decimal.isWritable count = true

/-- The numbers of floats that go into accessors of the outline have few enough digits. -/
def CountsAreWritable (o : Outline) (offsets : OffsetTable) : Prop :=
  ∀ c ∈ accessorsOf o, ∀ body count, elements? offsets c = some (body, count) →
    Decimal.isWritable count = true

/-- The failure says why an accessor does not get a new body: its class is not in the table, or its
number has too many digits. -/
def IsCountFailure (offsets : OffsetTable) (c : ClassShape × Member) (e : RevisionError) : Prop :=
  offsets.get? c.1.name = none ∧ e = .missing glueArtifact .accessor (.unknownType c.1.name) ∨
    (∃ body count, elements? offsets c = some (body, count) ∧ Decimal.isWritable count = false) ∧
      e = .numeral .tooLongToWrite

/-- An accessor with a body gets a new one, unless the number of floats is not known. -/
theorem isStep_reviseAccessor (found : List String) :
    IsStep (c.2.body.isSome = true ∧ ¬ HasCount offsets c.1.name) (IsCountFailure offsets c) b
      (bodyEdits o offsets c)
      (fun b => (b, found ++ ((elements? offsets c).map fun _ => c.1.name).toList))
      (reviseAccessor o offsets (b, found) c) := by
  unfold reviseAccessor
  cases hbody : c.2.body with
  | none =>
    have hnone : elements? offsets c = none := by simp [elements?, hbody]
    rw [bodyEdits, hnone]
    exact .pass (by simp)
  | some body =>
    cases hget : offsets.get? c.1.name with
    | none =>
      simp only [elementCount, hget]
      exact .of_error ⟨rfl, by simp [HasCount, hget]⟩ (.inl ⟨hget, rfl⟩)
    | some count =>
      have hsome : elements? offsets c = some (body, count) :=
        elements?_eq_some_iff.mpr ⟨hbody, hget⟩
      have hcount : HasCount offsets c.1.name ↔ Decimal.isWritable count = true := by
        simp [HasCount, hget]
      rw [bodyEdits, hsome]
      simp only [elementCount, hget, bind, Except.bind]
      split
      · next hlong =>
        rw [Bool.not_eq_true'] at hlong
        exact .of_error ⟨rfl, by simp [hcount, hlong]⟩ (.inr ⟨⟨body, count, hsome, hlong⟩, rfl⟩)
      · next hshort =>
        change IsStep _ _ _ _ _ (replaceIn b body _ >>= _)
        exact .replace (.of_ok (by simpa [hcount] using hshort))

/-- The edits that rename the loader and take its exports away. -/
def loaderEdits (o : Outline) (internal : String) : List Edit :=
  match o.function? loaderName with
  | none => []
  | some loader =>
    let references := (loader.body.map fun body =>
      loaderReferences none (o.tokensWithin body.1 body.2)).getD []
    (if loader.start ≠ loader.keywordStart then [⟨loader.start, loader.keywordStart, []⟩]
      else []) ++
      ⟨loader.nameStart, loader.nameStop, internal.toList⟩ ::
        references.map (fun t => ⟨t.start, t.stop, internal.toList⟩) ++
      (o.statementsOf ["export", "default", loaderName, ";"]).map (removalOf o.text)

theorem renameLoader_of_none (h : (o.function? loaderName).bind (·.body) = none) :
    renameLoader o internal b = .error (.missing glueArtifact .initEntryPoint .noMatch) := by
  cases hloader : o.function? loaderName with
  | none =>
    rw [renameLoader, hloader]
    rfl
  | some loader =>
    rw [hloader, Option.bind_some] at h
    simp only [renameLoader, hloader, h]
    rfl

section

variable [Limits] (houtline : Script.outline t = .ok o) (htext : b.text = t)

include houtline htext

/-- The loader gets its new name in its declaration and in its body, and then loses its export. -/
theorem nameLoader_eq (loader : FunctionShape) (references : List Token) :
    (do
      let b ← replaceIn b (loader.nameStart, loader.nameStop) internal.toList
      let b ← references.foldlM
        (fun b (u : Token) => replaceIn b (u.start, u.stop) internal.toList) b
      deleteStatements b (o.statementsOf ["export", "default", loaderName, ";"])) =
      record b (⟨loader.nameStart, loader.nameStop, internal.toList⟩ ::
        references.map (fun u => ⟨u.start, u.stop, internal.toList⟩) ++
        (o.statementsOf ["export", "default", loaderName, ";"]).map (removalOf t)) := by
  simp only [foldlM_replaceIn]
  rw [← record_then fun b' hb' =>
      deleteStatements_statementsOf houtline (hb'.trans htext) (by simp), record_cons, bind_assoc]
  rfl

/-- The loader is renamed, unless it has no body or its new name is taken. -/
theorem isStep_renameLoader :
    IsStep ((o.function? loaderName).bind (·.body) = none ∨ internal ∈ o.names)
      RevisionError.IsMissing b (loaderEdits o internal) id (renameLoader o internal b) := by
  have hplace : o.text = t := (Script.isPlaced_of_outline houtline).1
  cases hfound : (o.function? loaderName).bind (·.body) with
  | none =>
    rw [renameLoader_of_none hfound]
    exact .of_error (.inl rfl) .of_missing
  | some body =>
    obtain ⟨loader, hloader, hbody⟩ := Option.bind_eq_some_iff.mp hfound
    simp only [renameLoader, hloader, hbody, loaderEdits, List.contains_eq_mem, decide_eq_true_eq,
      Option.map_some, Option.getD_some, hplace]
    by_cases htaken : internal ∈ o.names
    case pos =>
      rw [if_pos htaken]
      exact .of_error (.inr htaken) .of_missing
    case neg =>
      rw [if_neg htaken]
      refine (IsStep.of_record ?_).congr (by simp [htaken])
      by_cases hstart : loader.start ≠ loader.keywordStart
      · rw [if_pos hstart, if_pos hstart, List.append_assoc,
          ← record_then fun b' hb' => nameLoader_eq houtline (hb'.trans htext) loader _,
          replaceIn_eq]
      · rw [if_neg hstart, if_neg hstart]
        exact nameLoader_eq houtline htext loader _

end

/-- The edits that let a body end by returning its first parameter. -/
def returnEdits (o : Outline) (start : Nat) (body : Nat × Nat) : List Edit :=
  let tokens := o.tokensWithin (body.1 + 1) (body.2 - 1)
  let outer := o.text.lineIndent start
  match tokens.drop (lastStatement tokens), tokens.getLast? with
  | first :: rest, some tail =>
    let terminator := if [";", "\x7d"].contains tail.text then [] else [';']
    let ending := terminator ++ '\n' :: o.text.lineIndent first.start ++ outReturn
    if first.is "return" then
      match rest with
      | [] => [⟨tail.stop, tail.stop, ending⟩]
      | second :: _ =>
        if second.text = ";" then [⟨first.start, second.stop, outReturn⟩]
        else [⟨first.start, second.start, []⟩, ⟨tail.stop, tail.stop, ending⟩]
    else [⟨tail.stop, tail.stop, ending⟩]
  | _, _ =>
    [⟨body.1 + 1, body.1 + 1, '\n' :: outer ++ "    ".toList ++ outReturn ++ '\n' :: outer⟩]

theorem returnOutParameter_eq (start : Nat) (body : Nat × Nat) :
    returnOutParameter o start body b = record b (returnEdits o start body) := by
  unfold returnOutParameter returnEdits
  simp only
  cases (o.tokensWithin (body.1 + 1) (body.2 - 1)).drop
      (lastStatement (o.tokensWithin (body.1 + 1) (body.2 - 1))) with
  | nil => exact insertIn_eq b _ _
  | cons first rest =>
    cases (o.tokensWithin (body.1 + 1) (body.2 - 1)).getLast? with
    | none => exact insertIn_eq b _ _
    | some tail =>
      simp only
      by_cases hreturn : first.is "return" = true
      · simp only [if_pos hreturn]
        cases rest with
        | nil => exact insertIn_eq b _ _
        | cons second rest =>
          by_cases hnothing : second.text = ";"
          · simp only [if_pos hnothing]
            exact replaceIn_eq b _ _
          · simp only [if_neg hnothing, record_cons, insertIn_eq]
            rfl
      · simp only [if_neg hreturn]
        exact insertIn_eq b _ _

/-- The body of an output method, the type of its result, and the place of that in its
documentation. -/
def revisedOutput? (m : Member) : Option ((Nat × Nat) × String × (Nat × Nat)) := do
  let body ← m.body
  let (type, span) ← output? m
  some (body, type, span)

theorem revisedOutput?_eq_some_iff {body : Nat × Nat} :
    revisedOutput? m = some (body, type, span) ↔ m.body = some body ∧ IsOutput m type span := by
  rw [← output?_eq_some_iff]
  simp [revisedOutput?, Option.bind_eq_some_iff]

/-- The edits that let an output method return its result. -/
def outputEdits (o : Outline) (m : Member) : List Edit :=
  (revisedOutput? m).elim [] fun (body, type, span) =>
    ⟨span.1, span.2, type.toList⟩ :: returnEdits o m.start body

/-- An output method with a body returns its result, unless its types disagree. -/
theorem isStep_reviseOutput (found : List OutMethod) :
    IsStep (c.2.body.isSome = true ∧ ¬ TypesAgree c.2) RevisionError.IsMissing b (outputEdits o c.2)
      (fun b => (b, found ++
        ((revisedOutput? c.2).map fun r => ⟨c.1.name, c.2.name, r.2.1⟩).toList))
      (reviseOutput o (b, found) c) := by
  unfold reviseOutput
  cases hbody : c.2.body with
  | none =>
    have hnone : revisedOutput? c.2 = none := by simp [revisedOutput?, hbody]
    rw [outputEdits, hnone]
    exact .pass (by simp)
  | some body =>
    by_cases hagree : TypesAgree c.2
    case neg =>
      obtain ⟨obstacle, hdiffer⟩ := outputType?_of_not_typesAgree hagree glueArtifact
      simp only [hdiffer]
      exact .of_error ⟨rfl, hagree⟩ .of_missing
    case pos =>
      simp only [hagree glueArtifact]
      cases houtput : output? c.2 with
      | none =>
        have hnone : revisedOutput? c.2 = none := by simp [revisedOutput?, hbody, houtput]
        rw [outputEdits, hnone]
        exact .pass fun h => h.2 hagree
      | some output =>
        obtain ⟨type, span⟩ := output
        have hsome : revisedOutput? c.2 = some (body, type, span) := by
          simp [revisedOutput?, hbody, houtput]
        rw [outputEdits, hsome]
        change IsStep _ _ _ _ _ (replaceIn b span type.toList >>= _)
        refine .replace (.of_eq (fun h => h.2 hagree) ?_)
        rw [returnOutParameter_eq]
        cases record (b.add _) _ <;> rfl

/-- The edits of the glue. -/
def glueEdits (o : Outline) (offsets : OffsetTable) (internal : String) : List Edit :=
  (accessorsOf o).flatMap (bodyEdits o offsets) ++ loaderEdits o internal ++
    (membersOf o).flatMap (fun c => outputEdits o c.2)

/-- The classes whose accessor gets a new body. -/
def revisedAccessors (o : Outline) (offsets : OffsetTable) : List String :=
  (accessorsOf o).flatMap (fun c => ((elements? offsets c).map fun _ => c.1.name).toList)

/-- The output methods that get a last statement. -/
def revisedMethods (o : Outline) : List OutMethod :=
  (membersOf o).flatMap (fun c =>
    ((revisedOutput? c.2).map fun r => ⟨c.1.name, c.2.name, r.2.1⟩).toList)

end WasmPackage.Bindings
