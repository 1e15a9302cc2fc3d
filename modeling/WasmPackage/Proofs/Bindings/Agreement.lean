import WasmPackage.Bindings.Agreement
import WasmPackage.Proofs.Bindings.Recorded

/-!
# Agreement of the edits

What the passes report stands for edits that they make.  The check that follows them succeeds
exactly if both artifacts have received edits for the same classes, and for the same methods with
the same types.
-/

namespace WasmPackage.Bindings

open Script (Outline)

variable {t : Text} {o o' : Outline} {offsets : OffsetTable} {internal name type : String}
  {declarations glue : Revised}

/-! ## What is edited -/

/-- In the declarations, the accessor of a class of this name becomes a property. -/
def DeclaresProperty (o : Outline) (name : String) : Prop :=
  ∃ c ∈ accessorsOf o, c.1.name = name ∧
    ∃ stop, c.2.paramsStop = some stop ∧
      ⟨c.2.start, stop, "readonly elements".toList⟩ ∈ declarationEdits o

/-- In the glue, the accessor of a class of this name gets a body that reads its floats. -/
def ReadsElements (o : Outline) (offsets : OffsetTable) (internal name : String) : Prop :=
  ∃ c ∈ accessorsOf o, c.1.name = name ∧
    ∃ body count outer inner, c.2.body = some body ∧ offsets.get? name = some count ∧
      ⟨body.1, body.2, elementsBody count outer inner⟩ ∈ glueEdits o offsets internal

/-- In the declarations, a method of this name that was declared to return nothing returns a value
of the type of its first parameter. -/
def DeclaresResult (o : Outline) (name type : String) : Prop :=
  ∃ c ∈ membersOf o, c.1.name ++ "." ++ c.2.name = name ∧
    ∃ note span, c.2.returnType = some note ∧ note.text = "void" ∧ IsOutput c.2 type span ∧
      ⟨note.start, note.stop, type.toList⟩ ∈ declarationEdits o

/-- In the glue, a method of this name is documented to return a value of the type of its first
parameter, and ends by returning that parameter. -/
def ReturnsOutput (o : Outline) (offsets : OffsetTable) (internal name type : String) : Prop :=
  ∃ c ∈ membersOf o, c.1.name ++ "." ++ c.2.name = name ∧
    ∃ body span, c.2.body = some body ∧ IsOutput c.2 type span ∧
      ⟨span.1, span.2, type.toList⟩ ∈ glueEdits o offsets internal ∧
      returnEdits o c.2.start body ⊆ glueEdits o offsets internal ∧
      ∃ e ∈ returnEdits o c.2.start body, "return out;".toList <:+: e.replacement

/-- Both artifacts receive the same edits. -/
structure Agree (o o' : Outline) (offsets : OffsetTable) (internal : String) : Prop where
  accessors : ∀ name, DeclaresProperty o name ↔ ReadsElements o' offsets internal name
  outMethods : ∀ name type,
    DeclaresResult o name type ↔ ReturnsOutput o' offsets internal name type

/-! ## What is reported -/

/-- The report of the declarations names the classes whose accessors become properties. -/
theorem mem_declaredAccessors_iff : name ∈ declaredAccessors o ↔ DeclaresProperty o name := by
  simp only [declaredAccessors, List.mem_flatMap, Option.mem_toList, Option.map_eq_some_iff]
  constructor
  · rintro ⟨c, hc, stop, hstop, hname⟩
    refine ⟨c, hc, hname, stop, hstop, ?_⟩
    apply List.mem_append_left
    apply List.mem_append_left
    apply List.mem_flatMap_of_mem hc
    simp [propertyEdits, hstop, accessorName]
  · rintro ⟨c, hc, hname, stop, hstop, -⟩
    exact ⟨c, hc, stop, hstop, hname⟩

/-- The report of the glue names the classes whose accessors get new bodies. -/
theorem mem_revisedAccessors_iff :
    name ∈ revisedAccessors o offsets ↔ ReadsElements o offsets internal name := by
  simp only [revisedAccessors, List.mem_flatMap, Option.mem_toList, Option.map_eq_some_iff]
  constructor
  · rintro ⟨c, hc, ⟨body, count⟩, hfound, rfl⟩
    rcases elements?_eq_some_iff.mp hfound with ⟨hbody, hcount⟩
    refine ⟨c, hc, rfl, body, count, o.text.lineIndent c.2.start,
      bodyIndent o.text body (o.text.lineIndent c.2.start), hbody, hcount, ?_⟩
    apply List.mem_append_left
    apply List.mem_append_left
    apply List.mem_flatMap_of_mem hc
    simp [bodyEdits, hfound]
  · rintro ⟨c, hc, rfl, body, count, -, -, hbody, hcount, -⟩
    exact ⟨c, hc, (body, count), elements?_eq_some_iff.mpr ⟨hbody, hcount⟩, rfl⟩

/-- The report of the declarations names the methods that get a result, with its type. -/
theorem mem_declaredMethods_iff :
    (name, type) ∈ (declaredMethods o).map OutMethod.signature ↔ DeclaresResult o name type := by
  simp only [declaredMethods, List.mem_map, List.mem_flatMap, Option.mem_toList,
    Option.map_eq_some_iff, OutMethod.signature, OutMethod.qualified, Prod.mk.injEq]
  constructor
  · rintro ⟨method, ⟨c, hc, ⟨note, type', span⟩, hfound, rfl⟩, hname, rfl⟩
    rcases declaredOutput?_eq_some_iff.mp hfound with ⟨hnote, hvoid, houtput⟩
    refine ⟨c, hc, hname, note, span, hnote, hvoid, houtput, ?_⟩
    apply List.mem_append_right
    apply List.mem_flatMap_of_mem hc
    simp [resultEdits, hfound]
  · rintro ⟨c, hc, hname, note, span, hnote, hvoid, houtput, -⟩
    exact ⟨⟨c.1.name, c.2.name, type⟩, ⟨c, hc, (note, type, span),
      declaredOutput?_eq_some_iff.mpr ⟨hnote, hvoid, houtput⟩, rfl⟩, hname, rfl⟩

/-- Whatever a body ends with, it is made to return the first parameter. -/
theorem exists_outReturn_mem_returnEdits (o : Outline) (start : Nat) (body : Nat × Nat) :
    ∃ e ∈ returnEdits o start body, "return out;".toList <:+: e.replacement := by
  have hreturn : "return out;".toList = outReturn := by decide +kernel
  have hending : ∀ before : Text, outReturn <:+: before ++ outReturn :=
    fun before => (List.suffix_append before outReturn).isInfix
  rw [hreturn]
  unfold returnEdits
  simp only
  split
  · next first rest tail htokens htail =>
    split
    · cases rest with
      | nil => exact ⟨_, List.mem_singleton_self _, hending _⟩
      | cons second rest =>
        simp only
        split
        · exact ⟨_, List.mem_singleton_self _, List.infix_rfl⟩
        · exact ⟨_, List.mem_cons_of_mem _ (List.mem_singleton_self _), hending _⟩
    · exact ⟨_, List.mem_singleton_self _, hending _⟩
  · exact ⟨_, List.mem_singleton_self _, _, _, rfl⟩

/-- The report of the glue names the methods that return their first parameter, with its type. -/
theorem mem_revisedMethods_iff :
    (name, type) ∈ (revisedMethods o).map OutMethod.signature ↔
      ReturnsOutput o offsets internal name type := by
  simp only [revisedMethods, List.mem_map, List.mem_flatMap, Option.mem_toList,
    Option.map_eq_some_iff, OutMethod.signature, OutMethod.qualified, Prod.mk.injEq]
  constructor
  · rintro ⟨method, ⟨c, hc, ⟨body, type', span⟩, hfound, rfl⟩, hname, rfl⟩
    rcases revisedOutput?_eq_some_iff.mp hfound with ⟨hbody, houtput⟩
    have hedits : ∀ e ∈ outputEdits o c.2, e ∈ glueEdits o offsets internal :=
      fun e he => List.mem_append_right _ (List.mem_flatMap_of_mem hc he)
    rw [outputEdits, hfound, Option.elim_some, List.forall_mem_cons] at hedits
    exact ⟨c, hc, hname, body, span, hbody, houtput, hedits.1, hedits.2,
      exists_outReturn_mem_returnEdits o c.2.start body⟩
  · rintro ⟨c, hc, hname, body, span, hbody, houtput, -⟩
    exact ⟨⟨c.1.name, c.2.name, type⟩, ⟨c, hc, (body, type, span),
      revisedOutput?_eq_some_iff.mpr ⟨hbody, houtput⟩, rfl⟩, hname, rfl⟩

/-! ## Revised bindings -/

/-- Declarations with this outline have been revised. -/
structure IsDeclarations [Limits] (t : Text) (o : Outline) (r : Revised) : Prop where
  outline : outlineOf declarationsArtifact t = .ok o
  revised : reviseDeclarations t = .ok r
  text : r.text = Revision.apply ⟨t, declarationEdits o⟩
  accessors : ∀ name, name ∈ r.accessors ↔ DeclaresProperty o name
  outMethods : ∀ name type,
    (name, type) ∈ r.outMethods.map OutMethod.signature ↔ DeclaresResult o name type

theorem exists_isDeclarations [Limits] (h : reviseDeclarations t = .ok declarations) :
    ∃ o, IsDeclarations t o declarations := by
  obtain ⟨o, houtline, -, -, rfl⟩ := reviseDeclarations_eq_ok_iff.mp h
  exact ⟨o, outlineOf_of_outline houtline, h, rfl, fun _ => mem_declaredAccessors_iff,
    fun _ _ => mem_declaredMethods_iff⟩

/-- Glue with this outline has been revised. -/
structure IsGlue [Limits] (t : Text) (offsets : OffsetTable) (internal : String) (o : Outline)
    (r : Revised) : Prop where
  outline : outlineOf glueArtifact t = .ok o
  revised : reviseGlue t offsets internal = .ok r
  text : r.text = Revision.apply ⟨t, glueEdits o offsets internal⟩
  accessors : ∀ name, name ∈ r.accessors ↔ ReadsElements o offsets internal name
  outMethods : ∀ name type,
    (name, type) ∈ r.outMethods.map OutMethod.signature ↔
      ReturnsOutput o offsets internal name type

theorem exists_isGlue [Limits] (h : reviseGlue t offsets internal = .ok glue) :
    ∃ o, IsGlue t offsets internal o glue := by
  obtain ⟨o, houtline, -, -, rfl⟩ := reviseGlue_eq_ok_iff.mp h
  exact ⟨o, outlineOf_of_outline houtline, h, rfl, fun _ => mem_revisedAccessors_iff,
    fun _ _ => mem_revisedMethods_iff⟩

/-! ## The check -/

theorem isEmpty_onlyIn_iff {α : Type} [BEq α] [LawfulBEq α] {xs ys : List α} :
    (onlyIn xs ys).isEmpty = true ↔ ∀ x ∈ xs, x ∈ ys := by
  simp [onlyIn, List.mem_eraseDups]

/-- The reports name the same classes, and the same methods with the same types. -/
structure SameReports (declarations glue : Revised) : Prop where
  accessors : ∀ name, name ∈ declarations.accessors ↔ name ∈ glue.accessors
  outMethods : ∀ m, m ∈ declarations.outMethods.map OutMethod.signature ↔
    m ∈ glue.outMethods.map OutMethod.signature

theorem sameReports_iff : SameReports declarations glue ↔
    (∀ name, name ∈ declarations.accessors ↔ name ∈ glue.accessors) ∧
      ∀ m, m ∈ declarations.outMethods.map OutMethod.signature ↔
        m ∈ glue.outMethods.map OutMethod.signature :=
  ⟨fun h => ⟨h.accessors, h.outMethods⟩, fun h => ⟨h.1, h.2⟩⟩

theorem forall_mem_iff_isEmpty_onlyIn {α : Type} [BEq α] [LawfulBEq α] {xs ys : List α} :
    (∀ a, a ∈ xs ↔ a ∈ ys) ↔ (onlyIn xs ys).isEmpty = true ∧ (onlyIn ys xs).isEmpty = true := by
  rw [isEmpty_onlyIn_iff, isEmpty_onlyIn_iff]
  exact ⟨fun h => ⟨fun a => (h a).mp, fun a => (h a).mpr⟩, fun h a => ⟨h.1 a, h.2 a⟩⟩

/-- Reports that name the same pass.  Of others, one is said to lack an edit. -/
theorem checkAgreement_cases (declarations glue : Revised) :
    checkAgreement declarations glue = .ok () ∧ SameReports declarations glue ∨
      (∃ edit obstacle,
        checkAgreement declarations glue = .error (.missing bothArtifacts edit obstacle)) ∧
        ¬SameReports declarations glue := by
  simp only [sameReports_iff, forall_mem_iff_isEmpty_onlyIn]
  unfold checkAgreement
  simp only
  split
  · next haccessors =>
    refine Or.inr ⟨⟨_, _, rfl⟩, ?_⟩
    rintro ⟨⟨hdeclared, hglue⟩, -⟩
    simp [hdeclared, hglue] at haccessors
  · next haccessors =>
    split
    · next hmethods =>
      refine Or.inr ⟨⟨_, _, rfl⟩, ?_⟩
      rintro ⟨-, hdeclared, hglue⟩
      simp [List.isEmpty_iff.mp hdeclared, List.isEmpty_iff.mp hglue] at hmethods
    · next hmethods =>
      refine Or.inl ⟨rfl, ?_⟩
      simpa using And.intro haccessors hmethods

/-- Reports name the same exactly if both artifacts have received the same edits. -/
theorem sameReports_iff_agree [Limits] {d g : Text} (hd : IsDeclarations d o declarations)
    (hg : IsGlue g offsets internal o' glue) :
    SameReports declarations glue ↔ Agree o o' offsets internal := by
  constructor
  · rintro ⟨haccessors, hmethods⟩
    refine ⟨?_, ?_⟩
    · intro name
      rw [← hd.accessors, ← hg.accessors, haccessors]
    · intro name type
      rw [← hd.outMethods, ← hg.outMethods, hmethods]
  · rintro ⟨haccessors, hmethods⟩
    refine ⟨?_, ?_⟩
    · intro name
      rw [hd.accessors, hg.accessors, haccessors]
    · rintro ⟨name, type⟩
      rw [hd.outMethods, hg.outMethods, hmethods]

end WasmPackage.Bindings
