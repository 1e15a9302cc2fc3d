import WasmPackage.Proofs.Bindings.Agreement
import WasmPackage.Proofs.Bindings.EditPlaces
import WasmPackage.Proofs.Bindings.GeneratedOutline
import WasmPackage.Proofs.Bindings.Recorded

/-!
# Generated packages are revised

Both passes succeed on the artifacts that the generator writes for any list of classes, whatever
words their methods are called by.  They find every accessor and every output method in order, and
so agree with one another.
-/

namespace WasmPackage.Bindings

open Script

variable {d : Dialect} {c : ClassSpec} {cs : List ClassSpec} {m : OutputSpec} {t : Text}
  {o : Outline} {x : Member} {k : ClassShape} {ks : List ClassShape} {β : Type}
  {found : ClassShape × Member → List β}

/-- The output methods of classes, in order. -/
def outMethodsOf (cs : List ClassSpec) : List OutMethod :=
  cs.flatMap fun c => c.methods.map fun m => ⟨c.name, m.name, m.type⟩

/-! ## What is found -/

theorem IsMethodOf.kind (h : IsMethodOf d m x) : x.kind = .method := by
  obtain ⟨span, houtput⟩ := h.output
  exact houtput.method

/-- The getter is the only accessor of its class, even if a method is called like it. -/
theorem Depicts.accessors (h : Depicts d c k) :
    ∃ g, IsGetter d g ∧ k.membersNamed accessorName .getter = [g] := by
  obtain ⟨g, ms, hmembers, hg, hms⟩ := h.members
  refine ⟨g, hg, ?_⟩
  have hmethods : ms.filter (fun x => x.name = accessorName && x.kind = .getter) = [] := by
    rw [List.filter_eq_nil_iff]
    have hkinds : ∀ x ∈ ms, x.kind = .method := forall_mem_of_forall₂ hms fun _ _ => IsMethodOf.kind
    intro x hx
    simp [hkinds x hx]
  rw [ClassShape.membersNamed, hmembers, List.filter_cons_of_pos (by simp [hg.name, hg.kind]),
    hmethods]

theorem flatMap_of_forall₂ {α β γ : Type} {R : α → β → Prop} {as : List α} {bs : List β}
    {f : β → List γ} {g : α → List γ} (h : List.Forall₂ R as bs)
    (hfg : ∀ a ∈ as, ∀ b, R a b → f b = g a) : bs.flatMap f = as.flatMap g := by
  induction h with
  | nil => rfl
  | cons hab _ ih =>
    obtain ⟨hfirst, hrest⟩ := List.forall_mem_cons.mp hfg
    rw [List.flatMap_cons, List.flatMap_cons, hfirst _ hab, ih hrest]

/-- The names of classes in whose accessors something is found. -/
theorem accessors_of_depicts (h : List.Forall₂ (Depicts d) cs o.classes)
    {found : ClassShape × Member → List String}
    (hfound : ∀ c ∈ cs, ∀ k g, k.name = c.name → IsGetter d g → found (k, g) = [c.name]) :
    (accessorsOf o).flatMap found = cs.map (·.name) := by
  rw [accessorsOf, List.flatMap_assoc, List.map_eq_flatMap]
  apply flatMap_of_forall₂ h
  intro c hc k hck
  obtain ⟨g, hg, hnamed⟩ := hck.accessors
  rw [hnamed, List.map_singleton, List.flatMap_singleton, hfound c hc k g hck.name hg]

/-- The output methods of classes, when nothing is found for their getters. -/
theorem methods_of_depicts (h : List.Forall₂ (Depicts d) cs o.classes)
    {found : ClassShape × Member → List OutMethod}
    (hgetter : ∀ k g, IsGetter d g → found (k, g) = [])
    (hmethod : ∀ k m x, IsMethodOf d m x → found (k, x) = [⟨k.name, m.name, m.type⟩]) :
    (membersOf o).flatMap found = outMethodsOf cs := by
  rw [membersOf, List.flatMap_assoc, outMethodsOf]
  apply flatMap_of_forall₂ h
  intro c _ k hck
  obtain ⟨g, ms, hmembers, hg, hms⟩ := hck.members
  rw [hmembers, List.map_cons, List.flatMap_cons, hgetter k g hg, List.nil_append,
    List.map_eq_flatMap, List.map_eq_flatMap, List.flatMap_assoc]
  apply flatMap_of_forall₂ hms
  intro m _ x hx
  rw [List.flatMap_singleton, hmethod k m x hx, hck.name]

theorem typesAgree_of_isOutput {type : String} {span : Nat × Nat} (h : IsOutput x type span) :
    TypesAgree x := by
  intro artifact
  rw [outputType?_eq_some_iff.mpr h, output?_eq_some_iff.mpr h]

theorem typesAgree_of_getter (h : x.kind = .getter) : TypesAgree x := by
  intro artifact
  rw [output?_of_getter h, outputType?]
  split
  · simp [h]
  · rfl

/-- The types of generated members agree. -/
theorem typesAgree_of_depicts (h : List.Forall₂ (Depicts d) cs o.classes) :
    ∀ c ∈ membersOf o, TypesAgree c.2 := by
  have hall : ∀ k ∈ o.classes, ∀ x ∈ k.members, TypesAgree x := by
    refine forall_mem_of_forall₂ h ?_
    intro c k hck
    obtain ⟨g, ms, hmembers, hg, hms⟩ := hck.members
    rw [hmembers, List.forall_mem_cons]
    refine ⟨typesAgree_of_getter hg.kind, forall_mem_of_forall₂ hms ?_⟩
    intro m x hx
    obtain ⟨span, houtput⟩ := hx.output
    exact typesAgree_of_isOutput houtput
  intro c hc
  obtain ⟨hclass, hmember⟩ := mem_of_mem_membersOf hc
  exact hall c.1 hclass c.2 hmember

theorem outMethodsOf_ne_nil (h : ∃ c ∈ cs, c.methods ≠ []) : outMethodsOf cs ≠ [] := by
  obtain ⟨c, hc, hmethods⟩ := h
  rw [outMethodsOf, Ne, List.flatMap_eq_nil_iff]
  intro hnil
  exact hmethods (List.map_eq_nil_iff.mp (hnil c hc))

theorem map_name_ne_nil (h : ∃ c ∈ cs, c.methods ≠ []) : cs.map (·.name) ≠ [] := by
  obtain ⟨c, hc, -⟩ := h
  rw [Ne, List.map_eq_nil_iff]
  exact List.ne_nil_of_mem hc

/-! ## The passes -/

/-- Generated declarations are revised: every getter becomes a property, and every method gives its
result. -/
theorem reviseDeclarations_generated [Limits] (hcs : ∀ c ∈ cs, c.IsWellFormed)
    (hmethods : ∃ c ∈ cs, c.methods ≠ []) :
    ∃ r, reviseDeclarations (declarationsText cs) = .ok r ∧ r.accessors = cs.map (·.name) ∧
      r.outMethods = outMethodsOf cs := by
  obtain ⟨o, houtline, hclasses, hinit⟩ := outline_declarationsText hcs
  have hnested : ∀ k ∈ o.classes, k.IsNested :=
    forall_mem_of_forall₂ hclasses fun _ _ => Depicts.nested
  have haccessors : declaredAccessors o = cs.map (·.name) := by
    apply accessors_of_depicts hclasses
    intro c _ k g hname hg
    obtain ⟨stop, hstop⟩ := Option.isSome_iff_exists.mp hg.params
    simp [hstop, hname]
  have houtputs : declaredMethods o = outMethodsOf cs := by
    apply methods_of_depicts hclasses
    · intro k g hg
      have hnone : declaredOutput? g = none := by
        obtain ⟨note, hnote, -⟩ := hg.ends
        simp [declaredOutput?, hnote, output?_of_getter hg.kind]
      simp [hnone]
    · intro k m x hx
      obtain ⟨span, houtput⟩ := hx.output
      obtain ⟨note, hnote, htext⟩ := hx.ends
      simp [declaredOutput?_eq_some_iff.mpr ⟨hnote, htext, houtput⟩, hx.name]
  have hsuits : SuitsDeclarations o := by
    refine ⟨?_, hinit, fun c hc _ => typesAgree_of_depicts hclasses c hc, ?_⟩
    · rw [haccessors]
      exact map_name_ne_nil hmethods
    · rw [houtputs]
      exact outMethodsOf_ne_nil hmethods
  exact ⟨_, reviseDeclarations_eq_ok_iff.mpr ⟨o, houtline, hsuits,
    declarationEdits_isSound houtline hnested, rfl⟩, haccessors, houtputs⟩

/-- Generated glue is revised: every getter gets a body, and every method returns its result. -/
theorem reviseGlue_generated [Limits] {loader : Text} {offsets : OffsetTable} {internal : String}
    (hcs : ∀ c ∈ cs, c.IsWellFormed) (hmethods : ∃ c ∈ cs, c.methods ≠ [])
    (hcounts : ∀ c ∈ cs, HasCount offsets c.name)
    (hfree : internal ∉ cs.map (·.name) ++ [loaderName, "wasm"]) (hloader : IsLoader loader) :
    ∃ r, reviseGlue (glueText cs loader) offsets internal = .ok r ∧
      r.accessors = cs.map (·.name) ∧ r.outMethods = outMethodsOf cs := by
  obtain ⟨o, f, houtline, hclasses, hinit, hbody, hexports, hnames⟩ :=
    outline_glueText hcs hloader
  have hnested : ∀ k ∈ o.classes, k.IsNested :=
    forall_mem_of_forall₂ hclasses fun _ _ => Depicts.nested
  have hsame : o.classes.map (·.name) = cs.map (·.name) := by
    rw [List.map_eq_flatMap, List.map_eq_flatMap]
    exact flatMap_of_forall₂ hclasses fun c _ k hck => by rw [hck.name]
  have hcounts' : ∀ k ∈ o.classes, HasCount offsets k.name := by
    intro k hk
    have hname : k.name ∈ cs.map (·.name) := hsame ▸ List.mem_map_of_mem hk
    obtain ⟨c, hc, hcname⟩ := List.mem_map.mp hname
    rw [← hcname]
    exact hcounts c hc
  have haccessors : revisedAccessors o offsets = cs.map (·.name) := by
    apply accessors_of_depicts hclasses
    intro c hc k g hname hg
    obtain ⟨count, hget, -⟩ := hcounts c hc
    obtain ⟨span, hspan⟩ := Option.isSome_iff_exists.mp hg.ends
    rw [← hname] at hget
    have helements : elements? offsets (k, g) = some (span, count) :=
      elements?_eq_some_iff.mpr ⟨hspan, hget⟩
    simp [helements, hname]
  have houtputs : revisedMethods o = outMethodsOf cs := by
    apply methods_of_depicts hclasses
    · intro k g hg
      have hnone : revisedOutput? g = none := by
        obtain ⟨span, hspan⟩ := Option.isSome_iff_exists.mp hg.ends
        simp [revisedOutput?, hspan, output?_of_getter hg.kind]
      simp [hnone]
    · intro k m x hx
      obtain ⟨span, houtput⟩ := hx.output
      obtain ⟨body, hx'⟩ := Option.isSome_iff_exists.mp hx.ends
      simp [revisedOutput?_eq_some_iff.mpr ⟨hx', houtput⟩, hx.name]
  have hremovals : ((o.statementsOf ["export", "default", loaderName, ";"]).map
      (removalOf (glueText cs loader))).Pairwise Edit.Compatible := by
    rcases hstatements : o.statementsOf ["export", "default", loaderName, ";"] with
      _ | ⟨st, _ | ⟨st', rest⟩⟩
    · exact List.Pairwise.nil
    · exact List.pairwise_singleton _ _
    · simp [hstatements] at hexports
  have hsuits : SuitsGlue o offsets internal := by
    constructor
    case counts =>
      intro c hc _
      exact hcounts' c.1 (mem_of_mem_membersOf (accessorsOf_sublist.subset hc)).1
    case accessors =>
      rw [haccessors]
      exact map_name_ne_nil hmethods
    case loader =>
      obtain ⟨body, hsome⟩ := Option.isSome_iff_exists.mp hbody
      exact ⟨f, body, hinit, hsome⟩
    case free => rwa [hnames, hsame]
    case agree => exact fun c hc _ => typesAgree_of_depicts hclasses c hc
    case outMethods =>
      rw [houtputs]
      exact outMethodsOf_ne_nil hmethods
  exact ⟨_, reviseGlue_eq_ok_iff.mpr ⟨o, houtline, hsuits,
    glueEdits_isSound houtline hnested hinit hbody hremovals, rfl⟩, haccessors, houtputs⟩

/-- Passes that find the same agree. -/
theorem checkAgreement_of_eq {declarations glue : Revised}
    (haccessors : declarations.accessors = glue.accessors)
    (hmethods : declarations.outMethods = glue.outMethods) :
    checkAgreement declarations glue = .ok () := by
  rcases checkAgreement_cases declarations glue with ⟨hok, -⟩ | ⟨-, hdiffer⟩
  · exact hok
  · exact absurd ⟨by simp [haccessors], by simp [hmethods]⟩ hdiffer

/-- The package that the generator writes for any classes is revised, as far as their names are
words: both passes find every accessor and every output method in order, and agree. -/
theorem generated_revised [Limits] {loader : Text} {offsets : OffsetTable} {internal : String}
    (hcs : ∀ c ∈ cs, c.IsWellFormed) (hmethods : ∃ c ∈ cs, c.methods ≠ [])
    (hcounts : ∀ c ∈ cs, HasCount offsets c.name)
    (hfree : internal ∉ cs.map (·.name) ++ [loaderName, "wasm"]) (hloader : IsLoader loader) :
    ∃ declarations glue, reviseDeclarations (declarationsText cs) = .ok declarations ∧
      reviseGlue (glueText cs loader) offsets internal = .ok glue ∧
      declarations.accessors = cs.map (·.name) ∧ glue.accessors = cs.map (·.name) ∧
      declarations.outMethods = outMethodsOf cs ∧ glue.outMethods = outMethodsOf cs ∧
      checkAgreement declarations glue = .ok () := by
  obtain ⟨declarations, hdeclarations, haccessors, houtputs⟩ :=
    reviseDeclarations_generated hcs hmethods
  obtain ⟨glue, hglue, haccessors', houtputs'⟩ :=
    reviseGlue_generated hcs hmethods hcounts hfree hloader
  exact ⟨declarations, glue, hdeclarations, hglue, haccessors, haccessors', houtputs, houtputs',
    checkAgreement_of_eq (haccessors.trans haccessors'.symm) (houtputs.trans houtputs'.symm)⟩

theorem isLoader_exported :
    IsLoader
      "function init(module) \x7b\n    return wasm;\n\x7d\nexport default init;\n".toList := by
  have hcode : (tokenize
      "function init(module) \x7b\n    return wasm;\n\x7d\nexport default init;\n".toList
      ).toOption.any (fun tokens => cellsFrom none (tokens.map Token.face) =
        loaderCode [.word "module"] [.word "return", .word "wasm", .mark ";"] true) = true := by
    decide +kernel
  cases h : tokenize
      "function init(module) \x7b\n    return wasm;\n\x7d\nexport default init;\n".toList with
  | error e =>
    rw [h] at hcode
    cases hcode
  | ok tokens =>
    rw [h] at hcode
    exact ⟨tokens, _, _, true, h, of_decide_eq_true hcode, .of_plain (by decide),
      .of_plain (by decide)⟩

/-- A class whose method is called like a modifier, and so is its parameter. -/
theorem generated_revised_modifiers :
    ∃ declarations glue,
      reviseDeclarations (declarationsText [⟨"Vector2", [⟨"static", "Vector2", ["get"]⟩]⟩]) =
        .ok declarations ∧
      reviseGlue (glueText [⟨"Vector2", [⟨"static", "Vector2", ["get"]⟩]⟩]
        "function init(module) \x7b\n    return wasm;\n\x7d\nexport default init;\n".toList)
        .standard defaultInternalName = .ok glue ∧
      declarations.accessors = ["Vector2"] ∧ glue.accessors = ["Vector2"] ∧
      declarations.outMethods = [⟨"Vector2", "static", "Vector2"⟩] ∧
      glue.outMethods = [⟨"Vector2", "static", "Vector2"⟩] ∧
      checkAgreement declarations glue = .ok () := by
  have hvector : isWord "Vector2" = true := by decide
  have hstatic : isWord "static" = true := by decide
  have hget : isWord "get" = true := by decide
  have hcs : ∀ c ∈ [(⟨"Vector2", [⟨"static", "Vector2", ["get"]⟩]⟩ : ClassSpec)],
      c.IsWellFormed := by
    rw [List.forall_mem_singleton]
    refine ⟨hvector, ?_⟩
    rw [List.forall_mem_singleton]
    exact ⟨hstatic, hvector, by simpa using hget⟩
  have hcounts : ∀ c ∈ [(⟨"Vector2", [⟨"static", "Vector2", ["get"]⟩]⟩ : ClassSpec)],
      HasCount .standard c.name := by
    rw [List.forall_mem_singleton]
    exact ⟨2, by decide, by decide +kernel⟩
  exact generated_revised hcs ⟨_, List.mem_singleton_self _, List.cons_ne_nil _ _⟩ hcounts
    (by decide) isLoader_exported

/-- A name that the offset table takes for an identifier is no word of a script if it holds a
combining mark: the class is read under another name, of which the number of floats is unknown. -/
theorem generated_not_revised :
    (OffsetTable.standard.extend [("x\u0302", .int 3)]).toOption.any (fun offsets =>
      offsets.get? "x\u0302" = some 3 ∧
        reviseGlue (glueText [⟨"x\u0302", [⟨"m", "T", []⟩]⟩]
          "function init(module) \x7b\n    return wasm;\n\x7d\nexport default init;\n".toList)
          offsets defaultInternalName =
            .error (.missing glueArtifact .accessor (.unknownType "x"))) = true := by
  decide +kernel

end WasmPackage.Bindings
