import WasmPackage.Proofs.Bindings.Declarations
import WasmPackage.Proofs.Bindings.Loader
import WasmPackage.Proofs.Bindings.Returns
import WasmPackage.Proofs.Script.Bound

/-!
# What the glue pass touches

The pass over the glue replaces the bodies of accessors, the words and the name of the loader and
its references to itself, the statements that export it, and two places of each output method: the
word `void` in its documentation, and the end of its body.  All else stays.  An accessor whose class
is not in the offset table makes the pass fail.
-/

namespace WasmPackage.Bindings

open Script (ClassShape FunctionShape Member Outline Statement Token)

variable {t : Text} {o : Outline} {c : ClassShape × Member} {offsets : OffsetTable}
  {internal : String} {body : Nat × Nat} {e : Edit} {r : Revised} {start : Nat}

/-! ## Where a body ends -/

/-- The last statement of a body, up to its last code token. -/
def lastSpan? (o : Outline) (body : Nat × Nat) : Option (Nat × Nat) := do
  let first ← (bodyCode o body)[lastStatement (bodyCode o body)]?
  let tail ← (bodyCode o body).getLast?
  some (first.start, tail.stop)

/-- The offset behind the last code token of a body, or behind its opening brace. -/
def codeEnd (o : Outline) (body : Nat × Nat) : Nat :=
  ((bodyCode o body).getLast?.map Token.stop).getD (body.1 + 1)

/-- The edit changes a part of the last statement of a body, or inserts something behind its
code. -/
def StaysAtEnd (o : Outline) (body : Nat × Nat) (e : Edit) : Prop :=
  (∃ span ∈ lastSpan? o body, span.1 ≤ e.start ∧ e.start ≤ e.stop ∧ e.stop ≤ span.2) ∨
    (e.start = codeEnd o body ∧ e.stop = codeEnd o body)

/-- What ends a body by a return stays at its end. -/
theorem staysAtEnd_of_mem [Limits] (houtline : Script.outline t = .ok o)
    (he : e ∈ returnEdits o start body) : StaysAtEnd o body e := by
  have htext : o.text = t := (Script.isPlaced_of_outline houtline).1
  cases hdrop : (bodyCode o body).drop (lastStatement (bodyCode o body)) with
  | nil =>
    have hnone : bodyCode o body = [] := drop_lastStatement_eq_nil_iff.mp hdrop
    rw [returnEdits_of_nil hnone, List.mem_singleton] at he
    right
    rw [codeEnd, hnone, he]
    exact ⟨rfl, rfl⟩
  | cons first rest =>
    obtain ⟨tail, htail, -⟩ := exists_tail houtline hdrop
    have hfirst : (bodyCode o body)[lastStatement (bodyCode o body)]? = some first := by
      rw [← List.head?_drop, hdrop]
      rfl
    have hlast : (first.start, tail.stop) ∈ lastSpan? o body := by
      rw [lastSpan?, hfirst, htail]
      rfl
    have hinserted (inserted : Text) : StaysAtEnd o body ⟨tail.stop, tail.stop, inserted⟩ := by
      right
      rw [codeEnd, htail]
      exact ⟨rfl, rfl⟩
    by_cases hkept : first.is "return" = false ∨ rest = []
    · rw [returnEdits_kept htext hdrop htail hkept, List.mem_singleton] at he
      rw [he]
      exact hinserted _
    obtain ⟨hreturn, hrest⟩ := not_or.mp hkept
    obtain ⟨second, tokens, hrest⟩ := List.exists_cons_of_ne_nil hrest
    obtain ⟨-, hle, hle', -, hbefore⟩ := places_of_drop houtline hdrop hrest
    have htailstop := hbefore tail htail
    have htaken {stop : Nat} {replacement : Text} (hfirst : first.start ≤ stop)
        (hstop : stop ≤ second.stop) : StaysAtEnd o body ⟨first.start, stop, replacement⟩ :=
      .inl ⟨_, hlast, Nat.le_refl _, hfirst, Nat.le_trans hstop htailstop⟩
    rw [Bool.not_eq_false] at hreturn
    by_cases hsecond : second.text = ";"
    · rw [returnEdits_replaced hdrop htail hrest hreturn hsecond, List.mem_singleton] at he
      rw [he]
      exact htaken (Nat.le_trans hle hle') (Nat.le_refl _)
    · rw [returnEdits_taken htext hdrop htail hrest hreturn hsecond, List.mem_cons,
        List.mem_singleton] at he
      rcases he with rfl | rfl
      · exact htaken hle hle'
      · exact hinserted _

/-! ## What is replaced -/

/-- A getter `elements` with this body. -/
structure IsElementsGetter (m : Member) (body : Nat × Nat) : Prop where
  name : m.name = accessorName
  getter : m.kind = .getter
  body : m.body = some body

/-- The replacements that the glue of an outline needs. -/
inductive IsGlueReplacement (o : Outline) (offsets : OffsetTable) (internal : String) : Edit → Prop
  | accessor {c : ClassShape × Member} {body : Nat × Nat} {count : Nat} :
    c ∈ membersOf o → IsElementsGetter c.2 body → offsets.get? c.1.name = some count →
      IsGlueReplacement o offsets internal ⟨body.1, body.2,
        elementsBody count (o.text.lineIndent c.2.start)
          (bodyIndent o.text body (o.text.lineIndent c.2.start))⟩
  | words {f : FunctionShape} :
    o.function? loaderName = some f → f.start ≠ f.keywordStart →
      IsGlueReplacement o offsets internal ⟨f.start, f.keywordStart, []⟩
  | name {f : FunctionShape} :
    o.function? loaderName = some f →
      IsGlueReplacement o offsets internal ⟨f.nameStart, f.nameStop, internal.toList⟩
  | reference {f : FunctionShape} {body : Nat × Nat} {x : Token} :
    o.function? loaderName = some f → f.body = some body → x ∈ referencesIn o body →
      IsGlueReplacement o offsets internal ⟨x.start, x.stop, internal.toList⟩
  | exported {f : FunctionShape} {st : Statement} :
    o.function? loaderName = some f → st ∈ o.statementsOf ["export", "default", loaderName, ";"] →
      IsGlueReplacement o offsets internal (removalOf o.text st)
  | documentation {c : ClassShape × Member} {body span : Nat × Nat} {type : String} :
    c ∈ membersOf o → c.2.body = some body → IsOutput c.2 type span →
      IsGlueReplacement o offsets internal ⟨span.1, span.2, type.toList⟩
  | result {c : ClassShape × Member} {body span : Nat × Nat} {type : String} {e : Edit} :
    c ∈ membersOf o → c.2.body = some body → IsOutput c.2 type span →
      e ∈ returnEdits o c.2.start body → IsGlueReplacement o offsets internal e

theorem mem_bodyEdits_iff : e ∈ bodyEdits o offsets c ↔
    ∃ body count, c.2.body = some body ∧ offsets.get? c.1.name = some count ∧
      e = ⟨body.1, body.2, elementsBody count (o.text.lineIndent c.2.start)
        (bodyIndent o.text body (o.text.lineIndent c.2.start))⟩ := by
  unfold bodyEdits
  constructor
  · intro he
    cases hfound : elements? offsets c with
    | none => simp [hfound] at he
    | some found =>
      obtain ⟨hbody, hcount⟩ := elements?_eq_some_iff.mp hfound
      rw [hfound] at he
      exact ⟨found.1, found.2, hbody, hcount, by simpa using he⟩
  · rintro ⟨body, count, hbody, hcount, rfl⟩
    simp [elements?_eq_some_iff.mpr ⟨hbody, hcount⟩]

theorem mem_loaderEdits_iff : e ∈ loaderEdits o internal ↔
    ∃ f, o.function? loaderName = some f ∧
      ((f.start ≠ f.keywordStart ∧ e = ⟨f.start, f.keywordStart, []⟩) ∨
        e = ⟨f.nameStart, f.nameStop, internal.toList⟩ ∨
        (∃ body x, f.body = some body ∧ x ∈ referencesIn o body ∧
          e = ⟨x.start, x.stop, internal.toList⟩) ∨
        ∃ st ∈ o.statementsOf ["export", "default", loaderName, ";"], e = removalOf o.text st) := by
  unfold loaderEdits
  cases hloader : o.function? loaderName with
  | none => simp
  | some f =>
    have hwords : e ∈ (if f.start ≠ f.keywordStart then [⟨f.start, f.keywordStart, []⟩] else []) ↔
        f.start ≠ f.keywordStart ∧ e = ⟨f.start, f.keywordStart, []⟩ := by
      split <;> simp_all
    have hreferences : e ∈ ((f.body.map fun body =>
          loaderReferences none (o.tokensWithin body.1 body.2)).getD []).map
          (fun x => ⟨x.start, x.stop, internal.toList⟩) ↔
        ∃ body x, f.body = some body ∧ x ∈ referencesIn o body ∧
          e = ⟨x.start, x.stop, internal.toList⟩ := by
      cases f.body with
      | none => simp
      | some body => simp [referencesIn, eq_comm]
    simp only [List.mem_append, List.mem_cons, hwords, hreferences, Option.some.injEq,
      exists_eq_left', or_assoc]
    simp only [List.mem_map, eq_comm]

theorem mem_outputEdits_iff {m : Member} : e ∈ outputEdits o m ↔
    ∃ body type span, m.body = some body ∧ IsOutput m type span ∧
      (e = ⟨span.1, span.2, type.toList⟩ ∨ e ∈ returnEdits o m.start body) := by
  unfold outputEdits
  constructor
  · intro he
    cases hfound : revisedOutput? m with
    | none => simp [hfound] at he
    | some found =>
      obtain ⟨hbody, houtput⟩ := revisedOutput?_eq_some_iff.mp hfound
      rw [hfound] at he
      exact ⟨found.1, found.2.1, found.2.2, hbody, houtput, by simpa using he⟩
  · rintro ⟨body, type, span, hbody, houtput, he⟩
    rw [revisedOutput?_eq_some_iff.mpr ⟨hbody, houtput⟩]
    simpa using he

/-- The edits of the glue are the replacements that it needs. -/
theorem mem_glueEdits_iff :
    e ∈ glueEdits o offsets internal ↔ IsGlueReplacement o offsets internal e := by
  rw [glueEdits, List.mem_append, List.mem_append, List.mem_flatMap, List.mem_flatMap]
  constructor
  · rintro ((⟨c, hc, he⟩ | he) | ⟨c, hc, he⟩)
    · obtain ⟨hmember, hname, hkind⟩ := mem_accessorsOf_iff.mp hc
      obtain ⟨body, count, hbody, hcount, rfl⟩ := mem_bodyEdits_iff.mp he
      exact .accessor hmember ⟨hname, hkind, hbody⟩ hcount
    · obtain ⟨f, hf, ⟨hwords, rfl⟩ | rfl | ⟨body, x, hbody, hx, rfl⟩ | ⟨st, hst, rfl⟩⟩ :=
        mem_loaderEdits_iff.mp he
      · exact .words hf hwords
      · exact .name hf
      · exact .reference hf hbody hx
      · exact .exported hf hst
    · obtain ⟨body, type, span, hbody, houtput, rfl | he⟩ := mem_outputEdits_iff.mp he
      · exact .documentation hc hbody houtput
      · exact .result hc hbody houtput he
  · intro h
    cases h with
    | accessor hmember hgetter hcount =>
      obtain ⟨hname, hkind, hbody⟩ := hgetter
      exact .inl (.inl ⟨_, mem_accessorsOf_iff.mpr ⟨hmember, hname, hkind⟩,
        mem_bodyEdits_iff.mpr ⟨_, _, hbody, hcount, rfl⟩⟩)
    | words hf hwords =>
      exact .inl (.inr (mem_loaderEdits_iff.mpr ⟨_, hf, .inl ⟨hwords, rfl⟩⟩))
    | name hf => exact .inl (.inr (mem_loaderEdits_iff.mpr ⟨_, hf, .inr (.inl rfl)⟩))
    | reference hf hbody hx =>
      exact .inl (.inr (mem_loaderEdits_iff.mpr
        ⟨_, hf, .inr (.inr (.inl ⟨_, _, hbody, hx, rfl⟩))⟩))
    | exported hf hst =>
      exact .inl (.inr (mem_loaderEdits_iff.mpr ⟨_, hf, .inr (.inr (.inr ⟨_, hst, rfl⟩))⟩))
    | documentation hc hbody houtput =>
      exact .inr ⟨_, hc, mem_outputEdits_iff.mpr ⟨_, _, _, hbody, houtput, .inl rfl⟩⟩
    | result hc hbody houtput he =>
      exact .inr ⟨_, hc, mem_outputEdits_iff.mpr ⟨_, _, _, hbody, houtput, .inr he⟩⟩

/-! ## What is reported -/

/-- The accessors that have a body. -/
def elementsGetters (o : Outline) : List (ClassShape × Member) :=
  (accessorsOf o).filter (·.2.body.isSome)

/-- The output methods that have a body, each with the type of its result. -/
def revisedOutputs (o : Outline) : List ((ClassShape × Member) × String) :=
  (membersOf o).filterMap fun c => (revisedOutput? c.2).map fun found => (c, found.2.1)

theorem mem_elementsGetters_iff :
    c ∈ elementsGetters o ↔ c ∈ membersOf o ∧ ∃ body, IsElementsGetter c.2 body := by
  rw [elementsGetters, List.mem_filter, mem_accessorsOf_iff, Option.isSome_iff_exists]
  constructor
  · rintro ⟨⟨hc, hname, hkind⟩, body, hbody⟩
    exact ⟨hc, body, hname, hkind, hbody⟩
  · rintro ⟨hc, body, hname, hkind, hbody⟩
    exact ⟨⟨hc, hname, hkind⟩, body, hbody⟩

theorem mem_revisedOutputs_iff {p : (ClassShape × Member) × String} : p ∈ revisedOutputs o ↔
    p.1 ∈ membersOf o ∧ ∃ body span, p.1.2.body = some body ∧ IsOutput p.1.2 p.2 span := by
  simp only [revisedOutputs, mem_found_iff, ← revisedOutput?_eq_some_iff]
  constructor
  · rintro ⟨hc, ⟨body, type, span⟩, hfound, rfl⟩
    exact ⟨hc, body, span, hfound⟩
  · rintro ⟨hc, body, span, hfound⟩
    exact ⟨hc, (body, p.2, span), hfound, rfl⟩

theorem revisedMethods_eq (o : Outline) : revisedMethods o =
    (revisedOutputs o).map (fun p => ⟨p.1.1.name, p.1.2.name, p.2⟩) :=
  flatMap_found revisedOutput? (fun found => found.2.1) (membersOf o)

/-- Accessors whose classes are in the table are reported if they have a body. -/
theorem revisedAccessors_eq
    (hknown : ∀ c ∈ elementsGetters o, (offsets.get? c.1.name).isSome = true) :
    revisedAccessors o offsets = (elementsGetters o).map (·.1.name) := by
  unfold elementsGetters at hknown ⊢
  rw [revisedAccessors]
  generalize accessorsOf o = cs at hknown ⊢
  induction cs with
  | nil => rfl
  | cons c rest ih =>
    cases hbody : c.2.body with
    | none =>
      rw [List.filter_cons_of_neg (by simp [hbody])] at hknown ⊢
      have hnone : elements? offsets c = none := by simp [elements?, hbody]
      rw [List.flatMap_cons, hnone, ih hknown]
      rfl
    | some body =>
      rw [List.filter_cons_of_pos (by simp [hbody]), List.forall_mem_cons] at hknown
      rw [List.filter_cons_of_pos (by simp [hbody])]
      obtain ⟨count, hcount⟩ := Option.isSome_iff_exists.mp hknown.1
      rw [List.flatMap_cons, elements?_eq_some_iff.mpr ⟨hbody, hcount⟩, ih hknown.2]
      rfl

/-! ## The pass over the accessors -/

/-- The bodies of some members do not meet. -/
def BodiesApart (cs : List (ClassShape × Member)) : Prop :=
  cs.Pairwise fun c c' => ∀ body ∈ c.2.body, ∀ body' ∈ c'.2.body, Apart body body'

variable {cs front back : List (ClassShape × Member)} {acc acc' : Revision × List String}
  {error : RevisionError}

theorem isStep_reviseAccessors (cs : List (ClassShape × Member)) (b : Revision)
    (found : List String) :
    IsStep (∃ c ∈ cs, c.2.body.isSome = true ∧ ¬ HasCount offsets c.1.name)
      (fun e => ∃ c ∈ cs, IsCountFailure offsets c e) b (cs.flatMap (bodyEdits o offsets))
      (fun b => (b, found ++
        cs.flatMap (fun c => ((elements? offsets c).map fun _ => c.1.name).toList)))
      (cs.foldlM (reviseAccessor o offsets) (b, found)) :=
  .foldlM (fun _ found c hc => (isStep_reviseAccessor found).weaken fun _ h => ⟨c, hc, h⟩) b found

/-- Accessors without a body are left alone. -/
theorem foldlM_filter_body (cs : List (ClassShape × Member)) (acc : Revision × List String) :
    cs.foldlM (reviseAccessor o offsets) acc =
      (cs.filter (·.2.body.isSome)).foldlM (reviseAccessor o offsets) acc := by
  induction cs generalizing acc with
  | nil => rfl
  | cons c cs ih =>
    cases hbody : c.2.body with
    | none =>
      have hskip : reviseAccessor o offsets acc c = .ok acc := by rw [reviseAccessor, hbody]
      rw [List.filter_cons_of_neg (by simp [hbody]), List.foldlM_cons, hskip, ← ih]
      rfl
    | some body =>
      rw [List.filter_cons_of_pos (by simp [hbody]), List.foldlM_cons, List.foldlM_cons]
      simp only [ih]

section

variable [Limits] (houtline : Script.outline t = .ok o)

include houtline

theorem body_within (hc : c ∈ membersOf o) (hbody : c.2.body = some body) :
    body.1 < body.2 ∧ body.2 ≤ t.length := by
  obtain ⟨hclass, hmember⟩ := mem_membersOf_iff.mp hc
  obtain ⟨hs, -⟩ := Script.outline_eq_ok_iff.mp houtline
  obtain ⟨-, hlt, hle, -⟩ := (Script.isBody_of_member houtline hclass hmember hbody).cuts hs
  exact ⟨Nat.lt_of_succ_lt hlt, hle⟩

/-- The bodies of some accessors can all be replaced just if they do not meet. -/
theorem isSound_bodies_iff (hcs : ∀ c ∈ cs, c ∈ membersOf o)
    (hcounts : ∀ c ∈ cs, HasCount offsets c.1.name) :
    Revision.IsSound ⟨t, cs.flatMap (bodyEdits o offsets)⟩ ↔ BodiesApart cs := by
  constructor
  · intro h
    refine (List.pairwise_flatMap.mp h.compatible).2.imp_of_mem ?_
    intro c c' hc hc' hcompatible body hbody body' hbody'
    obtain ⟨count, hcount, -⟩ := hcounts c hc
    obtain ⟨count', hcount', -⟩ := hcounts c' hc'
    have hmeets := hcompatible _ (mem_bodyEdits_iff.mpr ⟨body, count, hbody, hcount, rfl⟩) _
      (mem_bodyEdits_iff.mpr ⟨body', count', hbody', hcount', rfl⟩)
    have hle := Nat.le_of_lt (body_within houtline (hcs c hc) hbody).1
    have hle' := Nat.le_of_lt (body_within houtline (hcs c' hc') hbody').1
    exact ((Edit.compatible_iff_apart hle hle').mp hmeets).1
  · intro hapart
    constructor
    · intro e he
      obtain ⟨c, hc, he⟩ := List.mem_flatMap.mp he
      obtain ⟨body, count, hbody, -, rfl⟩ := mem_bodyEdits_iff.mp he
      obtain ⟨hlt, hle⟩ := body_within houtline (hcs c hc) hbody
      exact ⟨Nat.le_of_lt hlt, hle⟩
    · refine List.pairwise_flatMap.mpr ⟨?_, hapart.imp_of_mem ?_⟩
      · intro c hc
        unfold bodyEdits
        cases elements? offsets c <;> simp
      · intro c c' hc hc' happart e he e' he'
        obtain ⟨body, count, hbody, -, rfl⟩ := mem_bodyEdits_iff.mp he
        obtain ⟨body', count', hbody', -, rfl⟩ := mem_bodyEdits_iff.mp he'
        have hlt := (body_within houtline (hcs c hc) hbody).1
        have hlt' := (body_within houtline (hcs c' hc') hbody').1
        refine (Edit.compatible_iff_apart (Nat.le_of_lt hlt) (Nat.le_of_lt hlt')).mpr
          ⟨happart body hbody body' hbody', ?_⟩
        intro hsame
        obtain ⟨hstart, hstop⟩ := Prod.mk.inj hsame
        rcases happart body hbody body' hbody' with h | h
        · simp only at hstart
          omega
        · simp only at hstop
          omega

/-- Accessors are replaced just if their numbers are known and can be written, and their bodies do
not meet. -/
theorem foldlM_reviseAccessor_isOk_iff
    (hcs : ∀ c ∈ cs, c ∈ membersOf o ∧ c.2.body.isSome = true) :
    (cs.foldlM (reviseAccessor o offsets) (Revision.ofText t, [])).isOk = true ↔
      (∀ c ∈ cs, HasCount offsets c.1.name) ∧ BodiesApart cs := by
  have hmembers : ∀ c ∈ cs, c ∈ membersOf o := fun c hc => (hcs c hc).1
  rw [(isStep_reviseAccessors cs (Revision.ofText t) []).isOk_iff (Revision.isSound_ofText t),
    Revision.ofText_add]
  constructor
  · rintro ⟨hbarred, hsound⟩
    have hcounts : ∀ c ∈ cs, HasCount offsets c.1.name := fun c hc =>
      not_not.mp fun hcount => hbarred ⟨c, hc, (hcs c hc).2, hcount⟩
    exact ⟨hcounts, (isSound_bodies_iff houtline hmembers hcounts).mp hsound⟩
  · rintro ⟨hcounts, hapart⟩
    refine ⟨?_, (isSound_bodies_iff houtline hmembers hcounts).mpr hapart⟩
    rintro ⟨c, hc, -, hcount⟩
    exact hcount (hcounts c hc)

omit [Limits] houtline in
/-- The pass over the accessors goes on to one whose class is not in the table, if it comes so
far. -/
theorem foldlM_unknownType (hsplit : elementsGetters o = front ++ c :: back)
    (hbody : c.2.body = some body) (hunknown : offsets.get? c.1.name = none)
    (acc : Revision × List String) :
    (accessorsOf o).foldlM (reviseAccessor o offsets) acc =
      (front.foldlM (reviseAccessor o offsets) acc >>= fun _ =>
        .error (.missing glueArtifact .accessor (.unknownType c.1.name))) := by
  unfold elementsGetters at hsplit
  rw [foldlM_filter_body, hsplit, List.foldlM_append]
  congr 1
  funext acc
  have hfails : reviseAccessor o offsets acc c =
      .error (.missing glueArtifact .accessor (.unknownType c.1.name)) := by
    rw [reviseAccessor, hbody]
    simp only [elementCount, hunknown]
    rfl
  rw [List.foldlM_cons, hfails]
  rfl

theorem reviseGlue_error (internal : String)
    (h : (accessorsOf o).foldlM (reviseAccessor o offsets) (Revision.ofText t, []) = .error error) :
    reviseGlue t offsets internal = .error error := by
  rw [reviseGlue, outlineOf_of_outline houtline]
  simp only [bind, Except.bind, h]

/-- An accessor whose class is not in the table makes the pass fail.  If it is the first such one,
the failure names its class just if the accessors before it can be replaced. -/
theorem reviseGlue_unknownType (internal : String)
    (hsplit : elementsGetters o = front ++ c :: back) (hunknown : offsets.get? c.1.name = none) :
    ∃ error, reviseGlue t offsets internal = .error error ∧
      ((∀ q ∈ front, (offsets.get? q.1.name).isSome = true) →
        (error = .missing glueArtifact .accessor (.unknownType c.1.name) ↔
          (∀ q ∈ front, HasCount offsets q.1.name) ∧ BodiesApart front)) := by
  have hmem {q : ClassShape × Member} (hq : q ∈ front ++ c :: back) :
      q ∈ membersOf o ∧ q.2.body.isSome = true := by
    rw [← hsplit] at hq
    obtain ⟨hq, body, -, -, hbody⟩ := mem_elementsGetters_iff.mp hq
    exact ⟨hq, by rw [hbody]; rfl⟩
  obtain ⟨body, hbody⟩ := Option.isSome_iff_exists.mp (hmem (q := c) (by simp)).2
  have hrun := foldlM_unknownType hsplit hbody hunknown (Revision.ofText t, [])
  have hiff : (front.foldlM (reviseAccessor o offsets) (Revision.ofText t, [])).isOk = true ↔
      (∀ q ∈ front, HasCount offsets q.1.name) ∧ BodiesApart front :=
    foldlM_reviseAccessor_isOk_iff houtline (fun q hq => hmem (List.mem_append_left _ hq))
  cases hfront : front.foldlM (reviseAccessor o offsets) (Revision.ofText t, []) with
  | ok acc =>
    rw [hfront] at hrun hiff
    refine ⟨_, reviseGlue_error houtline internal hrun, ?_⟩
    intro _
    exact iff_of_true rfl (hiff.mp rfl)
  | error error =>
    rw [hfront] at hrun hiff
    refine ⟨error, reviseGlue_error houtline internal hrun, ?_⟩
    intro hknown
    apply iff_of_false
    · rintro rfl
      -- where all classes are in the table, numbers are too long or bodies meet
      obtain ⟨q, hq, ⟨hnone, -⟩ | ⟨-, hnumeral⟩⟩ | ⟨⟨cause, hcause⟩, -⟩ :=
        (isStep_reviseAccessors front _ _).error_cases hfront
      · have hsome := hknown q hq
        rw [hnone] at hsome
        cases hsome
      · cases hnumeral
      · cases hcause
    · intro hready
      exact Bool.false_ne_true (hiff.mpr hready)

theorem known_of_reviseGlue (h : reviseGlue t offsets internal = .ok r) :
    ∀ c ∈ elementsGetters o, (offsets.get? c.1.name).isSome = true := by
  intro c hc
  by_contra hunknown
  obtain ⟨front, back, hsplit⟩ := List.append_of_mem hc
  obtain ⟨error, herror, -⟩ := reviseGlue_unknownType houtline internal hsplit
    (Option.not_isSome_iff_eq_none.mp hunknown)
  rw [herror] at h
  cases h

/-! ## The glue -/

theorem slice_of_function {f : FunctionShape} (hf : f ∈ o.functions) :
    t.slice f.nameStart f.nameStop = f.name.toList := by
  obtain ⟨hs, hitems⟩ := Script.outline_eq_ok_iff.mp houtline
  obtain ⟨i, next, hitem, -⟩ :=
    Script.Source.exists_item_of_mem hitems (Script.mem_functions_iff.mp hf)
  obtain ⟨x, hx, htext, hstart, hstop⟩ :=
    Script.Source.functionDecl_name (Script.Source.functionDecl_of_item hitem)
  rw [← hstart, ← hstop, ← htext]
  exact Script.Source.slice_of_code hs hx

theorem place_of_reference {x : Token} (hx : x ∈ referencesIn o body) :
    x.face = word loaderName ∧ body.1 ≤ x.start ∧ x.stop ≤ body.2 := by
  obtain ⟨hs, -⟩ := Script.outline_eq_ok_iff.mp houtline
  obtain ⟨i, -, hname, -⟩ := mem_loaderReferences_iff.mp hx
  have hplace := (Script.Source.standIn_codeIn hs).within x
    ((loaderReferences_sublist none _).subset hx)
  exact ⟨hname, hplace.1, hplace.2.2⟩

end

/-- The revised glue is the text with just these replacements, which do not meet and lie where they
should, and the lists name the accessors and the output methods in their order. -/
structure TouchesOnly (t : Text) (o : Outline) (offsets : OffsetTable) (internal : String)
    (r : Revised) (edits : List Edit) (getters : List (ClassShape × Member))
    (outputs : List ((ClassShape × Member) × String)) : Prop where
  replaced : ∀ e, e ∈ edits ↔ IsGlueReplacement o offsets internal e
  within : ∀ e ∈ edits, e.start ≤ e.stop ∧ e.stop ≤ t.length
  apart : edits.Pairwise (fun a e => Apart a.span e.span ∧ a.span ≠ e.span)
  kept : r.text = t.edited edits
  loader : ∃ f body, o.function? loaderName = some f ∧ f.body = some body ∧
    f.start ≤ f.keywordStart ∧ f.keywordStart ≤ f.nameStart ∧
    t.slice f.nameStart f.nameStop = loaderName.toList ∧
    ∀ x ∈ referencesIn o body, x.face = word loaderName ∧ body.1 ≤ x.start ∧ x.stop ≤ body.2
  exports : ∀ st ∈ o.statementsOf ["export", "default", loaderName, ";"],
    Text.GrowsOnLines t st.start st.stop (removalOf o.text st).span
  voids : ∀ c ∈ membersOf o, ∀ type span, IsOutput c.2 type span →
    t.slice span.1 span.2 = "void".toList
  results : ∀ c ∈ membersOf o, ∀ body ∈ c.2.body, ∀ e ∈ returnEdits o c.2.start body,
    StaysAtEnd o body e
  accessors : r.accessors = getters.map (·.1.name)
  gettersAre : ∀ c, c ∈ getters ↔ c ∈ membersOf o ∧ ∃ body, IsElementsGetter c.2 body
  gettersKnown : ∀ c ∈ getters, (offsets.get? c.1.name).isSome = true
  gettersOrdered : getters.Pairwise (fun c c' => c.2.start < c'.2.start)
  outMethods : r.outMethods = outputs.map (fun p => ⟨p.1.1.name, p.1.2.name, p.2⟩)
  outputsAre : ∀ p, p ∈ outputs ↔
    p.1 ∈ membersOf o ∧ ∃ body span, p.1.2.body = some body ∧ IsOutput p.1.2 p.2 span
  outputsOrdered : outputs.Pairwise (fun p p' => p.1.2.start < p'.1.2.start)

/-- Glue that is revised is the text with the replacements that it needs and with no other change.
An accessor whose class is not in the table makes the pass fail; if it is the first such one, the
failure names its class just if the accessors before it can be replaced. -/
theorem reviseGlue_touchesOnly [Limits] (t : Text) (offsets : OffsetTable) (internal : String) :
    (∀ r, reviseGlue t offsets internal = .ok r → ∃ o, Script.outline t = .ok o ∧
      ∃ edits getters outputs, TouchesOnly t o offsets internal r edits getters outputs) ∧
    ∀ o, Script.outline t = .ok o → ∀ front c back, elementsGetters o = front ++ c :: back →
      offsets.get? c.1.name = none → ∃ error, reviseGlue t offsets internal = .error error ∧
        ((∀ q ∈ front, (offsets.get? q.1.name).isSome = true) →
          (error = .missing glueArtifact .accessor (.unknownType c.1.name) ↔
            (∀ q ∈ front, HasCount offsets q.1.name) ∧ BodiesApart front)) := by
  constructor
  · intro r h
    obtain ⟨o, houtline, hsuits, hsound, rfl⟩ := reviseGlue_eq_ok_iff.mp h
    obtain ⟨f, body, hloader, hbody⟩ := hsuits.loader
    have htext : o.text = t := (Script.isPlaced_of_outline houtline).1
    have hknown := known_of_reviseGlue houtline h
    refine ⟨o, houtline, glueEdits o offsets internal, elementsGetters o, revisedOutputs o, ?_⟩
    constructor
    case replaced => exact fun e => mem_glueEdits_iff
    case within => exact hsound.within
    case apart => exact hsound.apart
    case kept => exact hsound.apply_eq
    case loader =>
      obtain ⟨hmem, hparts, -⟩ := Script.parts_of_function? houtline hloader
      have hname := slice_of_function houtline hmem
      rw [name_of_function? hloader] at hname
      exact ⟨f, body, hloader, hbody, hparts.keyword.1, hparts.keyword.2, hname,
        fun x => place_of_reference houtline⟩
    case exports =>
      intro st _
      rw [htext]
      exact Text.growsOnLines_lineSpan t st.start st.stop
    case voids => exact fun c hc type span => slice_of_isOutput houtline hc
    case results => exact fun c _ body _ e => staysAtEnd_of_mem houtline
    case accessors => exact revisedAccessors_eq hknown
    case gettersAre => exact fun c => mem_elementsGetters_iff
    case gettersKnown => exact hknown
    case gettersOrdered =>
      exact ((membersOf_ordered houtline).sublist accessorsOf_sublist).filter _
    case outMethods => exact revisedMethods_eq o
    case outputsAre => exact fun p => mem_revisedOutputs_iff
    case outputsOrdered => exact found_ordered revisedOutput? (fun found => found.2.1) houtline
  · intro o houtline front c back hsplit hunknown
    exact reviseGlue_unknownType houtline internal hsplit hunknown

/-- Glue with an accessor, an output method, and a loader that refers to itself and is exported in
both ways. -/
def exportedGlue : Text :=
  "class V\x7bget elements()\x7b\x7d/**@param\x7bV\x7dout@return\x7bvoid\x7d*/".toList ++
    "static z(out)\x7bf(out)\x7d\x7d\nexport async function init()\x7breturn init\x7d\n".toList ++
    "  export default init;\n".toList

theorem reviseGlue_touchesOnly_exportedGlue :
    (∃ r o edits getters outputs,
      reviseGlue exportedGlue ⟨[("V", 1)]⟩ defaultInternalName = .ok r ∧
        TouchesOnly exportedGlue o ⟨[("V", 1)]⟩ defaultInternalName r edits getters outputs) ∧
      reviseGlue exportedGlue .empty defaultInternalName =
        .error (.missing glueArtifact .accessor (.unknownType "V")) := by
  constructor
  · obtain ⟨r, h⟩ : ∃ r, reviseGlue exportedGlue ⟨[("V", 1)]⟩ defaultInternalName = .ok r :=
      exists_eq_ok_of_isOk (by decide +kernel)
    obtain ⟨o, -, edits, getters, outputs, htouches⟩ :=
      (reviseGlue_touchesOnly exportedGlue ⟨[("V", 1)]⟩ defaultInternalName).1 r h
    exact ⟨r, o, edits, getters, outputs, h, htouches⟩
  · have hgetters : (Script.outline exportedGlue).toOption.any (fun o =>
        (elementsGetters o).map (·.1.name) = ["V"]) = true := by
      decide +kernel
    obtain ⟨o, houtline, hnames⟩ := Script.exists_ok_of_any hgetters
    obtain ⟨c, hc, hname⟩ := List.map_eq_singleton_iff.mp (of_decide_eq_true hnames)
    obtain ⟨error, hfails, herror⟩ :=
      (reviseGlue_touchesOnly exportedGlue .empty defaultInternalName).2 o houtline [] c [] hc rfl
    rw [hfails, (herror (List.forall_mem_nil _)).mpr ⟨List.forall_mem_nil _, List.Pairwise.nil⟩,
      hname]

/-- Three classes with accessors; the type parameters of the first accessor run on into the second
class. -/
def lostClass : Text :=
  "class A\x7bget elements<\x7dclass B\x7bget elements()\x7b>()\x7b\x7d\x7d\x7d".toList ++
    "class C\x7bget elements()\x7b\x7d\x7d".toList

/-- The failure does not name the class that is not in the table, if the body of an accessor before
lies in that of another, or if the number of its floats is too long. -/
theorem lostClass_notNamed :
    (Script.outline lostClass).toOption.any (fun o =>
      (elementsGetters o).map (·.1.name) = ["A", "B", "C"]) = true ∧
    OffsetTable.get? ⟨[("A", 1), ("B", 1)]⟩ "C" = none ∧
    OffsetTable.get? ⟨[("A", 10 ^ 4300), ("B", 1)]⟩ "C" = none ∧
    reviseGlue lostClass ⟨[("A", 1), ("B", 1)]⟩ defaultInternalName =
      .error (.conflict (.overlaps 44 51 48 50)) ∧
    reviseGlue lostClass ⟨[("A", 10 ^ 4300), ("B", 1)]⟩ defaultInternalName =
      .error (.numeral .tooLongToWrite) := by
  decide +kernel

end WasmPackage.Bindings
