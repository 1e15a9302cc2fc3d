import WasmPackage.Proofs.Bindings.EditPlaces
import WasmPackage.Proofs.Bindings.Recorded

/-!
# What declarations become

Three kinds of parts of the declarations are replaced: the accessors, the loader, and the two places
where an output method says that it returns nothing.  All else stays, and the lists that come with
the new text name what was replaced, in the order of the text.
-/

namespace WasmPackage

namespace Script

variable {t : Text} {o : Outline} {s : Source} {m : Member} {c : ClassShape} {d : DocComment}
  {n : TypeNote} {i close left start keyword next stop last : Nat}

/-! ## Places that do not depend on nesting -/

/-- What documents a code token is a comment before it, or one that was pending. -/
theorem mem_documented (pending : Option DocComment) {tokens : List Token}
    {p : Token × Option DocComment} (hp : p ∈ documented pending tokens) (hd : d ∈ p.2) :
    d ∈ pending ∨ ∃ x ∈ tokens, d = ⟨x.text.toList, x.start⟩ := by
  induction tokens generalizing pending with
  | nil => cases hp
  | cons x tokens ih =>
    have hrest {pending : Option DocComment} (hp : p ∈ documented pending tokens) :
        d ∈ pending ∨ ∃ x' ∈ x :: tokens, d = ⟨x'.text.toList, x'.start⟩ := by
      rcases ih pending hp with hpending | ⟨x', hx', hd'⟩
      · exact .inl hpending
      · exact .inr ⟨x', List.mem_cons_of_mem _ hx', hd'⟩
    rw [documented] at hp
    split at hp
    · split at hp
      · rcases hrest hp with hpending | htoken
        · cases hpending
          exact .inr ⟨x, List.mem_cons_self, rfl⟩
        · exact .inr htoken
      · exact hrest hp
    · rcases List.mem_cons.mp hp with rfl | hp
      · exact .inl hd
      · rcases hrest hp with hnone | htoken
        · cases hnone
        · exact .inr htoken

namespace Source

/-- A documentation comment is what the text has at its place. -/
theorem slice_of_doc? [Limits] (hs : Source.read t = .ok s) (hd : s.doc? i = some d) :
    t.slice d.start d.stop = d.text := by
  obtain ⟨-, htokens, -, hdocs, -⟩ := read_eq_ok hs
  have hdoc : (documented none s.tokens)[i]?.map Prod.snd = some (some d) := by
    rw [← List.getElem?_map, ← hdocs, Array.getElem?_toList]
    exact Option.join_eq_some_iff.mp hd
  obtain ⟨p, hp, hpd⟩ := Option.map_eq_some_iff.mp hdoc
  rcases mem_documented none (List.mem_of_getElem? hp) (d := d) (by rw [hpd]; rfl) with
    hnone | ⟨x, hx, rfl⟩
  · cases hnone
  · have hslice := slice_of_tokensFrom (tokensFrom_of_tokenize htokens) List.drop_zero hx
    rwa [Token.stop, ← String.length_toList] at hslice

/-- A type is what the text has at its place. -/
theorem text_of_typeNote (hn : n ∈ (s.typeNote stop i).1) : n.text = s.excerpt n.start n.stop := by
  unfold typeNote at hn
  split at hn
  · simp only at hn
    split at hn
    · cases hn
      rfl
    · cases hn
  · cases hn

/-- What is known of a member wherever it ends: it begins in its class, its parameters end behind
that, and its type and its comment are parts of the text. -/
structure HasPlace (t : Text) (m : Member) : Prop where
  params : ∀ p ∈ m.paramsStop, m.start < p
  type : ∀ n ∈ m.returnType, n.text.toList = t.slice n.start n.stop
  doc : ∀ d ∈ m.doc, t.slice d.start d.stop = d.text

theorem hasPlace_memberAt [Limits] (hs : Source.read t = .ok s) {modifiers : Modifiers}
    {first : Nat} {name : String} (hstart : start ≤ first) (hfirst : first ≤ last)
    (hlast : last < s.size) :
    HasPlace t (s.memberAt close start modifiers first name last).1 := by
  obtain ⟨htext, hplaced⟩ := isPlaced_of_read hs
  constructor
  · intro p hp
    rw [memberAt_paramsStop] at hp
    split at hp
    · next hcall =>
      cases hp
      have hbehind := s.lt_behindName last
      have hskip := s.lt_skip (s.behindName last)
      have hparams : s.behindParams last = s.skip (s.behindName last) := if_pos hcall
      exact hplaced.startAt_lt_stopAt (by omega) (by omega)
    · cases hp
  · intro n hn
    rw [text_of_typeNote hn, excerpt, String.toList_ofList, htext]
  · intro d hd
    exact slice_of_doc? hs hd

/-- Each member of a class begins behind the one before, and in the class. -/
theorem membersFrom_starts [Limits] (hs : Source.read t = .ok s)
    (hclose : s.closer? left = some close) (hleft : left < i) :
    (s.membersFrom close i).Pairwise (fun a b => a.start < b.start) ∧
      ∀ m ∈ s.membersFrom close i, s.startAt left < m.start ∧ m.start < s.startAt close ∧
        HasPlace t m := by
  have hplaced := (isPlaced_of_read hs).2
  have hsize := (lt_of_closer? hs hclose).2
  constructor
  · fun_induction membersFrom s close i with
    | case1 i hi hempty ih => exact ih (by omega)
    | case2 i hi hempty found next hmember ih =>
      cases found with
      | none => exact ih (by omega)
      | some first =>
        refine List.pairwise_cons.mpr ⟨?_, ih (by omega)⟩
        intro m hm
        obtain ⟨modifiers, index, name, last, -, -, -, heq⟩ := of_member hs hclose hleft hi hmember
        obtain ⟨start, -, index', -, last', hstart, hfirst', hlast', hin', rfl⟩ :=
          mem_membersFrom hs hclose (by omega) hm
        have hfirst : first.start = s.startAt i := by
          rw [← (Prod.mk.inj heq).1]
        rw [hfirst]
        exact hplaced.startAt_lt_startAt (by omega) (by omega)
    | case3 => exact List.Pairwise.nil
  · intro m hm
    obtain ⟨start, modifiers, first, name, last, hstart, hfirst, hlast, hin, rfl⟩ :=
      mem_membersFrom hs hclose hleft hm
    refine ⟨?_, ?_, hasPlace_memberAt hs hfirst hlast (by omega)⟩
    · exact hplaced.startAt_lt_startAt (by omega) (by omega)
    · exact hplaced.startAt_lt_startAt (by omega) (by omega)

theorem members_of_classDecl [Limits] (hs : Source.read t = .ok s) (hstart : start ≤ keyword)
    (h : s.classDecl start keyword = .ok (c, next)) :
    c.members.Pairwise (fun a b => a.start < b.start) ∧
      ∀ m ∈ c.members, c.start < m.start ∧ m.start < c.stop ∧ HasPlace t m := by
  obtain ⟨hopen, hend, -⟩ := classDecl_parts hs hstart h
  obtain ⟨left, close, -, hclose, -, -, rfl⟩ := classDecl_eq_ok hs h
  obtain ⟨hordered, hmembers⟩ := membersFrom_starts hs hclose (Nat.lt_succ_self left)
  refine ⟨hordered, ?_⟩
  intro m hm
  obtain ⟨hfirst, hlast, hplace⟩ := hmembers m hm
  exact ⟨Nat.lt_trans hopen hfirst, Nat.lt_trans hlast hend, hplace⟩

end Source

end Script

namespace Bindings

open Script (ClassShape Member Outline TypeNote)

variable {t : Text} {o : Outline} {c c' : ClassShape × Member} {m : Member} {e : Edit}
  {r : Revised} {stop : Nat} {span : Nat × Nat} {note : TypeNote} {type : String}

theorem mem_membersOf_iff : c ∈ membersOf o ↔ c.1 ∈ o.classes ∧ c.2 ∈ c.1.members := by
  constructor
  · exact mem_of_mem_membersOf
  · rintro ⟨hclass, hmember⟩
    exact List.mem_flatMap.mpr ⟨c.1, hclass, List.mem_map.mpr ⟨c.2, hmember, rfl⟩⟩

section

variable [Limits] (houtline : Script.outline t = .ok o)

include houtline

theorem members_of_class {k : ClassShape} (hk : k ∈ o.classes) :
    k.members.Pairwise (fun a b => a.start < b.start) ∧
      ∀ m ∈ k.members, k.start < m.start ∧ m.start < k.stop ∧ Script.Source.HasPlace t m := by
  obtain ⟨hs, hitems⟩ := Script.outline_eq_ok_iff.mp houtline
  obtain ⟨i, next, hitem, -⟩ :=
    Script.Source.exists_item_of_mem hitems (Script.mem_classes_iff.mp hk)
  exact Script.Source.members_of_classDecl hs Script.Source.le_behindModifiers
    (Script.Source.classDecl_of_item hitem)

theorem hasPlace_of_mem (hc : c ∈ membersOf o) : Script.Source.HasPlace t c.2 :=
  ((members_of_class houtline (mem_membersOf_iff.mp hc).1).2 c.2 (mem_membersOf_iff.mp hc).2).2.2

/-- The members of all classes begin one behind another. -/
theorem membersOf_ordered : (membersOf o).Pairwise (fun c c' => c.2.start < c'.2.start) := by
  apply pairwise_membersOf houtline
  · intro k hk
    exact (members_of_class houtline hk).1
  · intro k hk k' hk' hkk' m hm m' hm'
    have hlast := ((members_of_class houtline hk).2 m hm).2.1
    have hfirst := ((members_of_class houtline hk').2 m' hm').1
    simp only
    omega

end

/-! ## What is replaced -/

/-- A getter `elements` with a parameter list, which ends at this offset. -/
structure IsAccessor (m : Member) (stop : Nat) : Prop where
  name : m.name = accessorName
  getter : m.kind = .getter
  params : m.paramsStop = some stop

/-- An output method that is declared to return nothing: the place of that in its signature, the
type of its first parameter, and the place of the word in its documentation. -/
structure IsVoidOutput (m : Member) (note : TypeNote) (type : String) (span : Nat × Nat) :
    Prop where
  declared : m.returnType = some note
  nothing : note.text = "void"
  output : IsOutput m type span

/-- The replacements that the declarations of an outline need. -/
inductive IsReplacement (o : Outline) : Edit → Prop
  | property {c : ClassShape × Member} {stop : Nat} :
    c ∈ membersOf o → IsAccessor c.2 stop →
      IsReplacement o ⟨c.2.start, stop, "readonly elements".toList⟩
  | loader {f : Script.FunctionShape} :
    o.function? "init" = some f →
      IsReplacement o ⟨f.start, f.stop, "export function init(): Promise<any>;".toList⟩
  | result {c : ClassShape × Member} {note : TypeNote} {type : String} {span : Nat × Nat} :
    c ∈ membersOf o → IsVoidOutput c.2 note type span →
      IsReplacement o ⟨note.start, note.stop, type.toList⟩
  | documentation {c : ClassShape × Member} {note : TypeNote} {type : String} {span : Nat × Nat} :
    c ∈ membersOf o → IsVoidOutput c.2 note type span →
      IsReplacement o ⟨span.1, span.2, type.toList⟩

/-- The revised declarations are the text with just these replacements, which do not meet, and the
lists name the accessors and the output methods in their order. -/
structure IsExact (t : Text) (o : Outline) (r : Revised) (edits : List Edit)
    (getters : List (ClassShape × Member)) (outputs : List ((ClassShape × Member) × String)) :
    Prop where
  replaced : ∀ e, e ∈ edits ↔ IsReplacement o e
  within : ∀ e ∈ edits, e.start < e.stop ∧ e.stop ≤ t.length
  apart : edits.Pairwise (fun a e => Apart a.span e.span)
  kept : r.text = t.edited edits
  voids : ∀ c ∈ membersOf o, ∀ note type span, IsVoidOutput c.2 note type span →
    t.slice note.start note.stop = "void".toList ∧ t.slice span.1 span.2 = "void".toList
  loader : (o.function? "init").isSome = true
  accessors : r.accessors = getters.map (·.1.name) ∧ getters ≠ []
  gettersAre : ∀ c, c ∈ getters ↔ c ∈ membersOf o ∧ ∃ stop, IsAccessor c.2 stop
  gettersOrdered : getters.Pairwise (fun c c' => c.2.start < c'.2.start)
  outMethods : r.outMethods = outputs.map (fun p => ⟨p.1.1.name, p.1.2.name, p.2⟩) ∧ outputs ≠ []
  outputsAre : ∀ p, p ∈ outputs ↔
    p.1 ∈ membersOf o ∧ ∃ note span, IsVoidOutput p.1.2 note p.2 span
  outputsOrdered : outputs.Pairwise (fun p p' => p.1.2.start < p'.1.2.start)

theorem mem_accessorsOf_iff :
    c ∈ accessorsOf o ↔ c ∈ membersOf o ∧ c.2.name = accessorName ∧ c.2.kind = .getter := by
  rw [mem_membersOf_iff, accessorsOf, List.mem_flatMap]
  simp only [List.mem_map, ClassShape.membersNamed, List.mem_filter, Bool.and_eq_true,
    decide_eq_true_eq]
  constructor
  · rintro ⟨k, hk, m, ⟨hm, hname, hkind⟩, rfl⟩
    exact ⟨⟨hk, hm⟩, hname, hkind⟩
  · rintro ⟨⟨hk, hm⟩, hname, hkind⟩
    exact ⟨c.1, hk, c.2, ⟨hm, hname, hkind⟩, rfl⟩

theorem declaredOutput?_eq_some_iff_isVoidOutput :
    declaredOutput? m = some (note, type, span) ↔ IsVoidOutput m note type span := by
  rw [declaredOutput?_eq_some_iff]
  constructor
  · rintro ⟨hnote, hvoid, houtput⟩
    exact ⟨hnote, hvoid, houtput⟩
  · rintro ⟨hnote, hvoid, houtput⟩
    exact ⟨hnote, hvoid, houtput⟩

theorem mem_resultEdits_iff : e ∈ resultEdits m ↔ ∃ note type span, IsVoidOutput m note type span ∧
    (e = ⟨note.start, note.stop, type.toList⟩ ∨ e = ⟨span.1, span.2, type.toList⟩) := by
  simp only [← declaredOutput?_eq_some_iff_isVoidOutput]
  unfold resultEdits
  constructor
  · intro he
    cases hfound : declaredOutput? m with
    | none => simp [hfound] at he
    | some found =>
      obtain ⟨note, type, span⟩ := found
      rw [hfound] at he
      exact ⟨note, type, span, rfl, by simpa using he⟩
  · rintro ⟨note, type, span, hfound, he⟩
    simpa [hfound] using he

/-- The edits of the declarations are the replacements that they need. -/
theorem mem_declarationEdits_iff : e ∈ declarationEdits o ↔ IsReplacement o e := by
  rw [declarationEdits, List.mem_append, List.mem_append, List.mem_flatMap, List.mem_flatMap]
  constructor
  · rintro ((⟨c, hc, he⟩ | he) | ⟨c, hc, he⟩)
    · obtain ⟨hmember, hname, hkind⟩ := mem_accessorsOf_iff.mp hc
      obtain ⟨stop, hstop, rfl⟩ := Option.map_eq_some_iff.mp (Option.mem_toList.mp he)
      exact .property hmember ⟨hname, hkind, hstop⟩
    · obtain ⟨f, hf, rfl⟩ := Option.map_eq_some_iff.mp (Option.mem_toList.mp he)
      exact .loader hf
    · obtain ⟨note, type, span, hvoid, rfl | rfl⟩ := mem_resultEdits_iff.mp he
      · exact .result hc hvoid
      · exact .documentation hc hvoid
  · intro h
    cases h with
    | property hmember haccessor =>
      obtain ⟨hname, hkind, hstop⟩ := haccessor
      refine .inl (.inl ⟨_, mem_accessorsOf_iff.mpr ⟨hmember, hname, hkind⟩, ?_⟩)
      rw [propertyEdits, hstop]
      exact List.mem_singleton_self _
    | loader hf =>
      refine .inl (.inr ?_)
      rw [hf]
      exact List.mem_singleton_self _
    | result hmember hvoid =>
      exact .inr ⟨_, hmember, mem_resultEdits_iff.mpr ⟨_, _, _, hvoid, .inl rfl⟩⟩
    | documentation hmember hvoid =>
      exact .inr ⟨_, hmember, mem_resultEdits_iff.mpr ⟨_, _, _, hvoid, .inr rfl⟩⟩

section

variable [Limits] (houtline : Script.outline t = .ok o)

include houtline

/-- The place in the documentation of an output method that is replaced holds the word `void`. -/
theorem slice_of_isOutput (hc : c ∈ membersOf o) (h : IsOutput c.2 type span) :
    t.slice span.1 span.2 = "void".toList := by
  have hplace := hasPlace_of_mem houtline hc
  obtain ⟨doc, hdoc, hvoid, -⟩ := h.documented
  obtain ⟨hfirst, hlt, hlast⟩ := Script.voidSpan?_within hvoid
  have hword := Script.slice_of_voidSpan? hvoid
  have hstart : doc.start + (span.1 - doc.start) = span.1 := by omega
  rw [← hplace.doc doc hdoc, Text.slice, Text.slice, List.drop_take, List.take_take,
    List.drop_drop, hstart, Nat.min_eq_left (by omega)] at hword
  rw [← hword, Text.slice]
  congr 1
  omega

/-- The two places of an output method that are replaced hold the word `void`. -/
theorem slices_of_isVoidOutput (hc : c ∈ membersOf o) (h : IsVoidOutput c.2 note type span) :
    t.slice note.start note.stop = "void".toList ∧ t.slice span.1 span.2 = "void".toList := by
  have hplace := hasPlace_of_mem houtline hc
  constructor
  · rw [← hplace.type note h.declared, h.nothing]
  · exact slice_of_isOutput houtline hc h.output

theorem lt_of_isReplacement (h : IsReplacement o e) : e.start < e.stop := by
  have hslice {start stop : Nat} (h : t.slice start stop = "void".toList) : start < stop := by
    by_contra hnot
    rw [Text.slice, Nat.sub_eq_zero_of_le (Nat.le_of_not_lt hnot), List.take_zero] at h
    cases h
  cases h with
  | property hc haccessor => exact (hasPlace_of_mem houtline hc).params _ haccessor.params
  | loader hf =>
    exact (Script.parts_of_function? houtline hf).2.1.start_lt_stop
  | result hc hvoid => exact hslice (slices_of_isVoidOutput houtline hc hvoid).1
  | documentation hc hvoid => exact hslice (slices_of_isVoidOutput houtline hc hvoid).2

end

/-! ## What is reported -/

section

variable {α β : Type} (find : Member → Option α) (part : α → β)

theorem mem_found_iff {cs : List (ClassShape × Member)} {p : (ClassShape × Member) × β} :
    p ∈ cs.filterMap (fun c => (find c.2).map fun found => (c, part found)) ↔
      p.1 ∈ cs ∧ ∃ found, find p.1.2 = some found ∧ part found = p.2 := by
  obtain ⟨c, b⟩ := p
  simp only [List.mem_filterMap, Option.map_eq_some_iff, Prod.mk.injEq]
  constructor
  · rintro ⟨c', hc', found, hfound, rfl, rfl⟩
    exact ⟨hc', found, hfound, rfl⟩
  · rintro ⟨hc, found, hfound, rfl⟩
    exact ⟨c, hc, found, hfound, rfl, rfl⟩

/-- What is found in the members of a script stands in their order. -/
theorem found_ordered [Limits] (houtline : Script.outline t = .ok o) :
    ((membersOf o).filterMap fun c => (find c.2).map fun found => (c, part found)).Pairwise
      (fun p p' => p.1.2.start < p'.1.2.start) := by
  rw [List.pairwise_filterMap]
  refine (membersOf_ordered houtline).imp ?_
  intro c c' hlt p hp p' hp'
  obtain ⟨found, -, rfl⟩ := Option.map_eq_some_iff.mp hp
  obtain ⟨found', -, rfl⟩ := Option.map_eq_some_iff.mp hp'
  exact hlt

/-- The output methods in which something is found, with the type that it gives. -/
theorem flatMap_found (type : α → String) (cs : List (ClassShape × Member)) :
    cs.flatMap (fun c => ((find c.2).map fun found =>
        (⟨c.1.name, c.2.name, type found⟩ : OutMethod)).toList) =
      (cs.filterMap fun c => (find c.2).map fun found => (c, type found)).map
        (fun p => ⟨p.1.1.name, p.1.2.name, p.2⟩) := by
  induction cs with
  | nil => rfl
  | cons c rest ih =>
    cases hfound : find c.2 <;> simp [hfound, ih]

end

/-- The getters of accessors that have a parameter list. -/
def declaredGetters (o : Outline) : List (ClassShape × Member) :=
  (accessorsOf o).filter (·.2.paramsStop.isSome)

/-- The output methods that are declared to return nothing, each with the type of its result. -/
def voidOutputs (o : Outline) : List ((ClassShape × Member) × String) :=
  (membersOf o).filterMap fun c => (declaredOutput? c.2).map fun found => (c, found.2.1)

theorem declaredAccessors_eq (o : Outline) :
    declaredAccessors o = (declaredGetters o).map (·.1.name) := by
  rw [declaredAccessors, declaredGetters]
  induction accessorsOf o with
  | nil => rfl
  | cons c rest ih =>
    cases hstop : c.2.paramsStop <;> simp [hstop, ih]

theorem declaredMethods_eq (o : Outline) : declaredMethods o =
    (voidOutputs o).map (fun p => ⟨p.1.1.name, p.1.2.name, p.2⟩) :=
  flatMap_found declaredOutput? (fun found => found.2.1) (membersOf o)

theorem mem_declaredGetters_iff :
    c ∈ declaredGetters o ↔ c ∈ membersOf o ∧ ∃ stop, IsAccessor c.2 stop := by
  rw [declaredGetters, List.mem_filter, mem_accessorsOf_iff, Option.isSome_iff_exists]
  constructor
  · rintro ⟨⟨hc, hname, hkind⟩, stop, hstop⟩
    exact ⟨hc, stop, hname, hkind, hstop⟩
  · rintro ⟨hc, stop, hname, hkind, hstop⟩
    exact ⟨⟨hc, hname, hkind⟩, stop, hstop⟩

theorem mem_voidOutputs_iff {p : (ClassShape × Member) × String} :
    p ∈ voidOutputs o ↔ p.1 ∈ membersOf o ∧ ∃ note span, IsVoidOutput p.1.2 note p.2 span := by
  simp only [voidOutputs, mem_found_iff, ← declaredOutput?_eq_some_iff_isVoidOutput]
  constructor
  · rintro ⟨hc, ⟨note, type, span⟩, hfound, rfl⟩
    exact ⟨hc, note, span, hfound⟩
  · rintro ⟨hc, note, span, hfound⟩
    exact ⟨hc, (note, p.2, span), hfound, rfl⟩

/-- Declarations that are revised are the text with the replacements that they need and with no
other change, and the lists name what was replaced. -/
theorem reviseDeclarations_isExact [Limits] (h : reviseDeclarations t = .ok r) :
    ∃ o, Script.outline t = .ok o ∧
      ∃ edits getters outputs, IsExact t o r edits getters outputs := by
  obtain ⟨o, houtline, hsuits, hsound, rfl⟩ := reviseDeclarations_eq_ok_iff.mp h
  have hmem (e : Edit) (he : e ∈ declarationEdits o) : e.start < e.stop ∧ e.stop ≤ t.length :=
    ⟨lt_of_isReplacement houtline (mem_declarationEdits_iff.mp he), (hsound.within e he).2⟩
  refine ⟨o, houtline, declarationEdits o, declaredGetters o, voidOutputs o, ?_⟩
  constructor
  case replaced => exact fun e => mem_declarationEdits_iff
  case within => exact hmem
  case apart => exact hsound.apart.imp And.left
  case kept => exact hsound.apply_eq
  case voids => exact fun c hc note type span => slices_of_isVoidOutput houtline hc
  case loader => exact hsuits.init
  case accessors =>
    refine ⟨declaredAccessors_eq o, ?_⟩
    intro hnone
    exact hsuits.accessors (by rw [declaredAccessors_eq, hnone, List.map_nil])
  case gettersAre => exact fun c => mem_declaredGetters_iff
  case gettersOrdered =>
    exact ((membersOf_ordered houtline).sublist accessorsOf_sublist).filter _
  case outMethods =>
    refine ⟨declaredMethods_eq o, ?_⟩
    intro hnone
    exact hsuits.outMethods (by rw [declaredMethods_eq, hnone, List.map_nil])
  case outputsAre => exact fun p => mem_voidOutputs_iff
  case outputsOrdered => exact found_ordered declaredOutput? (fun found => found.2.1) houtline

/-- Declarations with an accessor, a loader, and an output method whose documentation names its
parameter and its result twice. -/
def repeatedTags : Text :=
  "class A \x7b\nget elements(): B;\n".toList ++
    "/** @returns \x7bvoid\x7d @param \x7bb\x7d out @param \x7bA\x7d out".toList ++
    " @return \x7b void \x7d */\n".toList ++
    "static f(out: A): void;\n\x7d\nfunction init(): P;".toList

theorem reviseDeclarations_isExact_repeatedTags : ∃ r o edits getters outputs,
    reviseDeclarations repeatedTags = .ok r ∧ IsExact repeatedTags o r edits getters outputs := by
  obtain ⟨r, h⟩ : ∃ r, reviseDeclarations repeatedTags = .ok r :=
    exists_eq_ok_of_isOk (by decide +kernel)
  obtain ⟨o, -, edits, getters, outputs, hexact⟩ := reviseDeclarations_isExact h
  exact ⟨r, o, edits, getters, outputs, h, hexact⟩

end Bindings

end WasmPackage
