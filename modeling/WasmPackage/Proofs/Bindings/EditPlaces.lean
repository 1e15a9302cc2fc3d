import Mathlib.Data.List.Flatten
import Mathlib.Data.List.Pairwise
import WasmPackage.Proofs.Bindings.Edits
import WasmPackage.Proofs.Script.DocTags
import WasmPackage.Proofs.Script.Parts

/-!
# Where edits stand

In an outline whose members are nested in their classes, the edits of a member lie in the member and
the comment before it, and those of the loader in the loader.  So no two edits of different parts
meet; a statement that is removed grows only by blanks, and meets none of them either.
-/

namespace WasmPackage

open Script (ClassShape FunctionShape Item Member Outline Source Statement Token)

/-! ## Grown spans -/

namespace Text

variable {t : Text} {start stop i : Nat} {grown : Nat × Nat}

/-- A span does not grow over a character that is no blank. -/
theorem GrowsByBlanks.lt_first (h : GrowsByBlanks t start stop grown) (hi : i < start)
    (hink : IsInkAt t i) : i < grown.1 := by
  rcases hink with ⟨c, hget, hc⟩
  by_contra hnot
  rw [isBlank_slice_iff.mp h.before i c (Nat.le_of_not_lt hnot) hi hget] at hc
  cases hc

theorem GrowsByBlanks.last_le_of_ink (h : GrowsByBlanks t start stop grown) (hi : stop ≤ i)
    (hink : IsInkAt t i) : grown.2 ≤ i := by
  rcases hink with ⟨c, hget, hc⟩
  by_contra hnot
  rw [isBlank_slice_iff.mp h.after i c hi (Nat.lt_of_not_le hnot) hget] at hc
  cases hc

end Text

namespace Bindings

variable {t : Text} {o : Outline} {c c' : ClassShape × Member} {m : Member} {e : Edit}
  {offsets : OffsetTable} {internal : String}

/-! ## Edits of a member -/

/-- The span of a member and of the comment before it. -/
def reachOf (m : Member) : Nat × Nat :=
  ((m.doc.map (·.start)).getD m.start, m.stop)

theorem reachOf_fst_le (h : m.IsNested) : (reachOf m).1 ≤ m.start := by
  unfold reachOf
  cases hdoc : m.doc with
  | none => exact Nat.le_refl _
  | some d =>
    have hstop := h.doc d hdoc
    unfold Script.DocComment.stop at hstop
    simp only [Option.map_some, Option.getD_some]
    omega

theorem propertyEdits_inside (h : m.IsNested) (he : e ∈ propertyEdits m) :
    e.Inside (reachOf m) := by
  have hfirst := reachOf_fst_le h
  have hname := h.name
  rw [propertyEdits, Option.mem_toList, Option.map_eq_some_iff] at he
  rcases he with ⟨stop, hstop, rfl⟩
  have hparams := h.params stop hstop
  exact ⟨hfirst, by simp only [reachOf]; omega, by simp only; omega, hparams.2⟩

/-- What replaces the `void` in the documentation of a member stands before the member. -/
theorem docEdit_inside {type : String} {span : Nat × Nat} {replacement : Text} (h : m.IsNested)
    (hm : IsOutput m type span) :
    Edit.Inside ⟨span.1, span.2, replacement⟩ ((reachOf m).1, m.start) := by
  rcases hm.documented with ⟨doc, hdoc, hvoid, -⟩
  have hspan := Script.voidSpan?_within hvoid
  have hstop := h.doc doc hdoc
  have hfirst : (reachOf m).1 = doc.start := by simp [reachOf, hdoc]
  exact ⟨by rw [hfirst]; exact hspan.1, by simp only; omega, Nat.le_of_lt hspan.2.1,
    by simp only; omega⟩

theorem resultEdits_sound (h : m.IsNested) :
    (∀ e ∈ resultEdits m, e.Inside (reachOf m)) ∧ (resultEdits m).Pairwise Edit.Compatible := by
  have hfirst := reachOf_fst_le h
  have hname := h.name
  unfold resultEdits
  cases hfound : declaredOutput? m with
  | none => simp
  | some r =>
    rcases r with ⟨note, type, span⟩
    rcases declaredOutput?_eq_some_iff.mp hfound with ⟨hnote, -, houtput⟩
    have htype := h.type note hnote
    have hdoc : Edit.Inside ⟨span.1, span.2, type.toList⟩ ((reachOf m).1, m.start) :=
      docEdit_inside h houtput
    have hresult : Edit.Inside ⟨note.start, note.stop, type.toList⟩ (m.start, m.stop) :=
      ⟨by simp only; omega, by simp only; omega, Nat.le_of_lt htype.2.1, htype.2.2⟩
    constructor
    · simp only [Option.elim_some, List.forall_mem_cons, List.not_mem_nil, false_imp_iff,
        implies_true, and_true]
      exact ⟨hresult.mono hfirst (Nat.le_refl _),
        hdoc.mono (Nat.le_refl _) (by simp only [reachOf]; omega)⟩
    · simp only [Option.elim_some, List.pairwise_cons, List.mem_singleton, forall_eq,
        List.not_mem_nil, false_imp_iff, implies_true, List.Pairwise.nil, and_true]
      exact hresult.compatible hdoc (.inr (Nat.le_refl _))

theorem bodyEdits_inside (h : c.2.IsNested) (he : e ∈ bodyEdits o offsets c) :
    e.Inside (reachOf c.2) := by
  have hfirst := reachOf_fst_le h
  have hname := h.name
  unfold bodyEdits at he
  cases hfound : elements? offsets c with
  | none =>
    rw [hfound] at he
    cases he
  | some r =>
    obtain ⟨body, count⟩ := r
    rw [hfound, Option.elim_some, List.mem_singleton] at he
    subst he
    have hbody := h.body body (elements?_eq_some_iff.mp hfound).1
    exact ⟨by simp only; omega, by simp only [reachOf]; omega, Nat.le_of_lt hbody.2.1,
      hbody.2.2⟩

theorem bodyEdits_sound (h : c.2.IsNested) :
    (∀ e ∈ bodyEdits o offsets c, e.Inside (reachOf c.2)) ∧
      (bodyEdits o offsets c).Pairwise Edit.Compatible := by
  constructor
  · intro e he
    exact bodyEdits_inside h he
  · unfold bodyEdits
    cases elements? offsets c <;> simp

/-! ## Edits at the end of a body -/

section

variable {start stop : Nat} {body : Nat × Nat} {tokens : List Token} {tail x : Token}

theorem standIn_tokensWithin (h : o.source.IsPlaced) :
    Script.StandIn start stop (o.tokensWithin start stop) := by
  constructor
  · intro x hx
    rw [Outline.tokensWithin, List.mem_filter, Bool.and_eq_true, decide_eq_true_eq,
      decide_eq_true_eq] at hx
    exact ⟨hx.2.1, (h.within x hx.1).2.1, hx.2.2⟩
  · exact h.ordered.sublist List.filter_sublist

theorem stop_le_getLast? (h : Script.StandIn start stop tokens)
    (htail : tokens.getLast? = some tail) (hx : x ∈ tokens) : x.stop ≤ tail.stop := by
  obtain ⟨front, rfl⟩ := List.getLast?_eq_some_iff.mp htail
  have htail' := h.within tail (by simp)
  rcases List.mem_append.mp hx with hfront | hlast
  · have := (List.pairwise_append.mp h.ordered).2.2 x hfront tail (List.mem_singleton_self _)
    omega
  · rw [List.mem_singleton.mp hlast]

/-- What ends a body by a return stands between its braces. -/
theorem returnEdits_sound (start : Nat) (hplaced : o.source.IsPlaced)
    (hbody : body.1 + 1 < body.2) :
    (∀ e ∈ returnEdits o start body, e.Inside body) ∧
      (returnEdits o start body).Pairwise Edit.Compatible := by
  have hstand : Script.StandIn (body.1 + 1) (body.2 - 1)
      (o.tokensWithin (body.1 + 1) (body.2 - 1)) := standIn_tokensWithin hplaced
  unfold returnEdits
  simp only
  generalize o.tokensWithin (body.1 + 1) (body.2 - 1) = tokens at hstand ⊢
  have hbehind : Script.StandIn (body.1 + 1) (body.2 - 1) (tokens.drop (lastStatement tokens)) :=
    hstand.sublist (List.drop_sublist _ _)
  cases htokens : tokens.drop (lastStatement tokens) with
  | nil =>
    have hinside (u : Text) : Edit.Inside ⟨body.1 + 1, body.1 + 1, u⟩ body :=
      ⟨by simp only; omega, hbody, Nat.le_refl _, by simp only; omega⟩
    simp [hinside]
  | cons first rest =>
    rw [htokens] at hbehind
    have hsuffix : ∀ x ∈ first :: rest, x ∈ tokens := by
      rw [← htokens]
      intro x hx
      exact List.mem_of_mem_drop hx
    cases htail : tokens.getLast? with
    | none =>
      rw [List.getLast?_eq_none_iff.mp htail, List.drop_nil] at htokens
      cases htokens
    | some tail =>
      have hlast := hstand.within tail (List.mem_of_getLast? htail)
      have hfirst := hbehind.within first List.mem_cons_self
      have hinsert (u : Text) : Edit.Inside ⟨tail.stop, tail.stop, u⟩ body :=
        ⟨by simp only; omega, by simp only; omega, Nat.le_refl _, by simp only; omega⟩
      simp only
      split
      · cases rest with
        | nil => simp [hinsert]
        | cons second rest =>
          have hsecond := hbehind.within second (by simp)
          have hnext := List.rel_of_pairwise_cons hbehind.ordered List.mem_cons_self
          have hend := stop_le_getLast? hstand htail (hsuffix second (by simp))
          have hreplace (stop : Nat) (u : Text) (hstop : first.stop ≤ stop)
              (hle : stop ≤ second.stop) : Edit.Inside ⟨first.start, stop, u⟩ body :=
            ⟨by simp only; omega, by simp only; omega, by simp only; omega, by simp only; omega⟩
          simp only
          split
          · simp [hreplace second.stop outReturn (by omega) (Nat.le_refl _)]
          · have hcompatible (u : Text) : Edit.Compatible ⟨first.start, second.start, []⟩
                ⟨tail.stop, tail.stop, u⟩ := by
              rw [Edit.compatible_iff]
              simp only
              omega
            simp [hreplace second.start [] hnext (by omega), hinsert, hcompatible]
      · simp [hinsert]

theorem outputEdits_sound (hplaced : o.source.IsPlaced) (h : m.IsNested)
    (hbody : ∀ b ∈ m.body, b.1 + 1 < b.2) :
    (∀ e ∈ outputEdits o m, e.Inside (reachOf m)) ∧
      (outputEdits o m).Pairwise Edit.Compatible := by
  have hfirst := reachOf_fst_le h
  have hname := h.name
  unfold outputEdits
  cases hfound : revisedOutput? m with
  | none => simp
  | some r =>
    obtain ⟨body, type, span⟩ := r
    obtain ⟨hmem, houtput⟩ := revisedOutput?_eq_some_iff.mp hfound
    have hwithin := h.body body hmem
    obtain ⟨hinside, hpairwise⟩ := returnEdits_sound m.start hplaced (hbody body hmem)
    have hdoc : Edit.Inside ⟨span.1, span.2, type.toList⟩ ((reachOf m).1, m.start) :=
      docEdit_inside h houtput
    simp only [Option.elim_some]
    constructor
    · rw [List.forall_mem_cons]
      refine ⟨hdoc.mono (Nat.le_refl _) (by simp only [reachOf]; omega), ?_⟩
      intro e he
      exact (hinside e he).mono (by omega) hwithin.2.2
    · rw [List.pairwise_cons]
      refine ⟨?_, hpairwise⟩
      intro e he
      exact hdoc.compatible (hinside e he) (.inl (by simp only; omega))

end

/-! ## Members among one another -/

theorem bodyOpen_lt_reachOf {k : ClassShape} (h : k.IsNested) (hm : m ∈ k.members) :
    k.bodyOpen < (reachOf m).1 := by
  obtain ⟨hstart, -, hdoc⟩ := h.inside m hm
  unfold reachOf
  cases hd : m.doc with
  | none => exact hstart
  | some d => exact hdoc d hd

/-- What members of one class have among one another, and those of a class with those of a later
one, all members have. -/
theorem pairwise_membersOf [Limits] {R : ClassShape × Member → ClassShape × Member → Prop}
    (houtline : Script.outline t = .ok o)
    (hsame : ∀ k ∈ o.classes, k.members.Pairwise fun m m' => R (k, m) (k, m'))
    (hlater : ∀ k ∈ o.classes, ∀ k' ∈ o.classes, k.stop ≤ k'.start →
      ∀ m ∈ k.members, ∀ m' ∈ k'.members, R (k, m) (k', m')) : (membersOf o).Pairwise R := by
  unfold membersOf
  rw [List.pairwise_flatMap]
  constructor
  · intro k hk
    exact List.pairwise_map.mpr (hsame k hk)
  · refine (Script.ordered_classes houtline).imp_of_mem ?_
    intro k k' hk hk' hkk' c hc c' hc'
    obtain ⟨m, hm, rfl⟩ := List.mem_map.mp hc
    obtain ⟨m', hm', rfl⟩ := List.mem_map.mp hc'
    exact hlater k hk k' hk' hkk' m hm m' hm'

section

variable [Limits] (houtline : Script.outline t = .ok o) (hnested : ∀ c ∈ o.classes, c.IsNested)

include houtline hnested

/-- A member stands with its comment between the braces of its class. -/
theorem reachOf_within {k : ClassShape} (hk : k ∈ o.classes) (hm : m ∈ k.members) :
    k.start < (reachOf m).1 ∧ (reachOf m).2 < k.stop := by
  obtain ⟨hopen, hclose, -, -⟩ := Script.parts_of_class houtline hk
  obtain ⟨-, hstop, -⟩ := (hnested k hk).inside m hm
  constructor
  · exact Nat.lt_trans hopen (bodyOpen_lt_reachOf (hnested k hk) hm)
  · simp only [reachOf]
    omega

/-- No two members meet, their comments included. -/
theorem reachOf_apart :
    (membersOf o).Pairwise (fun c c' => Apart (reachOf c.2) (reachOf c'.2)) := by
  apply pairwise_membersOf houtline
  · intro k hk
    refine (hnested k hk).ordered.imp ?_
    intro a b hab
    refine .inl ?_
    unfold reachOf
    cases hd : b.doc with
    | none => exact hab.1
    | some d => exact hab.2 d hd
  · intro k hk k' hk' hkk' m hm m' hm'
    have hlast := (reachOf_within houtline hnested hk hm).2
    have hfirst := (reachOf_within houtline hnested hk' hm').1
    exact .inl (by simp only; omega)

end

theorem accessorsOf_sublist : (accessorsOf o).Sublist (membersOf o) := by
  apply List.Sublist.flatMap_right
  intro k _
  exact List.Sublist.map _ List.filter_sublist

theorem kind_of_mem_accessorsOf (h : c ∈ accessorsOf o) : c.2.kind = .getter := by
  obtain ⟨k, -, hc⟩ := List.mem_flatMap.mp h
  obtain ⟨m, hm, rfl⟩ := List.mem_map.mp hc
  have hnamed := (List.mem_filter.mp hm).2
  rw [Bool.and_eq_true, decide_eq_true_eq, decide_eq_true_eq] at hnamed
  exact hnamed.2

theorem mem_of_mem_membersOf (h : c ∈ membersOf o) : c.1 ∈ o.classes ∧ c.2 ∈ c.1.members := by
  obtain ⟨k, hk, hc⟩ := List.mem_flatMap.mp h
  obtain ⟨m, hm, rfl⟩ := List.mem_map.mp hc
  exact ⟨hk, hm⟩

/-- A getter has no output type. -/
theorem output?_of_getter (h : m.kind = .getter) : output? m = none := by
  rw [Option.eq_none_iff_forall_ne_some]
  rintro ⟨type, span⟩ hsome
  have hmethod := (output?_eq_some_iff.mp hsome).method
  rw [h] at hmethod
  cases hmethod

/-! ## Items among one another -/

/-- Different items do not meet. -/
theorem items_apart [Limits] (houtline : Script.outline t = .ok o) {a b : Item} (ha : a ∈ o.items)
    (hb : b ∈ o.items) (hne : a ≠ b) : Apart (a.start, a.stop) (b.start, b.stop) := by
  have hsymm : Std.Symm fun a b : Item => Apart (a.start, a.stop) (b.start, b.stop) :=
    ⟨fun _ _ => Apart.symm⟩
  have hapart : o.items.Pairwise (fun a b => Apart (a.start, a.stop) (b.start, b.stop)) :=
    (Script.ordered_items houtline).imp fun h => .inl h
  exact hapart.forall ha hb hne

theorem isNested_of_mem (hnested : ∀ c ∈ o.classes, c.IsNested) (hc : c ∈ membersOf o) :
    c.2.IsNested := by
  obtain ⟨hclass, hmember⟩ := mem_of_mem_membersOf hc
  exact (hnested c.1 hclass).parts c.2 hmember

section

variable [Limits] (houtline : Script.outline t = .ok o) (hnested : ∀ c ∈ o.classes, c.IsNested)

include houtline hnested

theorem reachOf_le (hc : c ∈ membersOf o) : (reachOf c.2).2 ≤ t.length := by
  obtain ⟨hclass, hmember⟩ := mem_of_mem_membersOf hc
  have hstop := (Script.place_of_item houtline (Script.mem_classes_iff.mp hclass)).2
  have hreach := (reachOf_within houtline hnested hclass hmember).2
  simp only [Item.stop] at hstop
  omega

/-- What is apart from a class is apart from its members. -/
theorem apart_reachOf {zone : Nat × Nat} (hc : c ∈ membersOf o)
    (h : Apart zone (c.1.start, c.1.stop)) : Apart zone (reachOf c.2) := by
  obtain ⟨hclass, hmember⟩ := mem_of_mem_membersOf hc
  obtain ⟨hfirst, hlast⟩ := reachOf_within houtline hnested hclass hmember
  exact h.narrow (Nat.le_of_lt hfirst) (Nat.le_of_lt hlast)

theorem function_apart {f : FunctionShape} (hf : f ∈ o.functions) (hc : c ∈ membersOf o) :
    Apart (f.start, f.stop) (reachOf c.2) := by
  have hclass := Script.mem_classes_iff.mp (mem_of_mem_membersOf hc).1
  have hitems := items_apart houtline (Script.mem_functions_iff.mp hf) hclass nofun
  exact apart_reachOf houtline hnested hc hitems

omit hnested in
/-- What is removed with a statement does not reach into a class or a function with a body. -/
theorem removalOf_apart {it : Item} {st : Statement} (hst : .statement st ∈ o.items)
    (hit : it ∈ o.items) (hne : it ≠ .statement st) (hlt : it.start < it.stop)
    (hink : t.IsInkAt (it.stop - 1)) : Apart (removalOf t st).span (it.start, it.stop) := by
  have hgrows := t.growsByBlanks_lineSpan st.start st.stop
  rcases items_apart houtline hit hst hne with hbefore | hbehind
  · have hfirst := hgrows.lt_first (i := it.stop - 1) (by simp only [Item.start] at hbefore; omega)
      hink
    exact .inr (by simp only [removalOf, Edit.span]; omega)
  · exact .inl (hgrows.last_le_of_ink hbehind (Script.place_of_item houtline hit).1)

end

/-! ## Whole passes -/

section

variable {as : List (ClassShape × Member)} {f g : ClassShape × Member → List Edit}
  {loader : List Edit}

/-- The edits of single members do not meet. -/
theorem pairwise_flatMap_of_inside
    (hinside : ∀ c ∈ as, (∀ e ∈ f c, e.Inside (reachOf c.2)) ∧ (f c).Pairwise Edit.Compatible)
    (hapart : as.Pairwise (fun c c' => Apart (reachOf c.2) (reachOf c'.2))) :
    (as.flatMap f).Pairwise Edit.Compatible := by
  rw [List.pairwise_flatMap]
  constructor
  · intro c hc
    exact (hinside c hc).2
  · refine hapart.imp_of_mem ?_
    intro c c' hc hc' hcc' e he e' he'
    exact ((hinside c hc).1 e he).compatible ((hinside c' hc').1 e' he') hcc'

variable [Limits] (houtline : Script.outline t = .ok o) (hnested : ∀ c ∈ o.classes, c.IsNested)

include houtline hnested

/-- A pass edits accessors, then the loader, and then output methods, which no accessor is.  Its
edits can be recorded if those of the loader stand apart from the members. -/
theorem isSound_of_inside
    (hf : ∀ c ∈ accessorsOf o, (∀ e ∈ f c, e.Inside (reachOf c.2)) ∧ (f c).Pairwise Edit.Compatible)
    (hg : ∀ c ∈ membersOf o, (∀ e ∈ g c, e.Inside (reachOf c.2)) ∧ (g c).Pairwise Edit.Compatible)
    (hgetter : ∀ c, c.2.kind = .getter → g c = [])
    (hloader : loader.Pairwise Edit.Compatible)
    (hzone : ∀ e ∈ loader, ∃ zone, e.Inside zone ∧ zone.2 ≤ t.length ∧
      ∀ c ∈ membersOf o, Apart zone (reachOf c.2)) :
    Revision.IsSound ⟨t, (accessorsOf o).flatMap f ++ loader ++ (membersOf o).flatMap g⟩ := by
  have hmember : ∀ c ∈ accessorsOf o, c ∈ membersOf o := fun c hc => accessorsOf_sublist.subset hc
  have hapart := reachOf_apart houtline hnested
  have hdistinct : ∀ c ∈ membersOf o, ∀ c' ∈ membersOf o, c ≠ c' →
      Apart (reachOf c.2) (reachOf c'.2) := by
    have hsymm : Std.Symm fun c c' : ClassShape × Member => Apart (reachOf c.2) (reachOf c'.2) :=
      ⟨fun _ _ => Apart.symm⟩
    intro c hc c' hc' hne
    exact hapart.forall hc hc' hne
  constructor
  case within =>
    intro e he
    rw [List.mem_append, List.mem_append, List.mem_flatMap, List.mem_flatMap] at he
    rcases he with (⟨c, hc, he⟩ | he) | ⟨c, hc, he⟩
    · have hinside := (hf c hc).1 e he
      exact ⟨hinside.ordered,
        Nat.le_trans hinside.last (reachOf_le houtline hnested (hmember c hc))⟩
    · obtain ⟨zone, hinside, hlast, -⟩ := hzone e he
      exact ⟨hinside.ordered, Nat.le_trans hinside.last hlast⟩
    · have hinside := (hg c hc).1 e he
      exact ⟨hinside.ordered, Nat.le_trans hinside.last (reachOf_le houtline hnested hc)⟩
  case compatible =>
    simp only [List.pairwise_append]
    refine ⟨⟨pairwise_flatMap_of_inside hf (hapart.sublist accessorsOf_sublist), hloader, ?_⟩,
      pairwise_flatMap_of_inside hg hapart, ?_⟩
    · intro a ha e he
      obtain ⟨c, hc, ha⟩ := List.mem_flatMap.mp ha
      obtain ⟨zone, hinside, -, hzone⟩ := hzone e he
      exact ((hf c hc).1 a ha).compatible hinside (hzone c (hmember c hc)).symm
    · intro a ha e he
      obtain ⟨c', hc', he⟩ := List.mem_flatMap.mp he
      rcases List.mem_append.mp ha with ha | ha
      · obtain ⟨c, hc, ha⟩ := List.mem_flatMap.mp ha
        have hne : c ≠ c' := by
          rintro rfl
          rw [hgetter c (kind_of_mem_accessorsOf hc)] at he
          cases he
        exact ((hf c hc).1 a ha).compatible ((hg c' hc').1 e he)
          (hdistinct c (hmember c hc) c' hc' hne)
      · obtain ⟨zone, hinside, -, hzone⟩ := hzone a ha
        exact hinside.compatible ((hg c' hc').1 e he) (hzone c' hc')

/-- The edits of the declarations can be recorded if members stand in their classes. -/
theorem declarationEdits_isSound : Revision.IsSound ⟨t, declarationEdits o⟩ := by
  apply isSound_of_inside houtline hnested
  · intro c hc
    constructor
    · intro e he
      exact propertyEdits_inside (isNested_of_mem hnested (accessorsOf_sublist.subset hc)) he
    · unfold propertyEdits
      cases c.2.paramsStop <;> simp
  · intro c hc
    exact resultEdits_sound (isNested_of_mem hnested hc)
  · intro c hgetter
    cases hnote : c.2.returnType <;>
      simp [resultEdits, declaredOutput?, output?_of_getter hgetter, hnote]
  · cases o.function? "init" <;> simp
  · intro e he
    obtain ⟨f, hf, rfl⟩ := Option.map_eq_some_iff.mp (Option.mem_toList.mp he)
    obtain ⟨hmem, hparts, hlength⟩ := Script.parts_of_function? houtline hf
    have hlt := hparts.start_lt_stop
    refine ⟨(f.start, f.stop), ⟨Nat.le_refl _, hlt, Nat.le_of_lt hlt, Nat.le_refl _⟩, hlength, ?_⟩
    intro c hc
    exact function_apart houtline hnested hmem hc

end

/-! ## The loader -/

theorem loaderReferences_sublist (previous : Option Token) (tokens : List Token) :
    (loaderReferences previous tokens).Sublist tokens := by
  induction tokens generalizing previous with
  | nil => exact List.Sublist.refl []
  | cons x tokens ih =>
    rw [loaderReferences]
    split
    · exact (ih (some x)).cons_cons x
    · exact (ih (some x)).cons x

/-- The edits that rename the loader stand in it, one behind another. -/
theorem namingEdits_sound (internal : String) {f : FunctionShape} {body : Nat × Nat}
    {tokens : List Token} (h : f.IsNested) (hbody : f.body = some body)
    (htokens : Script.StandIn body.1 body.2 tokens) :
    let edits := (if f.start ≠ f.keywordStart then [⟨f.start, f.keywordStart, []⟩] else []) ++
      ⟨f.nameStart, f.nameStop, internal.toList⟩ ::
        tokens.map (fun x => ⟨x.start, x.stop, internal.toList⟩)
    (∀ e ∈ edits, e.Inside (f.start, f.stop)) ∧ edits.Pairwise Edit.Compatible := by
  have hkeyword := h.keyword
  have hname := h.name
  have hend := h.body body hbody
  have hrename : Edit.Inside ⟨f.nameStart, f.nameStop, internal.toList⟩ (f.nameStart, body.1) :=
    ⟨Nat.le_refl _, by simp only; omega, by simp only; omega, hend.1⟩
  have hreference : ∀ x ∈ tokens, Edit.Inside ⟨x.start, x.stop, internal.toList⟩ body := by
    intro x hx
    have hplace := htokens.within x hx
    exact ⟨hplace.1, by simp only; omega, Nat.le_of_lt hplace.2.1, hplace.2.2⟩
  have hexport : ∀ e ∈ (if f.start ≠ f.keywordStart then [⟨f.start, f.keywordStart, []⟩] else []),
      Edit.Inside e (f.start, f.nameStart) := by
    intro e he
    split at he
    · rw [List.mem_singleton] at he
      subst he
      exact ⟨Nat.le_refl _, by simp only; omega, by simp only; omega, hkeyword.2⟩
    · cases he
  intro edits
  constructor
  · intro e he
    rcases List.mem_append.mp he with he | he
    · exact (hexport e he).mono (Nat.le_refl _) (by simp only; omega)
    · rcases List.mem_cons.mp he with rfl | he
      · exact hrename.mono (by simp only; omega) (by simp only; omega)
      · obtain ⟨x, hx, rfl⟩ := List.mem_map.mp he
        exact (hreference x hx).mono (by simp only; omega) (Nat.le_of_eq hend.2.2)
  · rw [List.pairwise_append, List.pairwise_cons]
    refine ⟨?_, ⟨?_, ?_⟩, ?_⟩
    · split <;> simp
    · intro e he
      obtain ⟨x, hx, rfl⟩ := List.mem_map.mp he
      exact hrename.compatible (hreference x hx) (.inl (Nat.le_refl _))
    · rw [List.pairwise_map]
      refine htokens.ordered.imp_of_mem ?_
      intro x y hx hy hxy
      have hplace := htokens.within x hx
      have hplace' := htokens.within y hy
      rw [Edit.compatible_iff]
      simp only
      omega
    · intro a ha e he
      rcases List.mem_cons.mp he with rfl | he
      · exact (hexport a ha).compatible hrename (.inl (Nat.le_refl _))
      · obtain ⟨x, hx, rfl⟩ := List.mem_map.mp he
        exact (hexport a ha).compatible (hreference x hx) (.inl (by simp only; omega))

section

variable [Limits] (houtline : Script.outline t = .ok o) (hnested : ∀ c ∈ o.classes, c.IsNested)

include houtline

omit [Limits] houtline in
theorem mem_items_of_statementsOf {st : Statement} {words : List String}
    (h : st ∈ o.statementsOf words) : .statement st ∈ o.items := by
  obtain ⟨it, hit, hstatement⟩ := List.mem_filterMap.mp (List.mem_filter.mp h).1
  cases it <;> cases hstatement
  exact hit

theorem removalOf_inside {st : Statement} {words : List String} (hwords : words ≠ [])
    (hst : st ∈ o.statementsOf words) :
    (removalOf t st).Inside (removalOf t st).span ∧ (removalOf t st).span.2 ≤ t.length := by
  obtain ⟨hlt, hstop⟩ := place_of_statementsOf houtline hwords hst
  have hordered : (removalOf t st).start < (removalOf t st).stop := removalOf_ordered hlt
  exact ⟨⟨Nat.le_refl _, hordered, Nat.le_of_lt hordered, Nat.le_refl _⟩,
    (t.growsByBlanks_lineSpan st.start st.stop).last_le hstop⟩

include hnested

/-- The edits of the accessors alone can be recorded if members stand in their classes. -/
theorem bodies_isSound :
    Revision.IsSound ⟨t, (accessorsOf o).flatMap (bodyEdits o offsets)⟩ := by
  have hinside : Revision.IsSound ⟨t, (accessorsOf o).flatMap (bodyEdits o offsets) ++ [] ++
      (membersOf o).flatMap fun _ => []⟩ :=
    isSound_of_inside houtline hnested
      (fun c hc => bodyEdits_sound (isNested_of_mem hnested (accessorsOf_sublist.subset hc)))
      (by simp) (by simp) List.Pairwise.nil (by simp)
  have hnone : (membersOf o).flatMap (fun _ => ([] : List Edit)) = [] :=
    List.flatMap_eq_nil_iff.mpr fun _ _ => rfl
  rw [hnone, List.append_nil, List.append_nil] at hinside
  exact hinside

omit hnested in
/-- Each edit for the loader stands in it, or removes a statement that exports it. -/
theorem loaderEdits_cases {f : FunctionShape} (hf : o.function? loaderName = some f)
    (hbody : f.body.isSome = true) {e : Edit} (he : e ∈ loaderEdits o internal) :
    e.Inside (f.start, f.stop) ∨
      ∃ st ∈ o.statementsOf ["export", "default", loaderName, ";"], e = removalOf t st := by
  obtain ⟨htext, hplaced⟩ := Script.isPlaced_of_outline houtline
  obtain ⟨body, hbody'⟩ := Option.isSome_iff_exists.mp hbody
  obtain ⟨-, hparts, -⟩ := Script.parts_of_function? houtline hf
  have hnaming := namingEdits_sound internal hparts hbody'
    ((standIn_tokensWithin hplaced).sublist (loaderReferences_sublist none _))
  simp only [loaderEdits, hf, hbody', Option.map_some, Option.getD_some, htext] at he
  rcases List.mem_append.mp he with he | he
  · exact .inl (hnaming.1 e he)
  · obtain ⟨st, hst, rfl⟩ := List.mem_map.mp he
    exact .inr ⟨st, hst, rfl⟩

/-- The edits for the loader do not meet a member. -/
theorem loaderEdits_apart {f : FunctionShape} (hf : o.function? loaderName = some f)
    (hbody : f.body.isSome = true) {e : Edit} (he : e ∈ loaderEdits o internal) :
    ∃ zone, e.Inside zone ∧ zone.2 ≤ t.length ∧ ∀ c ∈ membersOf o, Apart zone (reachOf c.2) := by
  rcases loaderEdits_cases houtline hf hbody he with hinside | ⟨st, hst, rfl⟩
  · obtain ⟨hmem, -, hlength⟩ := Script.parts_of_function? houtline hf
    refine ⟨(f.start, f.stop), hinside, hlength, ?_⟩
    intro c hc
    exact function_apart houtline hnested hmem hc
  · obtain ⟨hinside, hlast⟩ := removalOf_inside houtline (by simp) hst
    refine ⟨_, hinside, hlast, ?_⟩
    intro c hc
    have hclass := (mem_of_mem_membersOf hc).1
    obtain ⟨hopen, hclose, hink', -⟩ := Script.parts_of_class houtline hclass
    have hreach := reachOf_within houtline hnested hclass (mem_of_mem_membersOf hc).2
    have hmember := reachOf_fst_le (isNested_of_mem hnested hc)
    have hname := (isNested_of_mem hnested hc).name
    refine apart_reachOf houtline hnested hc (removalOf_apart houtline
      (mem_items_of_statementsOf hst) (Script.mem_classes_iff.mp hclass) (by simp) ?_ hink')
    simp only [reachOf, Item.start, Item.stop] at *
    omega

/-- The edits of the glue can be recorded if members stand in their classes, the loader has a body,
and the statements that export it can be removed. -/
theorem glueEdits_isSound {f : FunctionShape} (hf : o.function? loaderName = some f)
    (hbody : f.body.isSome = true)
    (hexports : ((o.statementsOf ["export", "default", loaderName, ";"]).map
      (removalOf t)).Pairwise Edit.Compatible) :
    Revision.IsSound ⟨t, glueEdits o offsets internal⟩ := by
  obtain ⟨htext, hplaced⟩ := Script.isPlaced_of_outline houtline
  obtain ⟨body, hbody'⟩ := Option.isSome_iff_exists.mp hbody
  have hmem : f ∈ o.functions := List.mem_of_find?_eq_some hf
  have hitem := Script.mem_functions_iff.mp hmem
  obtain ⟨hparts, hink⟩ := Script.parts_of_function houtline hmem
  have hnaming := namingEdits_sound internal hparts hbody'
    ((standIn_tokensWithin hplaced).sublist (loaderReferences_sublist none _))
  apply isSound_of_inside houtline hnested
  case hf =>
    intro c hc
    exact bodyEdits_sound (isNested_of_mem hnested (accessorsOf_sublist.subset hc))
  case hg =>
    intro c hc
    obtain ⟨hclass, hmember⟩ := mem_of_mem_membersOf hc
    exact outputEdits_sound hplaced (isNested_of_mem hnested hc)
      ((Script.parts_of_class houtline hclass).2.2.2 c.2 hmember)
  case hgetter =>
    intro c hgetter
    cases hbody : c.2.body <;> simp [outputEdits, revisedOutput?, output?_of_getter hgetter, hbody]
  case hloader =>
    simp only [loaderEdits, hf, hbody', Option.map_some, Option.getD_some, htext]
    rw [List.pairwise_append]
    refine ⟨hnaming.2, hexports, ?_⟩
    intro a ha e he
    obtain ⟨st, hst, rfl⟩ := List.mem_map.mp he
    exact (hnaming.1 a ha).compatible (removalOf_inside houtline (by simp) hst).1
      (removalOf_apart houtline (mem_items_of_statementsOf hst) hitem (by simp) hparts.start_lt_stop
        (hink hbody)).symm
  case hzone =>
    intro e he
    exact loaderEdits_apart houtline hnested hf hbody he

end

end Bindings

end WasmPackage
