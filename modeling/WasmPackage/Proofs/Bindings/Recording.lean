import WasmPackage.Bindings.RevisionError
import WasmPackage.Proofs.Text.Composition

/-!
# Recording edits

A pass records its edits one after the other, and fails where one of them meets another.  So a step
of a pass is told by the edits that it records, by what it finds, and by what bars it: unless it is
barred, it succeeds just if its edits can be recorded (`IsStep.eq_ok_iff`).  The steps of a fold are
one step that records the edits of all.
-/

namespace WasmPackage

variable {e e' : Edit} {zone zone' : Nat × Nat} {b : Revision} {edits more : List Edit}

namespace Edit

/-- The edit lies in a span, and begins before the end of that. -/
structure Inside (e : Edit) (zone : Nat × Nat) : Prop where
  first : zone.1 ≤ e.start
  begins : e.start < zone.2
  ordered : e.start ≤ e.stop
  last : e.stop ≤ zone.2

theorem Inside.mono (h : e.Inside zone) (hfirst : zone'.1 ≤ zone.1) (hlast : zone.2 ≤ zone'.2) :
    e.Inside zone' :=
  ⟨Nat.le_trans hfirst h.first, Nat.lt_of_lt_of_le h.begins hlast, h.ordered,
    Nat.le_trans h.last hlast⟩

/-- Edits inside of spans that are apart do not meet. -/
theorem Inside.compatible (h : e.Inside zone) (h' : e'.Inside zone') (hapart : Apart zone zone') :
    e.Compatible e' := by
  have := h.begins
  have := h'.begins
  have := h.first
  have := h'.first
  have := h.last
  have := h'.last
  have := h.ordered
  have := h'.ordered
  rw [compatible_iff]
  unfold Apart at hapart
  omega

end Edit

namespace Revision

/-- The revision with more edits recorded. -/
def add (b : Revision) (edits : List Edit) : Revision :=
  { b with edits := b.edits ++ edits }

@[simp] theorem text_add : (b.add edits).text = b.text := rfl

@[simp] theorem add_nil : b.add [] = b := by
  simp [add]

@[simp] theorem add_add : (b.add edits).add more = b.add (edits ++ more) := by
  simp [add]

theorem ofText_add (t : Text) (edits : List Edit) : (ofText t).add edits = ⟨t, edits⟩ := by
  simp [add, ofText]

theorem IsSound.of_add (h : (b.add (edits ++ more)).IsSound) : (b.add edits).IsSound := by
  rw [← add_add] at h
  refine ⟨?_, (List.pairwise_append.mp h.compatible).1⟩
  intro e he
  exact h.within e (List.mem_append_left more he)

/-- One more edit keeps a revision sound if it lies in the text and meets no recorded one. -/
theorem isSound_add_singleton_iff (hb : b.IsSound) : (b.add [e]).IsSound ↔
    (e.start ≤ e.stop ∧ e.stop ≤ b.text.length) ∧ ∀ a ∈ b.edits, a.Compatible e := by
  constructor
  · intro h
    refine ⟨h.within e (by simp [add]), ?_⟩
    intro a ha
    exact (List.pairwise_append.mp h.compatible).2.2 a ha e (List.mem_singleton_self e)
  · rintro ⟨hwithin, hcompatible⟩
    constructor
    · intro a ha
      rcases List.mem_append.mp ha with ha | ha
      · exact hb.within a ha
      · exact List.eq_of_mem_singleton ha ▸ hwithin
    · refine List.pairwise_append.mpr ⟨hb.compatible, List.pairwise_singleton _ _, ?_⟩
      intro a ha a' ha'
      exact List.eq_of_mem_singleton ha' ▸ hcompatible a ha

end Revision

namespace Bindings

variable {α β : Type} {b b' : Revision} {e : Edit} {edits more : List Edit}

/-- A sequence gives a result when its parts do, one behind the other. -/
theorem bind_ok_iff {ε α β : Type} {x : Except ε α} {f : α → Except ε β} {r : β} :
    (x >>= f) = .ok r ↔ ∃ a, x = .ok a ∧ f a = .ok r := by
  cases x with
  | error e => simp [bind, Except.bind]
  | ok a => simp [bind, Except.bind]

theorem mapError_ok_iff {ε ε' α : Type} {x : Except ε α} {f : ε → ε'} {a : α} :
    x.mapError f = .ok a ↔ x = .ok a := by
  cases x <;> simp [Except.mapError]

theorem map_ok_iff {ε α β : Type} {x : Except ε α} {f : α → β} {r : β} :
    x.map f = .ok r ↔ ∃ a, x = .ok a ∧ f a = r := by
  cases x <;> simp [Except.map]

theorem exists_eq_ok_of_isOk {ε α : Type} {x : Except ε α} (h : x.isOk = true) :
    ∃ a, x = .ok a := by
  cases x with
  | error e => cases h
  | ok a => exact ⟨a, rfl⟩

/-- What each step of a fold keeps, the fold keeps. -/
theorem foldlM_keeps {ε σ α : Type} {P : σ → Prop} {as : List α} {step : σ → α → Except ε σ}
    {acc acc' : σ} (hstep : ∀ acc a acc', P acc → step acc a = .ok acc' → P acc') (hacc : P acc)
    (h : as.foldlM step acc = .ok acc') : P acc' := by
  induction as generalizing acc with
  | nil =>
    cases h
    exact hacc
  | cons a as ih =>
    rw [List.foldlM_cons] at h
    obtain ⟨next, hnext, hrest⟩ := bind_ok_iff.mp h
    exact ih (hstep acc a next hacc hnext) hrest

/-! ## Sequences of edits -/

/-- Records edits in the course of a pass, one after the other. -/
def record (b : Revision) (edits : List Edit) : Except RevisionError Revision :=
  edits.foldlM (fun b e => replaceIn b e.span e.replacement) b

theorem record_nil : record b [] = .ok b := rfl

theorem record_cons :
    record b (e :: edits) = replaceIn b e.span e.replacement >>= fun b => record b edits :=
  List.foldlM_cons

theorem record_append : record b (edits ++ more) = record b edits >>= fun b => record b more :=
  List.foldlM_append

theorem replaceIn_eq (b : Revision) (span : Nat × Nat) (replacement : Text) :
    replaceIn b span replacement = record b [⟨span.1, span.2, replacement⟩] := by
  change _ = replaceIn b span replacement >>= fun b => record b []
  cases replaceIn b span replacement <;> rfl

theorem insertIn_eq (b : Revision) (offset : Nat) (inserted : Text) :
    insertIn b offset inserted = record b [⟨offset, offset, inserted⟩] :=
  replaceIn_eq b (offset, offset) inserted

theorem foldlM_replaceIn (as : List α) (span : α → Nat × Nat) (replacement : Text) :
    as.foldlM (fun b a => replaceIn b (span a) replacement) b =
      record b (as.map fun a => ⟨(span a).1, (span a).2, replacement⟩) := by
  rw [record, List.foldlM_map]
  rfl

theorem replaceIn_eq_ok_iff (hb : b.IsSound) : replaceIn b e.span e.replacement = .ok b' ↔
    (b.add [e]).IsSound ∧ b' = b.add [e] := by
  have hwithin : (0 ≤ (e.start : Int) ∧ (e.start : Int) ≤ e.stop ∧
      (e.stop : Int) ≤ b.text.length) ↔ e.start ≤ e.stop ∧ e.stop ≤ b.text.length := by
    omega
  rw [replaceIn, mapError_ok_iff, Revision.replace_eq_ok_iff, Edit.span, hwithin,
    ← and_assoc, Revision.isSound_add_singleton_iff hb]
  rfl

/-- Edits can be recorded one after the other just if all together lie in the text and do not
meet. -/
theorem record_eq_ok_iff (hb : b.IsSound) :
    record b edits = .ok b' ↔ (b.add edits).IsSound ∧ b' = b.add edits := by
  induction edits generalizing b with
  | nil => simp [record_nil, hb, eq_comm]
  | cons e edits ih =>
    rw [record_cons, bind_ok_iff]
    constructor
    · rintro ⟨b₁, hfirst, hrest⟩
      obtain ⟨hsound, rfl⟩ := (replaceIn_eq_ok_iff hb).mp hfirst
      simpa using (ih hsound).mp hrest
    · rintro ⟨hsound, rfl⟩
      have hfirst : (b.add [e]).IsSound := hsound.of_add
      refine ⟨b.add [e], (replaceIn_eq_ok_iff hb).mpr ⟨hfirst, rfl⟩, (ih hfirst).mpr ?_⟩
      simpa using hsound

theorem record_of_isSound (h : (b.add edits).IsSound) : record b edits = .ok (b.add edits) := by
  have hb : (b.add []).IsSound := h.of_add
  rw [Revision.add_nil] at hb
  exact (record_eq_ok_iff hb).mpr ⟨h, rfl⟩

theorem eq_add_of_record (h : record b edits = .ok b') : b' = b.add edits := by
  induction edits generalizing b with
  | nil =>
    cases h
    simp
  | cons e edits ih =>
    rw [record_cons] at h
    obtain ⟨b₁, hfirst, hrest⟩ := bind_ok_iff.mp h
    have hadd : b₁ = b.add [e] := (Revision.replace_eq_ok_iff.mp (mapError_ok_iff.mp hfirst)).2.2
    rw [ih hrest, hadd]
    simp

/-- What follows recorded edits comes to a revision of the same text. -/
theorem record_then {f : Revision → Except RevisionError Revision}
    (h : ∀ b', b'.text = b.text → f b' = record b' more) :
    record b edits >>= f = record b (edits ++ more) := by
  rw [record_append]
  cases hrecord : record b edits with
  | error e => rfl
  | ok b' => exact h b' (by rw [eq_add_of_record hrecord, Revision.text_add])

/-- Does the failure say that edits meet? -/
def RevisionError.IsConflict (e : RevisionError) : Prop :=
  ∃ cause, e = .conflict cause

/-- Does the failure say that a required edit was not possible? -/
def RevisionError.IsMissing (e : RevisionError) : Prop :=
  ∃ artifact edit obstacle, e = .missing artifact edit obstacle

theorem RevisionError.IsMissing.of_missing {artifact : String} {edit : RequiredEdit}
    {obstacle : Obstacle} : (RevisionError.missing artifact edit obstacle).IsMissing :=
  ⟨artifact, edit, obstacle, rfl⟩

theorem isConflict_of_record {e : RevisionError} (h : record b edits = .error e) :
    e.IsConflict := by
  induction edits generalizing b with
  | nil => cases h
  | cons edit edits ih =>
    rw [record_cons, replaceIn] at h
    cases hfirst : b.replace edit.span.1 edit.span.2 edit.replacement with
    | error cause =>
      rw [hfirst] at h
      cases h
      exact ⟨cause, rfl⟩
    | ok b₁ =>
      rw [hfirst] at h
      exact ih h

/-! ## Steps -/

variable {σ τ : Type} {barred barred' : Prop} {fails fails' : RevisionError → Prop}
  {result : Revision → σ} {x : Except RevisionError σ}

/-- What becomes of a revision in a step of a pass.  Unless the step is barred it records some
edits, and gives a result of the revision with these.  If it is barred it fails, because of that or
because edits meet. -/
structure IsStep (barred : Prop) (fails : RevisionError → Prop) (b : Revision)
    (edits : List Edit) (result : Revision → σ) (x : Except RevisionError σ) : Prop where
  records : ¬ barred → x = (record b edits).map result
  stops : barred → ∃ e, x = .error e ∧ (fails e ∨ e.IsConflict ∧ ¬ (b.add edits).IsSound)

namespace IsStep

theorem of_eq (hbarred : ¬ barred) (h : x = (record b edits).map result) :
    IsStep barred fails b edits result x :=
  ⟨fun _ => h, fun h => (hbarred h).elim⟩

theorem of_ok (hbarred : ¬ barred) : IsStep barred fails b [] result (.ok (result b)) :=
  of_eq hbarred rfl

theorem of_record {x : Except RevisionError Revision} (h : x = record b edits) :
    IsStep False fails b edits id x := by
  refine of_eq not_false (h.trans ?_)
  cases record b edits <;> rfl

/-- A step that leaves the revision alone and finds nothing. -/
theorem pass {found : List β} (hbarred : ¬ barred) :
    IsStep barred fails b [] (fun b => (b, found ++ [])) (.ok (b, found)) :=
  of_eq hbarred (by simp [record_nil, Except.map])

theorem of_error {e : RevisionError} (hbarred : barred) (hfails : fails e) :
    IsStep barred fails b edits result (.error e) :=
  ⟨fun h => (h hbarred).elim, fun _ => ⟨e, rfl, .inl hfails⟩⟩

theorem congr (h : IsStep barred fails b edits result x) (hbarred : barred ↔ barred') :
    IsStep barred' fails b edits result x :=
  ⟨fun h' => h.records (mt hbarred.mp h'), fun h' => h.stops (hbarred.mpr h')⟩

theorem weaken (h : IsStep barred fails b edits result x) (hfails : ∀ e, fails e → fails' e) :
    IsStep barred fails' b edits result x := by
  refine ⟨h.records, fun h' => ?_⟩
  obtain ⟨e, herror, hcause⟩ := h.stops h'
  exact ⟨e, herror, hcause.imp_left (hfails e)⟩

/-- A step succeeds just if nothing bars it and its edits can be recorded. -/
theorem eq_ok_iff {r : σ} (h : IsStep barred fails b edits result x) (hb : b.IsSound) :
    x = .ok r ↔ ¬ barred ∧ (b.add edits).IsSound ∧ r = result (b.add edits) := by
  by_cases hbarred : barred
  · obtain ⟨e, herror, -⟩ := h.stops hbarred
    simp [herror, hbarred]
  · rw [h.records hbarred, map_ok_iff]
    constructor
    · rintro ⟨b', hrecord, rfl⟩
      obtain ⟨hsound, rfl⟩ := (record_eq_ok_iff hb).mp hrecord
      exact ⟨hbarred, hsound, rfl⟩
    · rintro ⟨-, hsound, rfl⟩
      exact ⟨_, record_of_isSound hsound, rfl⟩

theorem isOk_iff (h : IsStep barred fails b edits result x) (hb : b.IsSound) :
    x.isOk = true ↔ ¬ barred ∧ (b.add edits).IsSound := by
  constructor
  · intro hok
    obtain ⟨r, hr⟩ := exists_eq_ok_of_isOk hok
    obtain ⟨hbarred, hsound, -⟩ := (h.eq_ok_iff hb).mp hr
    exact ⟨hbarred, hsound⟩
  · rintro ⟨hbarred, hsound⟩
    rw [(h.eq_ok_iff hb).mpr ⟨hbarred, hsound, rfl⟩]
    rfl

/-- A step fails because it is barred, or because its edits cannot be recorded. -/
theorem error_cases {e : RevisionError} (h : IsStep barred fails b edits result x)
    (herror : x = .error e) : fails e ∨ e.IsConflict ∧ ¬ (b.add edits).IsSound := by
  by_cases hbarred : barred
  · obtain ⟨e', herror', hcause⟩ := h.stops hbarred
    cases herror.symm.trans herror'
    exact hcause
  · rw [h.records hbarred] at herror
    cases hrecord : record b edits with
    | error cause =>
      rw [hrecord] at herror
      cases herror
      refine .inr ⟨isConflict_of_record hrecord, fun hsound => ?_⟩
      rw [record_of_isSound hsound] at hrecord
      cases hrecord
    | ok b' =>
      rw [hrecord] at herror
      cases herror

/-- A step and what is done with its result are one step. -/
theorem seq {f : σ → Except RevisionError τ} {result' : Revision → τ}
    (hx : IsStep barred fails b edits result x)
    (hf : IsStep barred' fails (b.add edits) more result' (f (result (b.add edits)))) :
    IsStep (barred ∨ barred') fails b (edits ++ more) result' (x >>= f) := by
  by_cases hbarred : barred
  case pos =>
    obtain ⟨e, rfl, hcause⟩ := hx.stops hbarred
    refine ⟨fun h => (h (.inl hbarred)).elim, fun _ => ⟨e, rfl, ?_⟩⟩
    exact hcause.imp_right fun hmeets => ⟨hmeets.1, fun hsound => hmeets.2 hsound.of_add⟩
  case neg =>
    rw [hx.records hbarred]
    cases hrecord : record b edits with
    | error e =>
      constructor
      · intro _
        rw [record_append, hrecord]
        rfl
      · intro _
        refine ⟨e, rfl, .inr ⟨isConflict_of_record hrecord, fun hsound => ?_⟩⟩
        rw [record_of_isSound hsound.of_add] at hrecord
        cases hrecord
    | ok b' =>
      obtain rfl := eq_add_of_record hrecord
      constructor
      · intro h
        rw [record_append, hrecord]
        exact hf.records fun h' => h (.inr h')
      · intro h
        obtain ⟨e, herror, hcause⟩ := hf.stops (h.resolve_left hbarred)
        rw [Revision.add_add] at hcause
        exact ⟨e, herror, hcause⟩

theorem replace {first last : Nat} {replacement : Text} {f : Revision → Except RevisionError σ}
    (h : IsStep barred fails (b.add [⟨first, last, replacement⟩]) more result
      (f (b.add [⟨first, last, replacement⟩]))) :
    IsStep barred fails b (⟨first, last, replacement⟩ :: more) result
      (replaceIn b (first, last) replacement >>= f) :=
  ((of_record (replaceIn_eq b (first, last) replacement)).seq h).congr (by rw [false_or])

/-- A step that is done only if there is nothing to complain of. -/
theorem guarded {e : RevisionError} {c : Prop} [Decidable c]
    (h : IsStep barred fails b edits result x) (hfails : fails e) :
    IsStep (c ∨ barred) fails b edits result (if c then .error e else x) := by
  by_cases hc : c
  · rw [if_pos hc]
    exact of_error (.inl hc) hfails
  · rw [if_neg hc]
    exact h.congr (by simp [hc])

/-- The steps of a fold are one step, which is barred if one of them is. -/
theorem foldlM {as : List α}
    {step : Revision × List β → α → Except RevisionError (Revision × List β)}
    {barred : α → Prop} {edits : α → List Edit} {finds : α → List β}
    (hstep : ∀ b found, ∀ a ∈ as, IsStep (barred a) fails b (edits a)
      (fun b => (b, found ++ finds a)) (step (b, found) a))
    (b : Revision) (found : List β) :
    IsStep (∃ a ∈ as, barred a) fails b (as.flatMap edits)
      (fun b => (b, found ++ as.flatMap finds)) (as.foldlM step (b, found)) := by
  induction as generalizing b found with
  | nil =>
    rw [List.flatMap_nil, List.flatMap_nil, List.append_nil]
    exact of_ok (by simp)
  | cons a as ih =>
    have hrest := ih (fun b found a ha => hstep b found a (List.mem_cons_of_mem _ ha))
      (b.add (edits a)) (found ++ finds a)
    simp only [List.append_assoc] at hrest
    rw [List.foldlM_cons]
    exact ((hstep b found a List.mem_cons_self).seq hrest).congr
      (List.exists_mem_cons_iff _ _ _).symm

/-- A fold that has to find something, and what is done with what it finds, are one step. -/
theorem search {as : List α}
    {step : Revision × List β → α → Except RevisionError (Revision × List β)}
    {each : α → Prop} {edits : α → List Edit} {finds : α → List β} {e : RevisionError}
    {f : Revision × List β → Except RevisionError σ}
    (hstep : ∀ b found, ∀ a ∈ as, IsStep (each a) fails b (edits a)
      (fun b => (b, found ++ finds a)) (step (b, found) a)) (hfails : fails e)
    (hf : IsStep barred fails (b.add (as.flatMap edits)) more result
      (f (b.add (as.flatMap edits), as.flatMap finds))) :
    IsStep ((∃ a ∈ as, each a) ∨ as.flatMap finds = [] ∨ barred) fails b
      (as.flatMap edits ++ more) result
      (as.foldlM step (b, []) >>= fun acc => if acc.2.isEmpty then .error e else f acc) := by
  have hfold := foldlM hstep b []
  rw [List.nil_append] at hfold
  exact hfold.seq ((hf.guarded hfails).congr (by rw [List.isEmpty_iff]))

end IsStep

end Bindings

end WasmPackage
