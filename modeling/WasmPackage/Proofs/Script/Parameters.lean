import WasmPackage.Proofs.Script.Types

/-!
# Typed parameters

Parameters are told apart by commas.  Those of a list in which every parameter has a type are read
as they are written if no type has a comma outside of parentheses and brackets; each such comma, as
it stands between the arguments of a generic type, makes one parameter more.
-/

namespace WasmPackage.Script

/-! ## Parameters as they are written -/

/-- A parameter with its type, as it is written. -/
structure TypedParam where
  name : String
  isOptional : Bool
  type : TypeExpr

/-- The code of a parameter before its colon. -/
def TypedParam.lead (p : TypedParam) : List Face :=
  .word p.name :: if p.isOptional then [.mark "?"] else []

/-- The code of a parameter before its type. -/
def TypedParam.front (p : TypedParam) : List Face :=
  p.lead ++ [.mark ":"]

/-- The code of a parameter. -/
def TypedParam.faces (p : TypedParam) : List Face :=
  p.front ++ p.type.faces

/-- The code of parameters with commas between them. -/
def paramFaces : List TypedParam → List Face
  | [] => []
  | [p] => p.faces
  | p :: q :: ps => p.faces ++ .mark "," :: paramFaces (q :: ps)

/-- The number of commas outside of parentheses and brackets in the types of some parameters. -/
def typeCommas : List TypedParam → Nat
  | [] => 0
  | p :: ps => p.type.commas + typeCommas ps

theorem typeCommas_eq_zero_iff {ps : List TypedParam} :
    typeCommas ps = 0 ↔ ∀ p ∈ ps, p.type.commas = 0 := by
  induction ps with
  | nil => exact iff_of_true rfl (List.forall_mem_nil _)
  | cons p ps ih => rw [typeCommas, Nat.add_eq_zero_iff, List.forall_mem_cons, ih]

theorem TypedParam.length_faces_pos (p : TypedParam) : 0 < p.faces.length := by
  rw [TypedParam.faces, List.length_append, TypedParam.front, List.length_append]
  exact Nat.lt_of_lt_of_le (Nat.succ_pos _) (Nat.le_add_right _ _)

theorem length_paramFaces_pos (p : TypedParam) (ps : List TypedParam) :
    0 < (paramFaces (p :: ps)).length := by
  have hfaces := p.length_faces_pos
  cases ps with
  | nil => exact hfaces
  | cons q ps =>
    rw [paramFaces, List.length_append]
    omega

theorem brace_notMem_paramFaces (ps : List TypedParam) : Face.mark "\x7d" ∉ paramFaces ps := by
  have hone (p : TypedParam) : Face.mark "\x7d" ∉ p.faces := by
    have htype := p.type.brace_notMem_faces
    cases hoptional : p.isOptional <;>
      simp [TypedParam.faces, TypedParam.front, TypedParam.lead, hoptional, htype]
  fun_induction paramFaces ps with
  | case1 => exact List.not_mem_nil
  | case2 p => exact hone p
  | case3 p q ps ih => simp [hone p, ih]

/-! ## The last token of a type -/

/-- The last token of a type: a name or a closing bracket. -/
def IsTypeEnd (f : Face) : Prop :=
  f.1 = .identifier ∨ f ∈ [Face.mark ">", .mark "]", .mark ")"]

theorem TypeExpr.exists_faces_eq_append (e : TypeExpr) :
    ∃ front f, e.faces = front ++ [f] ∧ IsTypeEnd f := by
  cases e with
  | name w => exact ⟨[], .word w, rfl, .inl rfl⟩
  | generic w args =>
    exact ⟨.word w :: .mark "<" :: args.faces, .mark ">", rfl, .inr (by decide)⟩
  | array e =>
    exact ⟨e.faces ++ [.mark "["], .mark "]", by simp [TypeExpr.faces], .inr (by decide)⟩
  | union e e' =>
    obtain ⟨front, f, hfaces, hf⟩ := e'.exists_faces_eq_append
    exact ⟨e.faces ++ .mark "|" :: front, f, by simp [TypeExpr.faces, hfaces], hf⟩
  | paren e => exact ⟨.mark "(" :: e.faces, .mark ")", rfl, .inr (by decide)⟩

namespace Source

variable {t : Text} {s : Source} {i j close stop : Nat} {f : Face} {doc : Option Text}
  {faces outer : List Face} {e : TypeExpr} {p : TypedParam} {ps : List TypedParam}

/-- A token of one character, or of a name, does not end with a blank. -/
theorem isInkAt_stopAt_of_typeEnd [Limits] (hs : Source.read t = .ok s) (hf : IsTypeEnd f)
    (h : s.cell? i = some (f, doc)) : t.IsInkAt (s.stopAt i - 1) := by
  obtain ⟨x, hx, hface⟩ := Option.map_eq_some_iff.mp h
  have hface : x.face = f := congrArg Prod.fst hface
  have hlt := (isPlaced_of_read hs).2.startAt_lt_stopAt (lt_size_of_getElem? hx) (Nat.le_refl i)
  rcases hf with hkind | hmark
  · have hx' : x ∈ s.code.toList := Array.mem_toList_iff.mpr (Array.mem_of_getElem? hx)
    have hkind : x.kind = .identifier := by rwa [← hface] at hkind
    rw [stopAt_eq hx] at hlt ⊢
    rw [startAt_eq hx] at hlt
    exact isInkAt_of_identifier hs hx' hkind (by omega) (by omega)
  · have hlength : x.text.length = 1 := by
      have htext : x.text = f.2 := congrArg Prod.snd hface
      rw [htext]
      simp only [List.mem_cons, List.not_mem_nil, or_false] at hmark
      rcases hmark with rfl | rfl | rfl <;> rfl
    have hstop : s.stopAt i - 1 = s.startAt i := by
      rw [stopAt_eq hx, startAt_eq hx, Token.stop, hlength, Nat.add_sub_cancel]
    rw [hstop]
    exact isInkAt_startAt hs (lt_size_of_getElem? hx)

theorem exists_typeEnd (h : s.Reads i e.faces) :
    ∃ f doc, IsTypeEnd f ∧ s.cell? (i + e.faces.length - 1) = some (f, doc) := by
  obtain ⟨front, f, hfaces, hf⟩ := e.exists_faces_eq_append
  rw [hfaces, reads_append_iff] at h
  obtain ⟨doc, hlast⟩ := h.2.cell?
  refine ⟨f, doc, hf, ?_⟩
  rwa [hfaces, List.length_append, List.length_singleton, ← Nat.add_assoc, Nat.add_sub_cancel]

/-- What is written of a type has no blanks around it. -/
theorem trim_written [Limits] (hs : Source.read t = .ok s) (h : s.Reads i e.faces) :
    (s.text.slice (s.startAt i) (s.stopAt (i + e.faces.length - 1))).trim =
      s.text.slice (s.startAt i) (s.stopAt (i + e.faces.length - 1)) := by
  obtain ⟨htext, hplaced⟩ := isPlaced_of_read hs
  obtain ⟨f, doc, hf, hlast⟩ := exists_typeEnd h
  have hpos := e.length_faces_pos
  have hsize := lt_size_of_cell? hlast
  rw [htext]
  apply Text.trim_slice
  · exact hplaced.startAt_lt_stopAt (by omega) (by omega)
  · exact isInkAt_startAt hs (by omega)
  · exact isInkAt_stopAt_of_typeEnd hs hf hlast

/-! ## How parameters are read -/

/-- A parameter at index `i` of the code, as it is written. -/
def paramShape (s : Source) (i : Nat) (p : TypedParam) : Parameter where
  name := p.name
  type := some (s.written (i + p.front.length) (i + p.faces.length))
  start := s.startAt i
  stop := s.stopAt (i + p.faces.length - 1)

/-- Parameters from index `i` of the code on, as they are written. -/
def paramShapes (s : Source) (i : Nat) : List TypedParam → List Parameter
  | [] => []
  | p :: ps => s.paramShape i p :: paramShapes s (i + p.faces.length + 1) ps

theorem length_paramShapes : (s.paramShapes i ps).length = ps.length := by
  induction ps generalizing i with
  | nil => rfl
  | cons p ps ih => rw [paramShapes, List.length_cons, ih, List.length_cons]

/-- The walk over a parameter without outer commas ends behind it. -/
theorem paramMarks_of_param [Limits] (hs : Source.read t = .ok s) (hcommas : p.type.commas = 0)
    (h : s.Reads i p.faces) (hstop : i + p.faces.length ≤ close)
    (hend : i + p.faces.length = close ∨ s.is "," (i + p.faces.length) = true) :
    s.paramMarks close i none none =
      ⟨i + p.faces.length, some (i + p.lead.length), none⟩ := by
  have hlength : p.faces.length = p.lead.length + 1 + p.type.faces.length := by
    rw [TypedParam.faces, TypedParam.front, List.length_append, List.length_append,
      List.length_singleton]
  rw [hlength, ← Nat.add_assoc, ← Nat.add_assoc] at hstop hend ⊢
  obtain ⟨hfront, htype⟩ := reads_append_iff.mp h
  obtain ⟨hlead, hcolon⟩ := reads_append_iff.mp hfront
  obtain ⟨doc, hcolon⟩ := hcolon.cell?
  rw [TypedParam.front, List.length_append, List.length_singleton, ← Nat.add_assoc] at htype
  have hplain : ∀ f ∈ p.lead, isBracket f = false ∧
      f ≠ .mark "," ∧ ((none : Option Nat).isNone = true → f ≠ .mark ":") ∧ f ≠ .mark "=" := by
    unfold TypedParam.lead
    cases p.isOptional <;> simp [isBracket]
    decide
  have houter : ∀ f ∈ p.type.outer, f ≠ .mark "," ∧
      ((some (i + p.lead.length)).isNone = true → f ≠ .mark ":") ∧ f ≠ .mark "=" := by
    intro f hf
    refine ⟨?_, ?_, (p.type.isTypeFace_outer f hf).ne_mark (by decide)⟩
    · rintro rfl
      exact absurd hcommas (Nat.ne_of_gt (List.count_pos_iff.mpr hf))
    · intro hnone
      cases hnone
  have hstops : ¬ (i + p.lead.length + 1 + p.type.faces.length < close ∧
      s.is "," (i + p.lead.length + 1 + p.type.faces.length) = false) := by
    rcases hend with hend | hend
    · omega
    · simp [hend]
  rw [paramMarks_of_outermost hs (.of_plain fun f hf => (hplain f hf).1)
      (fun f hf => (hplain f hf).2) hlead (by omega),
    paramMarks_of_colon hs (by omega) hcolon,
    paramMarks_of_outermost hs p.type.outermost houter htype hstop, paramMarks, if_neg hstops]

/-- The parameter that such a walk finds is the one that is written. -/
theorem param_of_typed [Limits] (hs : Source.read t = .ok s) (h : s.Reads i p.faces) :
    s.param i ⟨i + p.faces.length, some (i + p.lead.length), none⟩ = s.paramShape i p := by
  obtain ⟨doc, hname⟩ := h.cell?
  obtain ⟨-, htype⟩ := reads_append_iff.mp h
  have hdots : s.is "..." i = false := by
    rw [is_eq_of_face hs hname (by decide)]
    simp
  have hbehind : i + p.lead.length + 1 = i + p.front.length := by
    rw [TypedParam.front, List.length_append, List.length_singleton, Nat.add_assoc]
  have hlast : i + p.faces.length - 1 = i + p.front.length + p.type.faces.length - 1 := by
    rw [TypedParam.faces, List.length_append, Nat.add_assoc]
  simp only [param, hdots, Bool.false_eq_true, if_false, word?_eq_of_cell? hname, Option.getD_some,
    Option.map_some, Option.map_none, Option.getD_none, hbehind]
  rw [hlast, trim_written hs htype, paramShape, written, excerpt, hlast]

/-- Parameters without outer commas in their types are read as they are written. -/
theorem paramsFrom_of_typed [Limits] (hs : Source.read t = .ok s)
    (hcommas : ∀ p ∈ ps, p.type.commas = 0) (h : s.Reads i (paramFaces ps))
    (hclose : i + (paramFaces ps).length = close) :
    s.paramsFrom close i = s.paramShapes i ps := by
  induction ps generalizing i with
  | nil =>
    have hend : ¬ i < close := by
      rw [← hclose]
      exact Nat.lt_irrefl i
    rw [paramsFrom, if_neg hend, paramShapes]
  | cons p rest ih =>
    obtain ⟨hp, hrest⟩ := List.forall_mem_cons.mp hcommas
    have hpos := p.length_faces_pos
    have hread (hp' : s.Reads i p.faces) (hstop : i + p.faces.length ≤ close)
        (hend : i + p.faces.length = close ∨ s.is "," (i + p.faces.length) = true) :
        s.paramsFrom close i =
          s.paramShape i p :: s.paramsFrom close (i + p.faces.length + 1) := by
      have hnext : max (i + 1) (i + p.faces.length + 1) = i + p.faces.length + 1 := by omega
      rw [paramsFrom, if_pos (by omega), paramMarks_of_param hs hp hp' hstop hend]
      simp only [param_of_typed hs hp', hnext]
    cases rest with
    | nil =>
      have hend : ¬ i + p.faces.length + 1 < close := by
        rw [← hclose]
        exact Nat.not_lt.mpr (Nat.le_succ _)
      rw [hread h (Nat.le_of_eq hclose) (.inl hclose), paramsFrom, if_neg hend]
      rfl
    | cons q rest =>
      obtain ⟨hp', htail⟩ := reads_append_iff.mp h
      obtain ⟨doc, hcomma⟩ := htail.cell?
      have hmark : s.is "," (i + p.faces.length) = true := by
        rw [is_eq_of_face hs hcomma (by decide)]
        decide
      have hlength : i + p.faces.length + 1 + (paramFaces (q :: rest)).length = close := by
        rw [← hclose, paramFaces, List.length_append, List.length_cons]
        omega
      rw [hread hp' (by omega) (.inr hmark), ih hrest htail.tail hlength]
      rfl

/-! ## The number of parameters -/

/-- The commas outside of brackets from index `i` up to index `close`. -/
def commasFrom (s : Source) (close i : Nat) : Nat :=
  if i < close then
    if s.is "," i then commasFrom s close (i + 1) + 1 else commasFrom s close (s.skip i)
  else 0
termination_by close - i
decreasing_by
  all_goals
    have := s.lt_skip i
    omega

variable {colon default : Option Nat}

/-- The walk over a parameter passes no comma, and ends at one or behind the list. -/
theorem of_paramMarks :
    i ≤ (s.paramMarks close i colon default).stop ∧
      s.commasFrom close (s.paramMarks close i colon default).stop = s.commasFrom close i ∧
      ((s.paramMarks close i colon default).stop < close →
        s.is "," (s.paramMarks close i colon default).stop = true) := by
  have hpass {k : Nat} (hk : k < close ∧ s.is "," k = false) :
      s.commasFrom close (s.skip k) = s.commasFrom close k := by
    rw [commasFrom.eq_def s close k, if_pos hk.1, hk.2]
    rfl
  have hskip {k : Nat} (hk : ¬ (s.closer? k).isSome = true) : s.skip k = k + 1 := by
    rw [Option.not_isSome_iff_eq_none] at hk
    simp [skip, hk]
  have hnext := s.lt_skip
  fun_induction paramMarks s close i colon default with
  | case1 i colon default hin _ ih =>
    have := hnext i
    exact ⟨by omega, ih.2.1.trans (hpass hin), ih.2.2⟩
  | case2 i default colon hin hplain _ ih | case3 i colon default hin hplain _ _ ih
  | case4 i colon default hin hplain _ _ ih =>
    exact ⟨by omega, ih.2.1.trans (hskip hplain ▸ hpass hin), ih.2.2⟩
  | case5 i colon default hout =>
    refine ⟨Nat.le_refl i, rfl, ?_⟩
    intro hlt
    by_contra hcomma
    exact hout ⟨hlt, by simpa using hcomma⟩

/-- There is one parameter more than commas, unless there is nothing, or a comma stands last. -/
theorem length_paramsFrom (hi : i < close) (hlast : s.is "," (close - 1) = false) :
    (s.paramsFrom close i).length = s.commasFrom close i + 1 := by
  induction hn : close - i using Nat.strong_induction_on generalizing i with
  | _ n ih =>
  obtain ⟨hle, hcommas, hend⟩ : i ≤ (s.paramMarks close i none none).stop ∧ _ ∧ _ :=
    of_paramMarks
  rw [paramsFrom, if_pos hi]
  simp only [List.length_cons]
  rcases Nat.lt_or_ge (s.paramMarks close i none none).stop close with hlt | hge
  · have hcomma := hend hlt
    have hnext : max (i + 1) ((s.paramMarks close i none none).stop + 1) =
        (s.paramMarks close i none none).stop + 1 := by omega
    have hbehind : (s.paramMarks close i none none).stop + 1 < close := by
      by_contra hnot
      have hplace : close - 1 = (s.paramMarks close i none none).stop := by omega
      rw [hplace, hcomma] at hlast
      cases hlast
    rw [hnext, ih _ (by omega) hbehind rfl, ← hcommas,
      commasFrom.eq_def s close (s.paramMarks close i none none).stop, if_pos hlt, if_pos hcomma]
  · have hnothing : ¬ max (i + 1) ((s.paramMarks close i none none).stop + 1) < close := by omega
    rw [paramsFrom, if_neg hnothing, ← hcommas, commasFrom, if_neg (Nat.not_lt.mpr hge)]
    rfl

/-- One more comma behind a token. -/
def commasBehind (commas : Nat) (f : Face) : Nat :=
  if f = .mark "," then commas + 1 else commas

theorem foldl_commasBehind (commas : Nat) :
    faces.foldl commasBehind commas = commas + faces.count (.mark ",") := by
  induction faces generalizing commas with
  | nil => rfl
  | cons f faces ih =>
    rw [List.foldl_cons, ih, List.count_cons, commasBehind]
    by_cases hf : f = .mark ","
    · simp only [hf, if_true, beq_self_eq_true]
      omega
    · simp [hf]

theorem commasFrom_of_outermost [Limits] (hs : Source.read t = .ok s)
    (houtermost : Outermost faces outer) (h : s.Reads i faces) (hclose : i + faces.length = close) :
    s.commasFrom close i = outer.count (.mark ",") := by
  have hwalk := walk_outermost (W := fun commas i => commas + s.commasFrom close i) commasBehind hs
    houtermost ?_ ?_ 0 h (Nat.le_of_eq hclose)
  · have hend : s.commasFrom close close = 0 := by rw [commasFrom, if_neg (Nat.lt_irrefl close)]
    simpa [hclose, hend, foldl_commasBehind] using hwalk
  · intro commas k f doc _ hlt hcell hbracket
    have hcomma := is_eq_of_face hs hcell (v := ",") (by decide)
    rw [commasFrom, if_pos hlt, hcomma, skip_of_plain hs hcell hbracket, commasBehind]
    by_cases hf : f = .mark ","
    · simp only [hf, decide_true, if_true]
      omega
    · simp [hf]
  · intro commas k k' w doc hw hlt hcell hopens
    have hcomma : s.is "," k = false := is_eq_of_opening hw hcell (by decide)
    rw [commasFrom, if_pos hlt, hcomma, skip_of_closer? hs hopens]
    rfl

/-- The commas outside of brackets in some parameters: one between any two, and those in types. -/
theorem exists_outermost_params (p : TypedParam) (ps : List TypedParam) :
    ∃ outer, Outermost (paramFaces (p :: ps)) outer ∧
      outer.count (.mark ",") = ps.length + typeCommas (p :: ps) := by
  have hone (p : TypedParam) :
      ∃ outer, Outermost p.faces outer ∧ outer.count (.mark ",") = p.type.commas := by
    have hfront : ∀ f ∈ p.front, isBracket f = false ∧ f ≠ .mark "," := by
      unfold TypedParam.front TypedParam.lead
      cases p.isOptional <;> simp [isBracket] <;> decide
    refine ⟨p.front ++ p.type.outer, ?_, ?_⟩
    · exact (Outermost.of_plain fun f hf => (hfront f hf).1).append p.type.outermost
    · rw [List.count_append, List.count_eq_zero.mpr fun hmem => (hfront _ hmem).2 rfl, Nat.zero_add]
      rfl
  induction ps generalizing p with
  | nil =>
    obtain ⟨outer, houter, hcount⟩ := hone p
    exact ⟨outer, houter, by simpa [typeCommas] using hcount⟩
  | cons q ps ih =>
    obtain ⟨first, hfirst, hcommas⟩ := hone p
    obtain ⟨rest, hrest, hcount⟩ := ih q
    refine ⟨first ++ .mark "," :: rest, hfirst.append (.plain (by decide) hrest), ?_⟩
    have hsum : typeCommas (p :: q :: ps) = p.type.commas + typeCommas (q :: ps) := rfl
    rw [List.count_append, List.count_cons_self, hcommas, hcount, List.length_cons, hsum]
    omega

theorem balanced_paramFaces (ps : List TypedParam) : Balanced (paramFaces ps) := by
  cases ps with
  | nil => exact .nil
  | cons p ps =>
    obtain ⟨outer, houtermost, -⟩ := exists_outermost_params p ps
    exact houtermost.balanced

theorem exists_typeEnd_params (h : s.Reads i (paramFaces (p :: ps))) :
    ∃ f doc, IsTypeEnd f ∧ s.cell? (i + (paramFaces (p :: ps)).length - 1) = some (f, doc) := by
  have hone {k : Nat} {p : TypedParam} (h : s.Reads k p.faces) :
      ∃ f doc, IsTypeEnd f ∧ s.cell? (k + p.faces.length - 1) = some (f, doc) := by
    obtain ⟨-, htype⟩ := reads_append_iff.mp h
    rw [TypedParam.faces, List.length_append, ← Nat.add_assoc]
    exact exists_typeEnd htype
  induction ps generalizing i p with
  | nil => exact hone h
  | cons q ps ih =>
    obtain ⟨-, hrest⟩ := reads_append_iff.mp h
    obtain ⟨f, doc, hf, hlast⟩ := ih hrest.tail
    refine ⟨f, doc, hf, ?_⟩
    rw [paramFaces, List.length_append, List.length_cons]
    rwa [show i + (p.faces.length + ((paramFaces (q :: ps)).length + 1)) - 1 =
      i + p.faces.length + 1 + (paramFaces (q :: ps)).length - 1 by omega]

/-- Each comma of a type outside of brackets makes one parameter more. -/
theorem length_paramsFrom_of_typed [Limits] (hs : Source.read t = .ok s)
    (h : s.Reads i (paramFaces ps)) (hclose : i + (paramFaces ps).length = close) :
    (s.paramsFrom close i).length = ps.length + typeCommas ps := by
  cases ps with
  | nil =>
    have hend : ¬ i < close := by
      rw [← hclose]
      exact Nat.lt_irrefl i
    rw [paramsFrom, if_neg hend]
    rfl
  | cons p ps =>
    obtain ⟨outer, houtermost, hcount⟩ := exists_outermost_params p ps
    obtain ⟨f, doc, hf, hlast⟩ := exists_typeEnd_params h
    rw [hclose] at hlast
    have hnoComma : s.is "," (close - 1) = false := by
      rw [is_eq_of_face hs hlast (by decide)]
      rcases hf with hkind | hmark
      · simp only [decide_eq_false_iff_not]
        rintro rfl
        cases hkind
      · simp only [List.mem_cons, List.not_mem_nil, or_false] at hmark
        rcases hmark with rfl | rfl | rfl <;> decide
    have hpos := length_paramFaces_pos p ps
    rw [length_paramsFrom (by omega) hnoComma, commasFrom_of_outermost hs houtermost h hclose,
      hcount, List.length_cons]
    omega

end Source

end WasmPackage.Script
