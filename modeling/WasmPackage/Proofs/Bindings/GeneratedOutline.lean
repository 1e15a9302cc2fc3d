import WasmPackage.Proofs.Bindings.Edits
import WasmPackage.Proofs.Bindings.Generated

/-!
# Outlines of generated packages

The outline of a generated artifact has the classes that it was generated for, each with its getter
and its output methods in order.  No name matters for that: a method that is called like a modifier
is a method.
-/

namespace WasmPackage.Bindings

open Script

variable {d : Dialect} {c : ClassSpec} {cs : List ClassSpec} {m : OutputSpec} {t : Text}
  {s : Source} {i j stop : Nat} {p : String × Option String} {ps : List (String × Option String)}
  {doc : Option Text} {modifier name type : String} {value : List Cell}

/-! ## Documentation -/

/-- The tags of the documentation of an output method. -/
theorem tagsFrom_docText {indent : Text} (hindent : '@' ∉ indent) (htype : '\x7d' ∉ type.toList) :
    ∃ first second, tagsFrom 0 (docText indent type) =
      [⟨.param, type.toList, first, some "out"⟩, ⟨.returns, "void".toList, second, none⟩] := by
  have hsplit : docText indent type = ("/**\n".toList ++ indent ++ "* ".toList) ++
      ("@param \x7b".toList ++ (type.toList ++ ("\x7d out\n".toList ++ (indent ++ "* ".toList ++
        ("@returns \x7bvoid\x7d\n".toList ++ (indent ++ "*/".toList)))))) := by
    unfold docText
    simp
  have hbefore : '@' ∉ "/**\n".toList ++ indent ++ "* ".toList := by simp [hindent]
  have hbetween : '@' ∉ '\n' :: (indent ++ "* ".toList) := by simp [hindent]
  have hbehind : '@' ∉ '\n' :: (indent ++ "*/".toList) := by simp [hindent]
  obtain ⟨pos, hparam⟩ := tagsFrom_param
    (0 + ("/**\n".toList ++ indent ++ "* ".toList).length)
    (indent ++ "* ".toList ++ ("@returns \x7bvoid\x7d\n".toList ++ (indent ++ "*/".toList)))
    htype
  obtain ⟨pos', hreturns⟩ := tagsFrom_returns (pos + ('\n' :: (indent ++ "* ".toList)).length)
    (indent ++ "*/".toList)
  have hlast : tagsFrom pos' ('\n' :: (indent ++ "*/".toList)) = [] := by
    rw [← List.append_nil ('\n' :: (indent ++ "*/".toList)), tagsFrom_append hbehind, tagsFrom]
  rw [← List.cons_append, tagsFrom_append hbetween, hreturns, hlast, ← tagsFrom_append hbefore,
    ← hsplit] at hparam
  exact ⟨_, _, hparam⟩

/-- A comment like this documents the output type. -/
theorem output_of_docText {x : DocComment} (hx : x.text = docText d.indent type)
    (htype : isWord type = true) :
    (∃ span, x.voidSpan? = some span) ∧ (x.typesOfParameter outName).getLast? = some type := by
  have hvoid : isWord "void" = true := by decide
  have hbrace : '\x7d' ∉ type.toList := notMem_of_isWord htype (by decide)
  have hindent : '@' ∉ d.indent := by cases d <;> decide
  have htrim {w : String} {kind : TagKind} {k : Nat} {name : Option String}
      (hw : isWord w = true) : (⟨kind, w.toList, k, name⟩ : DocTag).trimmedType = w := by
    rw [DocTag.trimmedType, trim_of_isWord hw, String.ofList_toList]
  obtain ⟨first, second, htags⟩ := tagsFrom_docText hindent hbrace
  have hall : x.tags = [⟨.param, type.toList, first, some "out"⟩,
      ⟨.returns, "void".toList, second, none⟩] := by rw [DocComment.tags, hx, htags]
  constructor
  · refine ⟨_, Option.map_eq_some_iff.mpr ⟨⟨.returns, "void".toList, second, none⟩, ?_, rfl⟩⟩
    rw [hall, List.filter_cons_of_neg (by simp), List.filter_cons_of_pos (by rw [htrim hvoid]; rfl)]
    rfl
  · rw [DocComment.typesOfParameter, hall, List.filter_cons_of_pos (by simp [outName]),
      List.filter_cons_of_neg (by simp), List.filter_nil, List.map_singleton, htrim htype]
    rfl

/-! ## Members -/

/-- What a member has in an artifact: the type of its result, or a body. -/
def Dialect.Ends (d : Dialect) (type : String) (x : Member) : Prop :=
  match d with
  | declared => ∃ note, x.returnType = some note ∧ note.text = type
  | defined => x.body.isSome = true

/-- The first parameter of a known list. -/
theorem first_param [Limits] (hs : Source.read t = .ok s) (hps : AreWords (p :: ps))
    (hclose : s.closer? i = some (i + (paramsCode (p :: ps)).length + 1))
    (h : s.Shows (i + 1) (paramsCode (p :: ps))) :
    ∃ q rest, s.params i = q :: rest ∧ q.name = p.1 ∧ q.type = p.2 := by
  obtain ⟨⟨hname, htype⟩, -⟩ := List.forall_mem_cons.mp hps
  have hlength : (paramsCode (p :: ps)).length = (paramCode p).length +
      (ps.flatMap fun q => .mark "," :: paramCode q).length := List.length_append
  have hparam : s.Shows (i + 1) (paramCode p) := h.append_left
  -- behind the first parameter stands a comma, or the end of the list
  have hend : i + 1 + (paramCode p).length = i + (paramsCode (p :: ps)).length + 1 ∨
      s.is "," (i + 1 + (paramCode p).length) = true := by
    cases ps with
    | nil =>
      rw [hlength]
      exact .inl (by simp; omega)
    | cons q ps =>
      have hcomma := (Source.shows_cons_iff.mp h.append_right).1
      exact .inr ((Source.is_eq_of_cell? hcomma ",").trans (by decide))
  rcases p with ⟨name, _ | type⟩
  · have hlast : (paramCode (name, none)).length = 1 := rfl
    rw [hlast] at hend
    exact Source.params_of_word hs hclose hname (Source.shows_cons_iff.mp hparam).1 (by omega) hend
  · have hlast : (paramCode (name, some type)).length = 3 := rfl
    rw [hlast] at hend
    obtain ⟨hword, hparam⟩ := Source.shows_cons_iff.mp hparam
    obtain ⟨hcolon, hparam⟩ := Source.shows_cons_iff.mp hparam
    exact Source.params_of_typed hs hclose hname (htype type rfl) hword hcolon
      (Source.shows_cons_iff.mp hparam).1 (by omega) hend

/-- The end of a member. -/
theorem behindMember_of_endCode [Limits] {last k : Nat} (hs : Source.read t = .ok s)
    (hcall : s.is "(" (last + 1) = true) (hclose : s.closer? (last + 1) = some k)
    (htype : isWord type = true) (hvalue : Balanced (value.map Prod.fst))
    (h : s.Shows (k + 1) (d.endCode type value))
    (hstop : k + 1 + (d.endCode type value).length ≤ stop) :
    s.behindMember stop last = k + 1 + (d.endCode type value).length ∧
      ∀ first modifiers, d.Ends type (s.memberAt stop i modifiers first name last).1 := by
  cases d with
  | declared =>
    obtain ⟨hcolon, h⟩ := Source.shows_cons_iff.mp h
    obtain ⟨hword, h⟩ := Source.shows_cons_iff.mp h
    have hend := (Source.shows_cons_iff.mp h).1
    obtain ⟨⟨note, hnote, htext⟩, hbehind⟩ := Source.memberType_of_declared hs hcall hclose
      ((Source.is_eq_of_cell? hcolon ":").trans (by decide)) htype hword
      ((Source.is_eq_of_cell? hend ";").trans (by decide)) hstop
    exact ⟨hbehind, fun first modifiers => ⟨note, congrArg Prod.fst hnote, htext⟩⟩
  | defined =>
    have hopen := (Source.shows_cons_iff.mp h).1
    have hbrace : s.is "\x7b" (k + 1) = true :=
      (Source.is_eq_of_cell? hopen "\x7b").trans (by decide)
    have hinner :
        Balanced ((Cell.word "return" :: value ++ [Cell.mark ";"]).map Prod.fst) := by
      rw [List.map_append, List.map_cons]
      exact (Balanced.plain rfl hvalue).append (.plain rfl .nil)
    have hclose' := Source.closer?_eq_some hs h (by decide) hinner
    obtain ⟨hbody, hbehind⟩ := Source.bodyAt_of_defined hs hcall hclose hbrace hclose'
    refine ⟨hbehind.trans ?_, ?_⟩
    · simp [Dialect.endCode]
      omega
    · intro first modifiers
      simp [Dialect.Ends, Source.memberAt_body, hbody, hbrace]

/-- The code of a member is read as that member. -/
theorem member_of_memberCode [Limits] (hs : Source.read t = .ok s)
    (hmodifier : memberModifiers.contains modifier = true) (hname : isWord name = true)
    (htype : isWord type = true) (hvalue : Balanced (value.map Prod.fst))
    (h : s.Shows i (memberCode doc modifier name ps (d.endCode type value)))
    (hstop : i + (memberCode doc modifier name ps (d.endCode type value)).length ≤ stop) :
    ∃ x, x = (s.memberAt stop i (Modifiers.push ⟨false, .method⟩ modifier) (i + 1) name (i + 1)).1 ∧
      s.member stop i = (some x,
        i + (memberCode doc modifier name ps (d.endCode type value)).length) ∧
      s.is "(" (i + 2) = true ∧ s.closer? (i + 2) = some (i + 2 + (paramsCode ps).length + 1) ∧
      d.Ends type x := by
  have hlength : (memberCode doc modifier name ps (d.endCode type value)).length =
      4 + (paramsCode ps).length + (d.endCode type value).length := by
    simp only [memberCode, List.length_cons, List.length_append]
    omega
  rw [hlength] at hstop ⊢
  obtain ⟨hfirst, h⟩ := Source.shows_cons_iff.mp h
  obtain ⟨hsecond, h⟩ := Source.shows_cons_iff.mp h
  have hopen := (Source.shows_cons_iff.mp h).1
  have hcall : s.is "(" (i + 2) = true := (Source.is_eq_of_cell? hopen "(").trans (by decide)
  have hparams : s.Shows (i + 2) ((Cell.mark "(" :: (paramsCode ps ++ [Cell.mark ")"])) ++
      d.endCode type value) := by
    simpa using h
  have hclose := Source.closer?_eq_some hs hparams.append_left (by decide) (balanced_paramsCode ps)
  have hend := hparams.append_right
  have hplace : i + 2 + (Cell.mark "(" :: (paramsCode ps ++ [Cell.mark ")"])).length =
      i + 2 + (paramsCode ps).length + 1 + 1 := by
    simp only [List.length_cons, List.length_append, List.length_nil]
    omega
  rw [hplace] at hend
  have hcall' : s.is "(" (i + 1 + 1) = true := hcall
  have hstop' : i + 2 + (paramsCode ps).length + 1 + 1 + (d.endCode type value).length ≤ stop := by
    omega
  obtain ⟨hbehind, hends⟩ :=
    behindMember_of_endCode (i := i) hs hcall' hclose htype hvalue hend hstop'
  refine ⟨_, rfl, ?_, hcall, hclose, hends _ _⟩
  rw [Source.member_of_cells hmodifier hname hfirst hsecond hopen (by omega), hbehind]
  congr 1
  omega

/-- The getter for the floats of a value. -/
structure IsGetter (d : Dialect) (x : Member) : Prop where
  name : x.name = accessorName
  kind : x.kind = .getter
  params : x.paramsStop.isSome = true
  ends : d.Ends "Float32Array" x

/-- The method that writes its result into `out`. -/
structure IsMethodOf (d : Dialect) (m : OutputSpec) (x : Member) : Prop where
  name : x.name = m.name
  output : ∃ span, IsOutput x m.type span
  ends : d.Ends "void" x

section

variable [Limits] {left : Nat} (hs : Source.read t = .ok s) (hclose : s.closer? left = some stop)

include hs hclose

/-- The type parameters of a member do not run out where it has none. -/
theorem not_runsOut_of_call (hcall : s.is "(" (j + 1) = true) (hj : j + 1 ≤ stop)
    {modifiers : Modifiers} {first : Nat} :
    ¬ s.RunsOut (s.startAt stop) (s.memberAt stop i modifiers first name j).1 := by
  rw [Source.runsOut_memberAt_iff hs hclose (by omega), Source.behindName_of_call hcall]
  omega

theorem member_of_getterCode (h : s.Shows i d.getterCode)
    (hstop : i + d.getterCode.length ≤ stop) :
    ∃ x, s.member stop i = (some x, i + d.getterCode.length) ∧ IsGetter d x ∧
      ¬ s.RunsOut (s.startAt stop) x := by
  have hname : isWord accessorName = true := by decide
  have htype : isWord "Float32Array" = true := by decide
  have hvalue : Balanced (([.word "realRet"] : List Cell).map Prod.fst) := .plain rfl .nil
  obtain ⟨x, rfl, hmember, hcall, -, hends⟩ :=
    member_of_memberCode hs (by decide) hname htype hvalue h hstop
  have hcall' : s.is "(" (i + 1 + 1) = true := hcall
  have hlength : 2 ≤ d.getterCode.length := by simp [Dialect.getterCode, memberCode]
  obtain ⟨hkind, -, hparams⟩ := Source.memberAt_of_call hcall'
  exact ⟨_, hmember, ⟨rfl, hkind, hparams, hends⟩,
    not_runsOut_of_call hs hclose hcall' (by omega)⟩

theorem member_of_methodCode (hm : m.IsWellFormed) (h : s.Shows i (d.methodCode m))
    (hstop : i + (d.methodCode m).length ≤ stop) :
    ∃ x, s.member stop i = (some x, i + (d.methodCode m).length) ∧ IsMethodOf d m x ∧
      ¬ s.RunsOut (s.startAt stop) x := by
  have htype : isWord "void" = true := by decide
  obtain ⟨x, rfl, hmember, hcall, hclose', hends⟩ :=
    member_of_memberCode hs (by decide) hm.name htype Dialect.balanced_methodValue h hstop
  have hcall' : s.is "(" (i + 1 + 1) = true := hcall
  have hlength : 2 ≤ (d.methodCode m).length := by simp [Dialect.methodCode, memberCode]
  obtain ⟨hkind, hparams, -⟩ := Source.memberAt_of_call hcall'
  refine ⟨_, hmember, ⟨rfl, ?_, hends⟩, not_runsOut_of_call hs hclose hcall' (by omega)⟩
  -- the first parameter is `out`, and the comment gives its type
  obtain ⟨hfirst, h⟩ := Source.shows_cons_iff.mp h
  obtain ⟨-, h⟩ := Source.shows_cons_iff.mp h
  obtain ⟨-, h⟩ := Source.shows_cons_iff.mp h
  obtain ⟨q, rest, hq, hqname, hqtype⟩ :=
    first_param hs (d.areWords_noted hm) hclose' h.append_left
  obtain ⟨comment, hcomment, htext⟩ := Option.map_eq_some_iff.mp (Source.doc?_of_cell? hfirst)
  obtain ⟨⟨span, hvoid⟩, hlast⟩ := output_of_docText htext hm.type
  refine ⟨span, hkind, rfl, ⟨q, rest, hparams.trans hq, hqname, ?_⟩, comment, hcomment, hvoid,
    hlast⟩
  intro declared hdeclared
  rw [hqtype] at hdeclared
  simp only at hdeclared
  split at hdeclared
  · exact (Option.some.inj hdeclared).symm
  · cases hdeclared

end

/-! ## Classes -/

/-- The class that a specification describes. -/
structure Depicts (d : Dialect) (c : ClassSpec) (k : ClassShape) : Prop where
  name : k.name = c.name
  members : ∃ g ms, k.members = g :: ms ∧ IsGetter d g ∧ List.Forall₂ (IsMethodOf d) c.methods ms
  nested : k.IsNested

theorem forall_mem_of_forall₂ {α β : Type} {R : α → β → Prop} {P : β → Prop} {as : List α}
    {bs : List β} (h : List.Forall₂ R as bs) (himp : ∀ a b, R a b → P b) : ∀ b ∈ bs, P b := by
  induction h with
  | nil => nofun
  | cons hab _ ih =>
    rw [List.forall_mem_cons]
    exact ⟨himp _ _ hab, ih⟩

/-- The code of a class is read as that class. -/
theorem item_of_classCode [Limits] (hs : Source.read t = .ok s) (hc : c.IsWellFormed)
    (h : s.Shows i (d.classCode c)) :
    ∃ k, s.item i = .ok (.classDecl k, i + (d.classCode c).length) ∧ Depicts d c k := by
  obtain ⟨k, close, hplace, hclose, hitem, hdecl, hname, hbody, hmembers⟩ :=
    Source.item_of_class hs h (d.balanced_members c)
  obtain ⟨-, h⟩ := Source.shows_cons_iff.mp h
  obtain ⟨-, h⟩ := Source.shows_cons_iff.mp h
  obtain ⟨-, h⟩ := Source.shows_cons_iff.mp h
  obtain ⟨-, h⟩ := Source.shows_cons_iff.mp h
  have hinner : s.Shows (i + 4) (d.getterCode ++ c.methods.flatMap d.methodCode) := h.append_left
  rw [List.length_append] at hplace
  obtain ⟨g, hgetter, hg, hgends⟩ :=
    member_of_getterCode hs hclose hinner.append_left (by omega)
  have hnonempty : 0 < d.getterCode.length := by simp [Dialect.getterCode, memberCode]
  have hfirst : s.is ";" (i + 4) = false := by
    have hget := (Source.shows_cons_iff.mp hinner.append_left).1
    exact (Source.is_eq_of_cell? hget ";").trans (by decide)
  have hmethods : ∀ m ∈ c.methods, ∀ j, s.Shows j (d.methodCode m) →
      j + (d.methodCode m).length ≤ close → s.is ";" j = false ∧ ∃ x,
        s.member close j = (some x, j + (d.methodCode m).length) ∧
          (IsMethodOf d m x ∧ ¬ s.RunsOut (s.startAt close) x) := by
    intro m hm j hj hstop
    have hstatic := (Source.shows_cons_iff.mp hj).1
    obtain ⟨x, hx, hmethod, hends⟩ := member_of_methodCode hs hclose (hc.methods m hm) hj hstop
    exact ⟨(Source.is_eq_of_cell? hstatic ";").trans (by decide), x, hx, hmethod, hends⟩
  have hnonempty' : ∀ m ∈ c.methods, d.methodCode m ≠ [] := by
    simp [Dialect.methodCode, memberCode]
  obtain ⟨ms, hrest, hms⟩ := Source.membersFrom_of_cells hnonempty' hmethods hinner.append_right
    (by omega)
  have hall : k.members = g :: ms := by
    rw [hmembers, Source.membersFrom_of_member (by omega) hfirst hgetter (by omega), hrest]
  refine ⟨k, ?_, hname, ⟨g, ms, hall, hg, hms.imp fun _ _ h => h.1⟩, ?_⟩
  · rw [hitem, hplace]
    congr 2
    simp [Dialect.classCode]
    omega
  · rw [Source.isNested_classDecl_iff hs hdecl, hall, hbody, List.forall_mem_cons]
    refine ⟨hgends, ?_⟩
    exact forall_mem_of_forall₂ hms fun _ _ h => h.2

/-- The code of classes is read as these classes. -/
theorem itemsFrom_of_classCode [Limits] {rest : List Item} (hs : Source.read t = .ok s)
    (hcs : ∀ c ∈ cs, c.IsWellFormed) (h : s.Shows i (cs.flatMap d.classCode))
    (hrest : s.itemsFrom (i + (cs.flatMap d.classCode).length) = .ok rest) :
    ∃ ks, s.itemsFrom i = .ok (ks.map Item.classDecl ++ rest) ∧
      List.Forall₂ (Depicts d) cs ks := by
  have hnonempty : ∀ c ∈ cs, d.classCode c ≠ [] := by simp [Dialect.classCode]
  have hitem : ∀ c ∈ cs, ∀ j, s.Shows j (d.classCode c) →
      ∃ it, s.item j = .ok (it, j + (d.classCode c).length) ∧
        (∃ k, it = .classDecl k ∧ Depicts d c k) := by
    intro c hc j hj
    obtain ⟨k, hk, hdepicts⟩ := item_of_classCode hs (hcs c hc) hj
    exact ⟨_, hk, k, rfl, hdepicts⟩
  obtain ⟨its, hits, hall⟩ := Source.itemsFrom_of_cells hnonempty hitem h hrest
  have hclasses : ∃ ks, its = ks.map Item.classDecl ∧ List.Forall₂ (Depicts d) cs ks := by
    clear hits hrest h hitem hnonempty hcs
    induction hall with
    | nil => exact ⟨[], rfl, .nil⟩
    | cons hit _ ih =>
      obtain ⟨k, rfl, hk⟩ := hit
      obtain ⟨ks, rfl, hks⟩ := ih
      exact ⟨k :: ks, rfl, .cons hk hks⟩
  obtain ⟨ks, rfl, hks⟩ := hclasses
  exact ⟨ks, hits, hks⟩

theorem classes_of_items {before after : List Item} {ks : List ClassShape}
    (hbefore : before.filterMap Item.class? = []) (hafter : after.filterMap Item.class? = []) :
    Outline.classes ⟨s, before ++ ks.map Item.classDecl ++ after⟩ = ks := by
  have hks : (ks.map Item.classDecl).filterMap Item.class? = ks := by
    rw [List.filterMap_map]
    exact List.filterMap_some
  rw [Outline.classes, List.filterMap_append, List.filterMap_append, hbefore, hafter, hks,
    List.nil_append, List.append_nil]

/-! ## Whole artifacts -/

/-- The declaration of the loader is read as a function. -/
theorem item_of_initCode [Limits] (hs : Source.read t = .ok s) (h : s.Shows i initCode)
    (hsize : s.size = i + initCode.length) :
    ∃ f, s.itemsFrom i = .ok [.function f] ∧ f.name = loaderName := by
  have hsplit : initCode = [Cell.word "export", .word "default", .word "function", .word "init"] ++
      ((Cell.mark "(" :: ([Cell.word "module_or_path", .mark ":", .word "any"] ++
        [Cell.mark ")"])) ++
        [Cell.mark ":", .word "Promise", .mark "<", .word "any", .mark ">", .mark ";"]) := rfl
  have hsize' : s.size = i + 15 := hsize
  have hexport : s.cell? i = some (.word "export") := h 0 _ rfl
  have hdefault : s.cell? (i + 1) = some (.word "default") := h 1 _ rfl
  have hfunction : s.cell? (i + 2) = some (.word "function") := h 2 _ rfl
  have hmodifiers : s.behindModifiers i = i + 2 :=
    Source.behindModifiers_of_export hexport hdefault hfunction (by decide)
  have hmark {k : Nat} {w : String} (hk : s.cell? k = some (.mark w)) : s.is w k = true :=
    (Source.is_eq_of_cell? hk w).trans (by simp)
  have hcall : s.Shows (i + 4) (Cell.mark "(" ::
      ([Cell.word "module_or_path", .mark ":", .word "any"] ++ [Cell.mark ")"])) := by
    rw [hsplit] at h
    exact h.append_right.append_left
  have hclose : s.closer? (i + 4) = some (i + 8) :=
    Source.closer?_eq_some hs hcall (by decide) (.of_plain (by decide))
  have htype : s.behindType (i + 8) = i + 14 :=
    Source.typeNote_of_generic hs (hmark (h 9 _ rfl)) (by decide) (by decide)
      (h 10 (.word "Promise") rfl) (hmark (h 11 _ rfl)) (h 12 (.word "any") rfl)
      (hmark (h 13 _ rfl)) (hmark (h 14 _ rfl)) (by omega)
  have hend : s.is ";" (i + 14) = true := hmark (h 14 _ rfl)
  have hskip : s.skip (i + 14) = i + 15 := Source.skip_of_plain hs (h 14 (.mark ";") rfl) rfl
  obtain ⟨f, hitem, hname, -⟩ := Source.item_of_function hs hmodifiers hfunction (by decide)
    (h 3 (.word "init") rfl) (hmark (h 4 _ rfl)) hclose (by rw [htype]; exact .inr hend)
  rw [htype, hskip] at hitem
  refine ⟨f, Source.itemsFrom_of_item (by omega) hitem (by omega) ?_, hname⟩
  rw [Source.itemsFrom, if_neg (by omega)]

/-- The outline of generated declarations. -/
theorem outline_declarationsText [Limits] (hcs : ∀ c ∈ cs, c.IsWellFormed) :
    ∃ o, outline (declarationsText cs) = .ok o ∧
      List.Forall₂ (Depicts .declared) cs o.classes ∧ (o.function? loaderName).isSome = true := by
  obtain ⟨s, hs, hsize, hshows⟩ := read_declarationsText hcs
  rw [declarationsCode, List.length_append] at hsize
  have hinit := hshows.append_right
  rw [Nat.zero_add] at hinit
  obtain ⟨f, hf, hname⟩ := item_of_initCode hs hinit hsize
  obtain ⟨ks, hitems, hks⟩ := itemsFrom_of_classCode hs hcs hshows.append_left
    (by rw [Nat.zero_add]; exact hf)
  refine ⟨⟨s, ks.map Item.classDecl ++ [Item.function f]⟩, outline_eq_ok_iff.mpr ⟨hs, hitems⟩,
    ?_, ?_⟩
  · have hclasses : Outline.classes ⟨s, [] ++ ks.map Item.classDecl ++ [Item.function f]⟩ = ks :=
      classes_of_items rfl rfl
    rwa [← hclasses] at hks
  · simp [Outline.function?, Outline.functions, List.filterMap_map, Function.comp_def,
      Item.function?, hname]

/-- The statement that exports the loader is read as itself. -/
theorem item_of_exportCode [Limits] (hs : Source.read t = .ok s)
    (h : s.Shows i [.word "export", .word "default", .word loaderName, .mark ";"]) :
    ∃ st, s.item i = .ok (.statement st, i + 4) ∧
      st.words = ["export", "default", loaderName, ";"] := by
  have hexport : s.cell? i = some (.word "export") := h 0 _ rfl
  have hloader : s.cell? (i + 2) = some (.word loaderName) := h 2 _ rfl
  have hmodifiers : s.behindModifiers i = i + 2 :=
    Source.behindModifiers_of_export hexport (h 1 _ rfl) hloader (by decide)
  have hcells : s.Shows i ([Cell.word "export", .word "default", .word loaderName] ++
      [Cell.mark ";"]) := h
  obtain ⟨st, hitem, hwords⟩ :=
    Source.item_of_statement hs hcells (by decide) hmodifiers hloader (by decide)
  exact ⟨st, hitem, hwords⟩

/-- The code of a loader is read as a function with a body, and the statement that exports it. -/
theorem itemsFrom_of_loaderCode [Limits] {params body : List Cell} {isExported : Bool}
    (hs : Source.read t = .ok s) (hparams : Balanced (params.map Prod.fst))
    (hbody : Balanced (body.map Prod.fst)) (h : s.Shows i (loaderCode params body isExported))
    (hsize : s.size = i + (loaderCode params body isExported).length) :
    ∃ f rest, s.itemsFrom i = .ok (.function f :: rest) ∧ f.name = loaderName ∧
      f.body.isSome = true ∧ (rest = [] ∨ ∃ st, rest = [.statement st] ∧
        st.words = ["export", "default", loaderName, ";"]) := by
  have hsplit : loaderCode params body isExported = [Cell.word "function", .word loaderName] ++
      ((Cell.mark "(" :: (params ++ [Cell.mark ")"])) ++
        ((Cell.mark "\x7b" :: (body ++ [Cell.mark "\x7d"])) ++
        if isExported then [Cell.word "export", .word "default", .word loaderName, .mark ";"]
        else [])) := by
    simp [loaderCode]
  have hfunction : s.cell? i = some (.word "function") := h 0 _ rfl
  have hname := h 1 (.word loaderName) rfl
  have hopen := h 2 (.mark "(") rfl
  rw [hsplit] at h hsize
  have hcall : s.is "(" (i + 2) = true := (Source.is_eq_of_cell? hopen "(").trans (by decide)
  have hclose : s.closer? (i + 2) = some (i + 2 + params.length + 1) :=
    Source.closer?_eq_some hs h.append_right.append_left (by decide) hparams
  have hblock := h.append_right.append_right
  have hplace : i + ([.word "function", .word loaderName] : List Cell).length +
      (Cell.mark "(" :: (params ++ [Cell.mark ")"])).length = i + 2 + params.length + 1 + 1 := by
    simp
    omega
  rw [hplace] at hblock
  have hbrace : s.is "\x7b" (i + 2 + params.length + 1 + 1) = true :=
    (Source.is_eq_of_cell? (Source.shows_cons_iff.mp hblock).1 "\x7b").trans (by decide)
  have hclose' := Source.closer?_eq_some hs hblock.append_left (by decide) hbody
  have htype : s.behindType (i + 2 + params.length + 1) = i + 2 + params.length + 1 + 1 := by
    have hcolon : s.is ":" (i + 2 + params.length + 1 + 1) = false :=
      Source.is_eq_false hbrace (by decide)
    rw [Source.behindType, Source.typeNote, hcolon]
    rfl
  have hmodifiers : s.behindModifiers i = i :=
    Source.behindModifiers_of_other (by rw [Source.wordIn_eq_of_cell? hfunction]; decide)
  obtain ⟨f, hitem, hfname, hfbody⟩ := Source.item_of_function hs hmodifiers hfunction
    (by decide) hname hcall hclose (by rw [htype]; exact .inl hbrace)
  rw [htype, Source.skip_of_closer? hs hclose'] at hitem
  rw [htype] at hfbody
  have hexport := hblock.append_right
  have hplace' : i + 2 + params.length + 1 + 1 +
      (Cell.mark "\x7b" :: (body ++ [Cell.mark "\x7d"])).length =
        i + 2 + params.length + 1 + 1 + body.length + 1 + 1 := by
    simp
    omega
  rw [hplace'] at hexport
  have hlast : s.size = i + 2 + params.length + 1 + 1 + body.length + 1 + 1 +
      (if isExported then [.word "export", .word "default", .word loaderName, .mark ";"]
        else [] : List Cell).length := by
    rw [hsize]
    simp
    omega
  cases isExported with
  | false =>
    have hend : s.itemsFrom (i + 2 + params.length + 1 + 1 + body.length + 1 + 1) = .ok [] := by
      rw [Source.itemsFrom, if_neg (by rw [hlast]; simp)]
    exact ⟨f, [],
      Source.itemsFrom_of_item (Source.lt_size_of_cell? hfunction) hitem (by omega) hend, hfname,
      hfbody hbrace, .inl rfl⟩
  | true =>
    obtain ⟨st, hst, hwords⟩ := item_of_exportCode hs hexport
    have hlast' : s.size = i + 2 + params.length + 1 + 1 + body.length + 1 + 1 + 4 := hlast
    have hend : s.itemsFrom (i + 2 + params.length + 1 + 1 + body.length + 1 + 1) =
        .ok [.statement st] := by
      refine Source.itemsFrom_of_item (by omega) hst (by omega) ?_
      rw [Source.itemsFrom, if_neg (by omega)]
    exact ⟨f, _, Source.itemsFrom_of_item (Source.lt_size_of_cell? hfunction) hitem (by omega) hend,
      hfname, hfbody hbrace, .inr ⟨st, rfl, hwords⟩⟩

/-- The outline of generated glue. -/
theorem outline_glueText [Limits] {loader : Text} (hcs : ∀ c ∈ cs, c.IsWellFormed)
    (hloader : IsLoader loader) :
    ∃ o f, outline (glueText cs loader) = .ok o ∧ List.Forall₂ (Depicts .defined) cs o.classes ∧
      o.function? loaderName = some f ∧ f.body.isSome = true ∧
      (o.statementsOf ["export", "default", loaderName, ";"]).length ≤ 1 ∧
      o.names = o.classes.map (·.name) ++ [loaderName, "wasm"] := by
  obtain ⟨s, params, body, isExported, hs, hsize, hshows, hparams, hbody⟩ :=
    read_glueText hcs hloader
  rw [glueCode, List.append_assoc] at hshows hsize
  have hlet : s.Shows 0 ([Cell.word "let", .word "wasm"] ++ [Cell.mark ";"]) := hshows.append_left
  have hmodifiers : s.behindModifiers 0 = 0 :=
    Source.behindModifiers_of_other
      (by rw [Source.wordIn_eq_of_cell? (hlet 0 (.word "let") rfl)]; decide)
  obtain ⟨st, hst, hwords⟩ := Source.item_of_statement hs hlet (by decide) hmodifiers
    (hlet 0 (.word "let") rfl) (by decide)
  have hclasses : s.Shows 3 (cs.flatMap Dialect.defined.classCode) :=
    hshows.append_right.append_left
  have hend : s.Shows (3 + (cs.flatMap Dialect.defined.classCode).length)
      (loaderCode params body isExported) := hshows.append_right.append_right
  have hsize' : s.size = 3 + (cs.flatMap Dialect.defined.classCode).length +
      (loaderCode params body isExported).length := by
    rw [hsize, List.length_append, List.length_append, ← Nat.add_assoc]
    rfl
  obtain ⟨f, rest, hrest, hname, hfbody, hexport⟩ :=
    itemsFrom_of_loaderCode hs hparams hbody hend hsize'
  obtain ⟨ks, hitems, hks⟩ := itemsFrom_of_classCode hs hcs hclasses hrest
  have hall : s.itemsFrom 0 =
      .ok (.statement st :: (ks.map Item.classDecl ++ Item.function f :: rest)) :=
    Source.itemsFrom_of_item (Source.lt_size_of_cell? (hlet 0 (.word "let") rfl)) hst (by simp)
      hitems
  have hrest' : rest.filterMap Item.class? = [] ∧ rest.filterMap Item.function? = [] ∧
      (rest.filterMap Item.statement?).length ≤ 1 ∧
      (rest.filterMap Item.statement?).filterMap Outline.declaredName? = [] := by
    rcases hexport with rfl | ⟨st', rfl, hwords'⟩
    · exact ⟨rfl, rfl, Nat.zero_le 1, rfl⟩
    · refine ⟨rfl, rfl, Nat.le_refl 1, ?_⟩
      simp [Item.statement?, Outline.declaredName?, hwords', Outline.variableWords]
  obtain ⟨hclassesRest, hfunctionsRest, hstatementsRest, hnamesRest⟩ := hrest'
  have hclasses' : Outline.classes
      ⟨s, [Item.statement st] ++ ks.map Item.classDecl ++ Item.function f :: rest⟩ = ks :=
    classes_of_items rfl hclassesRest
  have hfunctions : Outline.functions
      ⟨s, [Item.statement st] ++ ks.map Item.classDecl ++ Item.function f :: rest⟩ = [f] := by
    simp [Outline.functions, List.filterMap_map, List.filterMap_cons, Function.comp_def,
      Item.function?, hfunctionsRest]
  have hstatements : Outline.statements
      ⟨s, [Item.statement st] ++ ks.map Item.classDecl ++ Item.function f :: rest⟩ =
        st :: rest.filterMap Item.statement? := by
    simp [Outline.statements, List.filterMap_map, List.filterMap_cons, Function.comp_def,
      Item.statement?]
  refine ⟨_, f, outline_eq_ok_iff.mpr ⟨hs, hall⟩, by rwa [hclasses'], ?_, hfbody, ?_, ?_⟩
  · rw [Outline.function?, hfunctions]
    simp [hname]
  · rw [Outline.statementsOf, hstatements, List.filter_cons_of_neg (by simp [hwords])]
    exact Nat.le_trans (List.length_filter_le _ _) hstatementsRest
  · rw [Outline.names, hfunctions, hstatements, List.filterMap_cons, hnamesRest]
    simp [Outline.declaredName?, hwords, Outline.variableWords, hname]

end WasmPackage.Bindings
