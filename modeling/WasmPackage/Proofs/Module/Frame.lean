import Mathlib.Data.List.Forall2
import WasmPackage.Proofs.Module.Cuts

/-!
# What stays of a module's text

A module's text loses one span for each node that is cut and nothing else, and the report counts
what was cut.  The cuts never meet, so the text is never refused for them.
-/

namespace WasmPackage.Module

open SExpr Node Text

variable {t edited : Text} {module module' : Node} {ns nodes : List Node} {ps : List Piece}
  {report : Report}

/-! ## Where nodes begin and end -/

theorem readModule_eq_ok_iff :
    readModule t = .ok module ↔ read t = .ok [module] ∧ module.head? = some "module" := by
  unfold readModule
  cases hread : read t with
  | error fault => simp [bind, Except.bind]
  | ok ns =>
    simp only [bind, Except.bind, Except.ok.injEq]
    constructor
    · intro h
      split at h
      · split at h
        case isTrue hword =>
          cases h
          exact ⟨rfl, hword⟩
        case isFalse => cases h
      · cases h
    · rintro ⟨rfl, hword⟩
      simp only [hword, if_true]
      rfl

/-- A module that was read is a list, and its tokens stand in the order of the text. -/
theorem exists_list_of_readModule (h : readModule t = .ok module) :
    ∃ items start stop, module = list items start stop ∧ InOrder (tokens (list items start stop)) ∧
      (list items start stop).head? = some "module" := by
  rcases readModule_eq_ok_iff.mp h with ⟨hread, hword⟩
  rcases read_eq_ok_iff.mp hread with ⟨ps, hps, hks⟩
  have horder := hps.inOrder
  rw [hks] at horder
  cases module with
  | atom a => cases hword
  | list items start stop => exact ⟨items, start, stop, rfl, (inOrder_append.mp horder).1, hword⟩

/-- The parentheses of a list stand in the text. -/
theorem isInkAt_list {items : List Node} {start stop : Nat} (h : Splits 0 t ps)
    (hks : ps.filterMap Piece.token? = tokensOf ns) (hn : list items start stop ∈ walkAll ns) :
    IsInkAt t start ∧ IsInkAt t (stop - 1) := by
  -- a token that is no atom is read from a parenthesis
  have hparen : ∀ k ∈ ps.filterMap Piece.token?, (∀ a, k ≠ .atom a) → IsInkAt t k.start := by
    intro k hk hlist
    rcases List.mem_filterMap.mp hk with ⟨p, hp, hpk⟩
    rcases h.exists_lexes hp with ⟨-, c, r, n, -, -, htext, hlexes⟩
    have hfirst := h.getElem?_text hp (List.length_pos_iff.mpr (h.text_ne_nil hp))
    rw [htext, Nat.add_zero, ← Piece.start_of_token?_eq_some hpk] at hfirst
    refine ⟨c, hfirst.symm, ?_⟩
    rcases p with ⟨kind, pos, text⟩
    cases kind with
    | gap => cases hpk
    | openParen =>
      cases hlexes
      rfl
    | closeParen =>
      cases hlexes
      rfl
    | atom =>
      cases hpk
      exact absurd rfl (hlist _)
  have hsub := (tokens_infix_of_mem_walkAll hn).subset
  rw [← hks] at hsub
  refine ⟨hparen (.opening start) (hsub List.mem_cons_self) ?_,
    hparen (.closing stop) (hsub (by simp [tokens])) ?_⟩
  · intro a ha
    cases ha
  · intro a ha
    cases ha

/-- The nodes that are cut are lists. -/
theorem exists_list_of_mem_cutNodes {items : List Node} {start stop : Nat}
    (h : InOrder (tokens (list items start stop)))
    (hword : (list items start stop).head? = some "module") {n : Node}
    (hn : n ∈ cutNodes (list items start stop)) :
    ∃ items' start' stop', n = list items' start' stop' := by
  have hhead : n.head? ≠ none := by
    rw [cutNodes_eq h hword] at hn
    simp only [List.mem_append, List.mem_filter, isStubItem, isDeadExportItem, Bool.and_eq_true,
      decide_eq_true_eq] at hn
    rcases hn with (⟨-, hhead, -⟩ | ⟨-, hhead, -⟩) | ⟨-, hdead⟩
    · simp [hhead]
    · simp [hhead]
    · simp [head?_of_isDeadBranch hdead]
  cases n with
  | atom a => exact absurd rfl hhead
  | list items' start' stop' => exact ⟨items', start', stop', rfl⟩

/-- What is cut out of a module is cut out of its text in spans that do not meet. -/
theorem cuttable_of_readModule (h : readModule t = .ok module) :
    Cuttable t [module] (cutNodes module) := by
  have hread := (readModule_eq_ok_iff.mp h).1
  rcases read_eq_ok_iff.mp hread with ⟨ps, hps, hks⟩
  rcases exists_list_of_readModule h with ⟨items, start, stop, rfl, horder, hword⟩
  have hroot := mem_walkAll_of_mem (List.mem_singleton.mpr (rfl : list items start stop = _))
  have hbelow : ∀ n ∈ cutNodes (list items start stop), n ∈ walkAll [list items start stop] := by
    intro n hn
    rw [walkAll, walk]
    exact List.mem_append_left _
      (List.mem_cons_of_mem _ (mem_walkAll_of_mem_cutNodes horder hword hn))
  have hgrows : ∀ n ∈ cutNodes (list items start stop),
      GrowsTo t n.start n.stop (t.lineSpan n.start n.stop) := by
    intro n hn
    -- the module's own closing parenthesis stands behind the node
    have hbounds := bounds_of_mem_walkAll_items horder
      (mem_walkAll_of_mem_cutNodes horder hword hn)
    exact growsTo_lineSpan (i := stop - 1) (by omega) (isInkAt_list hps hks hroot).2
  refine ⟨hread, hbelow, hgrows, ?_⟩
  refine (pairwise_cutNodes horder hword).imp_of_mem ?_
  intro n m hn hm hapart
  have hnplace := place_of_mem_walkAll hps hks (hbelow n hn)
  have hmplace := place_of_mem_walkAll hps hks (hbelow m hm)
  rcases exists_list_of_mem_cutNodes horder hword hn with ⟨nitems, nstart, nstop, rfl⟩
  rcases exists_list_of_mem_cutNodes horder hword hm with ⟨mitems, mstart, mstop, rfl⟩
  have hnink := isInkAt_list hps hks (hbelow _ hn)
  have hmink := isInkAt_list hps hks (hbelow _ hm)
  -- lists begin and end in parentheses, so the lines that go with them do not overlap
  rcases hapart with hbefore | hbehind
  · exact Or.inl ((hgrows _ hn).last_le_first (hgrows _ hm) hnplace.1 hbefore hnink.2 hmink.1)
  · exact Or.inr ((hgrows _ hm).last_le_first (hgrows _ hn) hmplace.1 hbehind hmink.2 hnink.1)

/-! ## Cutting -/

/-- The edit that takes a node out of a text. -/
def removal (t : Text) (n : Node) : Edit :=
  ⟨(t.lineSpan n.start n.stop).1, (t.lineSpan n.start n.stop).2, []⟩

/-- Nodes whose spans do not meet are all cut. -/
theorem cutAll_eq_ok {b : Revision} (hin : ∀ n ∈ nodes, n.start < n.stop ∧ n.stop ≤ b.text.length)
    (hgrows : ∀ n ∈ nodes, GrowsTo b.text n.start n.stop (b.text.lineSpan n.start n.stop))
    (hapart : (b.edits.map Edit.span ++ cutSpans b.text nodes).Pairwise Apart) :
    cutAll b nodes = .ok { b with edits := b.edits ++ nodes.map (removal b.text) } := by
  -- on the nodes: the spans recorded so far are apart from those still to come
  induction nodes generalizing b with
  | nil => simp [cutAll, pure, Except.pure]
  | cons n nodes ih =>
    rcases hin n List.mem_cons_self with ⟨hplace, hlength⟩
    have hgrow := hgrows n List.mem_cons_self
    have hfirst := hgrow.first_le
    have hlast := hgrow.le_last
    have hend := hgrow.last_le hlength
    have hnonempty : (b.text.lineSpan n.start n.stop).1 < (b.text.lineSpan n.start n.stop).2 := by
      omega
    have hrecorded : b.deleteLines n.start n.stop =
        .ok { b with edits := b.edits ++ [removal b.text n] } := by
      rw [Revision.deleteLines_eq (by omega) hlength, Revision.replace_eq_ok_iff]
      refine ⟨by omega, ?_, rfl⟩
      intro e he
      rw [Int.toNat_natCast, Int.toNat_natCast, Edit.refusal?_eq_none_iff hnonempty]
      exact (List.pairwise_append.mp hapart).2.2 e.span (List.mem_map_of_mem he) _
        List.mem_cons_self
    have hrest := ih (b := { b with edits := b.edits ++ [removal b.text n] })
      (fun m hm => hin m (List.mem_cons_of_mem _ hm))
      (fun m hm => hgrows m (List.mem_cons_of_mem _ hm))
      (by simpa [cutSpans, removal, Edit.span] using hapart)
    have hstep : cutAll b (n :: nodes) =
        cutAll { b with edits := b.edits ++ [removal b.text n] } nodes := by
      rw [cutAll, List.foldlM_cons, hrecorded]
      rfl
    rw [hstep, hrest]
    simp

/-- What was cut out of a module. -/
def reportOf (module : Node) : Report where
  deadBranches := (deadBranches module ((stubs module).map Prod.fst)).length
  stubs := (stubs module).map Prod.snd
  exports := (stubs module).flatMap (fun f => ownExportNames f.1) ++
    (deadExports module ((stubs module).map Prod.snd)).map Export.name

/-- Nodes whose spans do not meet are all cut, and what is outside the spans is left. -/
theorem exists_cutAll (hcut : Cuttable t ns nodes) :
    ∃ b, cutAll (Revision.ofText t) nodes = .ok b ∧ b.apply = uncut t nodes := by
  rcases read_eq_ok_iff.mp hcut.reads with ⟨ps, hps, hks⟩
  have hplace := fun n hn => place_of_mem_walkAll hps hks (hcut.below n hn)
  have hspans : (cutSpans t nodes).Pairwise Apart := List.pairwise_map.mpr hcut.apart
  have hok := cutAll_eq_ok (b := Revision.ofText t) hplace hcut.grows hspans
  refine ⟨_, hok, ?_⟩
  have hmap : (nodes.map (removal t)).map Edit.span = cutSpans t nodes := by
    rw [List.map_map]
    rfl
  rw [Revision.apply_eq_kept]
  · change t.kept (inSpans ((nodes.map (removal t)).map Edit.span)) = _
    rw [hmap]
    rfl
  · intro e he
    rcases List.mem_map.mp he with ⟨n, hn, rfl⟩
    rcases hplace n hn with ⟨hnonempty, hlength⟩
    have hgrow := hcut.grows n hn
    have hfirst := hgrow.first_le
    have hlast := hgrow.le_last
    have hend := hgrow.last_le hlength
    refine ⟨rfl, ?_, hend⟩
    change (t.lineSpan n.start n.stop).1 < (t.lineSpan n.start n.stop).2
    omega
  · change ((nodes.map (removal t)).map Edit.span).Pairwise Apart
    rw [hmap]
    exact hspans

/-- Pruning the text of a module is reading what is left of it. -/
theorem strip_eq_of_readModule (h : readModule t = .ok module) :
    strip t = match readModule (uncut t (cutNodes module)) with
      | .error fault => .error (.spoiled fault)
      | .ok module' =>
        match danglingReference? module' ((stubs module).map Prod.snd) with
        | some a => .error (.stillReferenced a.value a.start)
        | none => .ok (uncut t (cutNodes module), reportOf module) := by
  rcases exists_cutAll (cuttable_of_readModule h) with ⟨b, hb, happly⟩
  unfold cutNodes at hb
  unfold strip
  rw [h]
  simp only [Except.mapError, bind, Except.bind, hb, happly]
  cases readModule (uncut t (cutNodes module)) with
  | error fault => rfl
  | ok module' =>
    simp only
    cases danglingReference? module' ((stubs module).map Prod.snd) with
    | some a => rfl
    | none => rfl

/-- What is no module is not pruned. -/
theorem strip_eq_of_readModule_error {fault : Fault Malformed} (h : readModule t = .error fault) :
    strip t = .error (.malformed fault) := by
  unfold strip
  rw [h]
  rfl

/-- A text is pruned when it is a module, what is left of it is a module, and nothing in that
refers to a stub. -/
theorem strip_eq_ok_iff :
    strip t = .ok (edited, report) ↔
      ∃ module module', readModule t = .ok module ∧ edited = uncut t (cutNodes module) ∧
        readModule edited = .ok module' ∧
        danglingReference? module' ((stubs module).map Prod.snd) = none ∧
        report = reportOf module := by
  constructor
  · intro hstrip
    cases hread : readModule t with
    | error fault =>
      rw [strip_eq_of_readModule_error hread] at hstrip
      cases hstrip
    | ok module =>
      rw [strip_eq_of_readModule hread] at hstrip
      cases hread' : readModule (uncut t (cutNodes module)) with
      | error fault =>
        rw [hread'] at hstrip
        cases hstrip
      | ok module' =>
        rw [hread'] at hstrip
        cases hdangling : danglingReference? module' ((stubs module).map Prod.snd) with
        | some a =>
          simp only [hdangling] at hstrip
          cases hstrip
        | none =>
          simp only [hdangling] at hstrip
          cases hstrip
          exact ⟨module, module', rfl, rfl, hread', hdangling, rfl⟩
  · rintro ⟨module, module', hread, rfl, hread', hdangling, rfl⟩
    rw [strip_eq_of_readModule hread, hread']
    simp only [hdangling]

/-- The pruned text and what was cut, told from the tree: no edits are sorted. -/
def stripped? (t : Text) : Option (Text × Report) := do
  let module ← (readModule t).toOption
  let module' ← (readModule (uncut t (cutNodes module))).toOption
  match danglingReference? module' ((stubs module).map Prod.snd) with
  | some _ => none
  | none => some (uncut t (cutNodes module), reportOf module)

theorem toOption_strip (t : Text) : (strip t).toOption = stripped? t := by
  unfold stripped?
  cases hread : readModule t with
  | error fault =>
    rw [strip_eq_of_readModule_error hread]
    rfl
  | ok module =>
    rw [strip_eq_of_readModule hread]
    simp only [Except.toOption, Option.bind_eq_bind, Option.bind_some]
    cases readModule (uncut t (cutNodes module)) with
    | error fault => rfl
    | ok module' =>
      simp only [Option.bind_some]
      cases danglingReference? module' ((stubs module).map Prod.snd) with
      | some a => rfl
      | none => rfl

theorem strip_eq_ok_of_stripped? (h : stripped? t = some (edited, report)) :
    strip t = .ok (edited, report) := by
  rw [← toOption_strip] at h
  cases hstrip : strip t with
  | error cause =>
    rw [hstrip] at h
    cases h
  | ok result =>
    rw [hstrip] at h
    cases h
    rfl

/-- The spans that are cut never meet, so no text is refused for them. -/
theorem strip_ne_conflict (refusal : EditError) : strip t ≠ .error (.conflict refusal) := by
  intro hstrip
  cases hread : readModule t with
  | error fault =>
    rw [strip_eq_of_readModule_error hread] at hstrip
    cases hstrip
  | ok module =>
    rw [strip_eq_of_readModule hread] at hstrip
    split at hstrip
    · cases hstrip
    · split at hstrip
      · cases hstrip
      · cases hstrip

/-! ## The frame -/

/-- Stubs, exports and dead bounds checks of a module, all that are to be cut and in the order of
the text. -/
structure AreCuts (module : Node) (stubs : List (Node × String)) (exports : List Export)
    (branches : List Node) : Prop where
  mem_stubs : ∀ func name, (func, name) ∈ stubs ↔ IsStubOf module func name
  mem_exports : ∀ e, e ∈ exports ↔ IsDeadExportOf module e
  mem_branches : ∀ n, n ∈ branches ↔ IsDeadBranchOf module n
  stubs_follow : (stubs.map Prod.fst).Pairwise (fun n m => n.stop ≤ m.start)
  exports_follow : (exports.map Export.node).Pairwise (fun n m => n.stop ≤ m.start)
  branches_follow : branches.Pairwise (fun n m => n.stop ≤ m.start)

/-- A text that was pruned: it has lost one span for each node that was to be cut, which is the
node's own or that of its whole lines, and the report says what is gone. -/
structure IsFramed (t edited : Text) (report : Report) (module : Node)
    (stubs : List (Node × String)) (exports : List Export) (branches : List Node)
    (spans : List (Nat × Nat)) : Prop where
  reads : readModule t = .ok module
  cuts : AreCuts module stubs exports branches
  grows : List.Forall₂ (fun n span => GrowsTo t n.start n.stop span)
    (stubs.map Prod.fst ++ exports.map Export.node ++ branches) spans
  apart : spans.Pairwise Apart
  kept : edited = t.kept (inSpans spans)
  stubs_eq : report.stubs = stubs.map Prod.snd
  exports_eq : report.exports =
    stubs.flatMap (fun f => ownExportNames f.1) ++ exports.map Export.name
  branches_eq : report.deadBranches = branches.length
  changed_iff : report.changed = false ↔ edited = t

theorem areCuts (h : readModule t = .ok module) :
    AreCuts module (stubs module) (deadExports module ((stubs module).map Prod.snd))
      (deadBranches module ((stubs module).map Prod.fst)) := by
  rcases exists_list_of_readModule h with ⟨items, start, stop, rfl, horder, hword⟩
  have hitems := pairwise_items (inOrder_list.mp horder).1
  refine ⟨fun _ _ => mem_stubs_iff, fun _ => mem_deadExports_iff,
    fun _ => mem_deadBranches_iff horder hword, ?_, ?_, pairwise_deadBranches horder hword⟩
  · rw [stubs_map_fst]
    exact hitems.sublist List.filter_sublist
  · rw [deadExports_map_node]
    exact hitems.sublist List.filter_sublist

/-- A report is empty exactly when there was nothing to cut. -/
theorem reportOf_eq_empty_iff : reportOf module = ⟨0, [], []⟩ ↔ cutNodes module = [] := by
  simp only [reportOf, cutNodes, Report.mk.injEq, List.append_eq_nil_iff, List.map_eq_nil_iff,
    List.flatMap_eq_nil_iff, List.length_eq_zero_iff]
  constructor
  · rintro ⟨hbranches, hstubs, -, hexports⟩
    exact ⟨⟨hstubs, hexports⟩, hbranches⟩
  · rintro ⟨⟨hstubs, hexports⟩, hbranches⟩
    refine ⟨hbranches, hstubs, ?_, hexports⟩
    intro f hf
    rw [hstubs] at hf
    cases hf

theorem Report.changed_eq_false_iff : report.changed = false ↔ report = ⟨0, [], []⟩ := by
  rcases report with ⟨deadBranches, stubs, exports⟩
  simp [Report.changed, and_assoc]

/-- Something is gone from a text exactly when there was something to cut. -/
theorem uncut_eq_self_iff (hcut : Cuttable t ns nodes) : uncut t nodes = t ↔ nodes = [] := by
  rw [uncut, kept_eq_self_iff]
  constructor
  · intro h
    by_contra hne
    rcases List.exists_mem_of_ne_nil _ hne with ⟨n, hn⟩
    rcases read_eq_ok_iff.mp hcut.reads with ⟨ps, hps, hks⟩
    rcases place_of_mem_walkAll hps hks (hcut.below n hn) with ⟨hnonempty, hlength⟩
    have hgone : isCut t nodes n.start = true :=
      isCut_of_inSpans hcut
        (inSpans_eq_true_iff.mpr ⟨n.span, List.mem_map_of_mem hn, Nat.le_refl _, hnonempty⟩)
    rw [h n.start (by omega)] at hgone
    cases hgone
  · rintro rfl i _
    rfl

/-- A text that is pruned loses what is to be cut and nothing else, and the report says so. -/
theorem strip_frame (h : strip t = .ok (edited, report)) :
    ∃ module stubs exports branches spans,
      IsFramed t edited report module stubs exports branches spans := by
  rcases strip_eq_ok_iff.mp h with ⟨module, module', hread, rfl, -, -, rfl⟩
  have hcut := cuttable_of_readModule hread
  refine ⟨module, _, _, _, cutSpans t (cutNodes module), hread, areCuts hread, ?_, ?_, rfl, rfl,
    rfl, rfl, ?_⟩
  · rw [cutSpans, List.forall₂_map_right_iff]
    exact List.forall₂_same.mpr hcut.grows
  · exact List.pairwise_map.mpr hcut.apart
  · rw [Report.changed_eq_false_iff, reportOf_eq_empty_iff, uncut_eq_self_iff hcut]

/-- A module with a stub, its export and a dead bounds check. -/
def accessorText : Text :=
  ["(module\n", " (export \"v_elements\" (func $v_elements))\n",
    " (func $v_elements (param i32 i32)\n", "  (unreachable)\n", " )\n", " (func $f (block $l ",
    "(br_if $l (i32.eq (local.tee $1", " (i32.load (local.get $0)))", " (i32.const -1)))", "))\n",
    ")\n"].flatMap String.toList

/-- The module without them. -/
def accessorFreeText : Text :=
  ["(module\n", " (func $f (block $l ", "))\n", ")\n"].flatMap String.toList

theorem strip_accessorText :
    strip accessorText = .ok (accessorFreeText, ⟨1, ["$v_elements"], ["v_elements"]⟩) :=
  strip_eq_ok_of_stripped? (by decide +kernel)

/-- What is cut stands on lines of its own, or in front of a parenthesis. -/
theorem cutsCleanly_accessorText {module : Node} (h : readModule accessorText = .ok module) :
    CutsCleanly accessorText (cutNodes module) := by
  have hclean : (readModule accessorText).toOption.all
      (fun module => decide (CutsCleanly accessorText (cutNodes module))) = true := by
    decide +kernel
  rw [h] at hclean
  simpa [Except.toOption] using hclean

theorem strip_frame_accessorText :
    strip accessorText = .ok (accessorFreeText, ⟨1, ["$v_elements"], ["v_elements"]⟩) ∧
      ∃ module stubs exports branches spans, IsFramed accessorText accessorFreeText
        ⟨1, ["$v_elements"], ["v_elements"]⟩ module stubs exports branches spans :=
  ⟨strip_accessorText, strip_frame strip_accessorText⟩

end WasmPackage.Module
