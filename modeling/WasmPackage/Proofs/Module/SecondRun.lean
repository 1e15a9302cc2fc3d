import WasmPackage.Proofs.Module.Offsets
import WasmPackage.Proofs.Module.TreeLaw

/-!
# Pruning twice

A second run leaves a pruned text alone exactly when nothing is to be cut in it.  Cutting a dead
bounds check can make a match of the form around it, so this is not always so; it is when dead
bounds checks stand only in forms that no pattern speaks of, such as blocks.
-/

namespace WasmPackage.Module

open SExpr Node Text

variable {t once : Text} {module n : Node} {report : Report}

/-- Pruning leaves the text of a module alone exactly when nothing is to be cut in it. -/
theorem strip_eq_self_iff (h : readModule t = .ok module) :
    strip t = .ok (t, ⟨0, [], []⟩) ↔ Settled module := by
  rw [settled_iff]
  constructor
  · intro hstrip
    rcases strip_eq_ok_iff.mp hstrip with ⟨module', -, hread, -, -, -, hreport⟩
    rw [h] at hread
    cases hread
    exact reportOf_eq_empty_iff.mp hreport.symm
  · intro hnone
    have huncut : uncut t (cutNodes module) = t := by
      rw [uncut_eq_self_iff (cuttable_of_readModule h), hnone]
    have hstubs : stubs module = [] := (settled_iff.mpr hnone).stubs
    refine strip_eq_ok_iff.mpr
      ⟨module, module, h, huncut.symm, h, ?_, (reportOf_eq_empty_iff.mpr hnone).symm⟩
    rw [hstubs, danglingReference?, List.find?_eq_none]
    intro a _
    simp

/-- After clean cuts the next run leaves the text alone exactly when nothing is to be cut in the
pruned tree. -/
theorem strip_uncut_eq_self_iff {module' : Node} (hread : readModule t = .ok module)
    (hread' : readModule (uncut t (cutNodes module)) = .ok module')
    (hclean : CutsCleanly t (cutNodes module)) :
    strip (uncut t (cutNodes module)) = .ok (uncut t (cutNodes module), ⟨0, [], []⟩) ↔
      Settled (pruned module) := by
  have hsame := ((keepsTree_iff hread hread').mpr hclean).eq_relocate
  rw [strip_eq_self_iff hread', hsame, settled_relocate_iff]

/-! ## Dead bounds checks in forms that no pattern speaks of -/

/-- The words that the forms begin with of which the patterns speak. -/
def patternWords : List String :=
  ["func", "br_if", "i32.eq", "local.tee", "tee_local", "i32.load", "local.get", "get_local",
    "i32.const", "unreachable"] ++ headerWords

/-- Dead bounds checks stand only in lists that begin with a word of no pattern. -/
def ChecksStandApart (n : Node) : Prop :=
  ∀ m ∈ walk n, m.items.any isDeadBranch = true →
    ∃ word, m.head? = some word ∧ word ∉ patternWords

instance (n : Node) : Decidable (ChecksStandApart n) :=
  decidable_of_iff (∀ m ∈ walk n, m.items.any isDeadBranch = true →
      m.head?.any (· ∉ patternWords) = true) (by
    simp only [ChecksStandApart, Option.any_eq_true, decide_eq_true_eq])

/-- Is this an atom, or a list that begins with a word of a pattern? -/
def IsOfPattern (n : Node) : Prop :=
  n.isList = true → ∃ word ∈ patternWords, n.head? = some word

theorem ChecksStandApart.of_mem_walk {m : Node} (h : ChecksStandApart n) (hm : m ∈ walk n) :
    ChecksStandApart m :=
  fun x hx => h x (mem_walk_trans hm hx)

theorem ChecksStandApart.of_mem_items {m : Node} (h : ChecksStandApart n) (hm : m ∈ n.items) :
    ChecksStandApart m := by
  apply h.of_mem_walk
  rw [walk_eq_cons]
  exact List.mem_cons_of_mem _ (mem_walkAll_of_mem hm)

/-- A list that loses no item keeps them all, pruned. -/
theorem items_prune (h : n.items.any isDeadBranch = false) :
    (prune isDeadBranch n).items = n.items.map (prune isDeadBranch) := by
  cases n with
  | atom a => rfl
  | list items start stop =>
    rw [items_list, List.any_eq_false] at h
    have hall : items.filter (fun m => !isDeadBranch m) = items := by
      rw [List.filter_eq_self]
      intro m hm
      simpa using h m hm
    rw [prune, items_list, pruneAll_eq_map, hall, items_list]

/-- A list begins with the same word when it is pruned. -/
theorem ChecksStandApart.head?_prune (h : ChecksStandApart n) :
    (prune isDeadBranch n).head? = n.head? := by
  rcases n with a | ⟨_ | ⟨first, rest⟩, start, stop⟩
  · rfl
  · rfl
  · cases first with
    | atom a => rfl
    | list items start' stop' =>
      -- a list that loses an item begins with a word, and this one begins with a list
      by_cases hdead : isDeadBranch (list items start' stop') = true
      · rcases h _ (self_mem_walk _) (by simp [hdead]) with ⟨word, hword, -⟩
        cases hword
      · rw [prune, pruneAll, if_neg hdead]
        rfl

/-- A form that a pattern speaks of loses no item. -/
theorem ChecksStandApart.any_items_eq_false (h : ChecksStandApart n) {word : String}
    (hword : n.head? = some word) (hmem : word ∈ patternWords) :
    n.items.any isDeadBranch = false := by
  rw [Bool.eq_false_iff]
  intro hany
  rcases h n n.self_mem_walk hany with ⟨word', hword', hout⟩
  rw [hword, Option.some.injEq] at hword'
  exact hout (hword' ▸ hmem)

mutual

/-- What a pattern speaks of after pruning was there before. -/
theorem prune_eq_self (n : Node) (h : ChecksStandApart n)
    (hpattern : ∀ m ∈ walk (prune isDeadBranch n), IsOfPattern m) :
    prune isDeadBranch n = n := by
  cases n with
  | atom a => rfl
  | list items start stop =>
    rcases hpattern _ (self_mem_walk _) rfl with ⟨word, hmem, hword⟩
    rw [h.head?_prune] at hword
    have hnone := h.any_items_eq_false hword hmem
    rw [items_list, List.any_eq_false] at hnone
    rw [prune, pruneAll_eq_self items (fun m hm => h.of_mem_items hm)
      (fun m hm => by simpa using hnone m hm)
      (fun m hm => hpattern m (List.mem_cons_of_mem _ hm))]

theorem pruneAll_eq_self (ns : List Node) (h : ∀ n ∈ ns, ChecksStandApart n)
    (hnone : ∀ n ∈ ns, isDeadBranch n = false)
    (hpattern : ∀ m ∈ walkAll (pruneAll isDeadBranch ns), IsOfPattern m) :
    pruneAll isDeadBranch ns = ns := by
  cases ns with
  | nil => rfl
  | cons n ns =>
    have hfirst := hnone n List.mem_cons_self
    rw [pruneAll, if_neg (by simp [hfirst]), walkAll] at hpattern
    rw [pruneAll, if_neg (by simp [hfirst]),
      prune_eq_self n (h n List.mem_cons_self)
        (fun m hm => hpattern m (List.mem_append_left _ hm)),
      pruneAll_eq_self ns (fun m hm => h m (List.mem_cons_of_mem _ hm))
        (fun m hm => hnone m (List.mem_cons_of_mem _ hm))
        (fun m hm => hpattern m (List.mem_append_right _ hm))]

end

theorem isOfPattern_atom (a : Atom) : IsOfPattern (.atom a) := by
  intro hlist
  cases hlist

theorem isOfPattern_list {a : Atom} {rest : List Node} {start stop : Nat}
    (h : a.text ∈ patternWords) : IsOfPattern (.list (.atom a :: rest) start stop) := by
  have hplain : ∀ word ∈ patternWords, word.toList.head? ≠ some '"' := by decide
  intro _
  refine ⟨a.text, h, ?_⟩
  simp [head?, Atom.isString, hplain a.text h]

/-- A dead bounds check consists of forms that the pattern speaks of. -/
theorem isOfPattern_of_isDeadBranch (h : isDeadBranch n = true) {m : Node} (hm : m ∈ walk n) :
    IsOfPattern m := by
  unfold isDeadBranch at h
  split at h
  · simp only [Bool.and_eq_true, decide_eq_true_eq, isOneOf, List.contains_iff_mem] at h
    rcases h with ⟨⟨⟨⟨⟨⟨hbranch, hequal⟩, htee⟩, hload⟩, hget⟩, hconst⟩, -⟩
    simp only [walk, walkAll, List.append_nil, List.cons_append, List.nil_append, List.mem_cons,
      List.not_mem_nil, or_false] at hm
    rcases hm with rfl | rfl | rfl | rfl | rfl | rfl | rfl | rfl | rfl | rfl | rfl | rfl | rfl |
      rfl | rfl | rfl
    · exact isOfPattern_list (by simp [hbranch, patternWords])
    · exact isOfPattern_atom _
    · exact isOfPattern_atom _
    · exact isOfPattern_list (by simp [hequal, patternWords])
    · exact isOfPattern_atom _
    · refine isOfPattern_list ?_
      rcases List.mem_pair.mp htee with h | h <;> simp [h, patternWords]
    · exact isOfPattern_atom _
    · exact isOfPattern_atom _
    · exact isOfPattern_list (by simp [hload, patternWords])
    · exact isOfPattern_atom _
    · refine isOfPattern_list ?_
      rcases List.mem_pair.mp hget with h | h <;> simp [h, patternWords]
    · exact isOfPattern_atom _
    · exact isOfPattern_atom _
    · exact isOfPattern_list (by simp [hconst, patternWords])
    · exact isOfPattern_atom _
    · exact isOfPattern_atom _
  · cases h

/-- A standalone export consists of forms that its pattern speaks of. -/
theorem isOfPattern_of_export? {e : Export} (h : export? n = some e)
    (hword : n.head? = some "export") {m : Node} (hm : m ∈ walk n) : IsOfPattern m := by
  unfold export? at h
  split at h
  · next first name word target _ _ _ _ =>
    split at h
    case isFalse => cases h
    case isTrue hfunc =>
      rw [Bool.and_eq_true, decide_eq_true_eq] at hfunc
      cases first with
      | list items start stop => cases hword
      | atom a =>
        have hexport : a.text = "export" := by
          simp only [head?] at hword
          split at hword
          · cases hword
          · exact Option.some.inj hword
        simp only [walk, walkAll, List.append_nil, List.cons_append, List.nil_append,
          List.mem_cons, List.not_mem_nil, or_false] at hm
        rcases hm with rfl | rfl | rfl | rfl | rfl | rfl
        · exact isOfPattern_list (by simp [hexport, patternWords, headerWords])
        · exact isOfPattern_atom _
        · exact isOfPattern_atom _
        · exact isOfPattern_list (by simp [hfunc.2, patternWords])
        · exact isOfPattern_atom _
        · exact isOfPattern_atom _
  · cases h

theorem isOfPattern_of_isUnreachable (h : isUnreachable n = true) {m : Node} (hm : m ∈ walk n) :
    IsOfPattern m := by
  unfold isUnreachable at h
  split at h
  · rcases List.mem_singleton.mp hm with rfl
    exact isOfPattern_atom _
  · rw [decide_eq_true_eq] at h
    simp only [walk, walkAll, List.append_nil, List.mem_cons, List.not_mem_nil, or_false] at hm
    rcases hm with rfl | rfl
    · exact isOfPattern_list (by simp [h, patternWords])
    · exact isOfPattern_atom _
  · cases h

/-! ## Functions that lose dead bounds checks in their blocks -/

@[simp] theorem atom?_prune (n : Node) : (prune isDeadBranch n).atom? = n.atom? := by
  cases n <;> rfl

@[simp] theorem isList_prune (n : Node) : (prune isDeadBranch n).isList = n.isList := by
  cases n <;> rfl

theorem ChecksStandApart.isHeaderItem_prune (h : ChecksStandApart n) :
    isHeaderItem (prune isDeadBranch n) = isHeaderItem n := by
  have hhead := h.head?_prune
  cases n with
  | atom a => rfl
  | list items start stop =>
    exact congrArg (fun word : Option String => word.any headerWords.contains) hhead

theorem takeWhile_map_of_eq {α : Type} {f : α → α} {p : α → Bool} {l : List α}
    (h : ∀ a ∈ l, p (f a) = p a) : (l.map f).takeWhile p = (l.takeWhile p).map f := by
  induction l with
  | nil => rfl
  | cons a l ih =>
    have hrest := ih (fun b hb => h b (List.mem_cons_of_mem _ hb))
    rw [List.map_cons, List.takeWhile_cons, List.takeWhile_cons, h a List.mem_cons_self, hrest]
    split
    · rfl
    · rfl

theorem dropWhile_map_of_eq {α : Type} {f : α → α} {p : α → Bool} {l : List α}
    (h : ∀ a ∈ l, p (f a) = p a) : (l.map f).dropWhile p = (l.dropWhile p).map f := by
  induction l with
  | nil => rfl
  | cons a l ih =>
    have hrest := ih (fun b hb => h b (List.mem_cons_of_mem _ hb))
    rw [List.map_cons, List.dropWhile_cons, List.dropWhile_cons, h a List.mem_cons_self, hrest]
    split
    · rfl
    · rfl

section

variable {func : Node} (h : ChecksStandApart func)
  (hnone : func.items.any isDeadBranch = false)

include h hnone

theorem header_prune :
    header (prune isDeadBranch func) = (header func).map (prune isDeadBranch) := by
  have hitems : ∀ m ∈ func.items.drop 1, isHeaderItem (prune isDeadBranch m) = isHeaderItem m :=
    fun m hm => (h.of_mem_items (List.mem_of_mem_drop hm)).isHeaderItem_prune
  have hlist : (fun n => (prune isDeadBranch n).isList) = isList := funext isList_prune
  rw [header, header, items_prune hnone, ← List.map_drop, takeWhile_map_of_eq hitems,
    List.filter_map, Function.comp_def, hlist]

theorem body_prune : body (prune isDeadBranch func) = (body func).map (prune isDeadBranch) := by
  have hitems : ∀ m ∈ func.items.drop 1, isHeaderItem (prune isDeadBranch m) = isHeaderItem m :=
    fun m hm => (h.of_mem_items (List.mem_of_mem_drop hm)).isHeaderItem_prune
  rw [body, body, items_prune hnone, ← List.map_drop, dropWhile_map_of_eq hitems]

omit h in
theorem functionName?_prune : functionName? (prune isDeadBranch func) = functionName? func := by
  simp only [functionName?, items_prune hnone, List.getElem?_map]
  cases func.items[1]? with
  | none => rfl
  | some second => cases second <;> rfl

omit hnone in
theorem mem_items_of_mem_header {item : Node} (hitem : item ∈ header func) :
    ChecksStandApart item ∧ item.items.any isDeadBranch = false := by
  rcases List.mem_filter.mp hitem with ⟨hbegin, hlist⟩
  have hheader := List.mem_takeWhile_imp hbegin
  have hmem : item ∈ func.items := List.mem_of_mem_drop ((List.takeWhile_sublist _).subset hbegin)
  have hapart := h.of_mem_items hmem
  refine ⟨hapart, ?_⟩
  cases item with
  | atom a => rfl
  | list items start stop =>
    rcases Option.any_eq_true _ _ |>.mp hheader with ⟨word, hword, hcontains⟩
    refine hapart.any_items_eq_false hword (List.mem_append_right _ ?_)
    exact List.contains_iff_mem.mp hcontains

theorem typesOfParameter_prune :
    typesOfParameter (prune isDeadBranch func) = typesOfParameter func := by
  rw [typesOfParameter, typesOfParameter, header_prune h hnone, List.flatMap_map]
  apply List.flatMap_congr
  intro item hitem
  rcases mem_items_of_mem_header h hitem with ⟨hapart, hkeeps⟩
  have hatoms : (fun n => (prune isDeadBranch n).atom?) = atom? := funext atom?_prune
  rw [hapart.head?_prune, items_prune hkeeps, ← List.map_drop, List.filterMap_map,
    Function.comp_def, hatoms]

theorem ownExportNames_prune :
    ownExportNames (prune isDeadBranch func) = ownExportNames func := by
  change (header (prune isDeadBranch func)).filterMap ownExportName? =
    (header func).filterMap ownExportName?
  rw [header_prune h hnone, List.filterMap_map]
  apply List.filterMap_congr
  intro item hitem
  rcases mem_items_of_mem_header h hitem with ⟨-, hkeeps⟩
  have hitems := items_prune hkeeps
  rw [Function.comp_apply]
  rcases item with a | ⟨_ | ⟨first, _ | ⟨second, _ | ⟨third, rest⟩⟩⟩, start, stop⟩
  · rfl
  · rfl
  · rw [prune, show pruneAll isDeadBranch [first] = _ from hitems]
    cases first <;> rfl
  · rw [prune, show pruneAll isDeadBranch [first, second] = _ from hitems]
    cases first <;> cases second <;> rfl
  · rw [prune, show pruneAll isDeadBranch (first :: second :: third :: rest) = _ from hitems]
    cases first <;> cases second <;> rfl

end

/-- An item that ends a pruned body in a trap is that of the body. -/
theorem ChecksStandApart.isUnreachable_of_prune (h : ChecksStandApart n)
    (htrap : isUnreachable (prune isDeadBranch n) = true) : isUnreachable n = true := by
  have hsame := prune_eq_self n h (fun m hm => isOfPattern_of_isUnreachable htrap hm)
  rwa [hsame] at htrap

/-! ## Pruned modules in which nothing is to be cut -/

section

variable {items : List Node} {start stop : Nat}
  (h : ChecksStandApart (list items start stop))

/-- The items of a pruned module are items of the module that stay, pruned. -/
theorem mem_items_pruned {m : Node} (hm : m ∈ (pruned (list items start stop)).items) :
    ∃ n ∈ items, isRemoved (list items start stop) n = false ∧ m = prune isDeadBranch n := by
  rw [pruned, items_list, pruneAll_eq_map] at hm
  rcases List.mem_map.mp hm with ⟨n, hn, rfl⟩
  rcases List.mem_filter.mp (List.mem_of_mem_filter hn) with ⟨hitem, hstays⟩
  exact ⟨n, hitem, by simpa using hstays, rfl⟩

include h

/-- The exports of a pruned module are exports of the module that stay. -/
theorem mem_exports_pruned {e : Export} (he : e ∈ exports (pruned (list items start stop))) :
    e ∈ exports (list items start stop) ∧ isRemoved (list items start stop) e.node = false := by
  rw [exports, List.mem_filterMap] at he
  rcases he with ⟨m, hm, hexport⟩
  rcases mem_children_iff.mp hm with ⟨hitem, hword⟩
  rcases mem_items_pruned hitem with ⟨n, hn, hstays, rfl⟩
  have hsame := prune_eq_self n (h.of_mem_items hn)
    (fun m hm => isOfPattern_of_export? hexport hword hm)
  rw [hsame] at hexport hword
  rw [node_of_export?_eq_some hexport]
  refine ⟨?_, hstays⟩
  rw [exports, List.mem_filterMap]
  exact ⟨n, mem_children_iff.mpr ⟨hn, hword⟩, hexport⟩

/-- A stub of the pruned module was a stub of the module. -/
theorem isStubOf_of_pruned {func : Node} {name : String}
    (hfunc : IsStubOf (pruned (list items start stop)) func name) :
    ∃ n ∈ items, isRemoved (list items start stop) n = false ∧
      IsStubOf (list items start stop) n name := by
  rcases mem_items_pruned hfunc.item with ⟨n, hn, hstays, rfl⟩
  have hapart := h.of_mem_items hn
  have hword := hfunc.word
  rw [hapart.head?_prune] at hword
  have hnone := hapart.any_items_eq_false hword (by simp [patternWords])
  -- the name, the parameters and the header keep their items, so they say the same
  refine ⟨n, hn, hstays, hn, hword, ?_, ?_, ?_, ?_, ?_⟩
  · rw [← functionName?_prune hnone]
    exact hfunc.named
  · rcases hfunc.accessor with hown | ⟨e, he, htarget, hsuffix⟩ | hown
    · exact Or.inl hown
    · exact Or.inr (Or.inl ⟨e, (mem_exports_pruned h he).1, htarget, hsuffix⟩)
    · rw [ownExportNames_prune hapart hnone] at hown
      exact Or.inr (Or.inr hown)
  · rw [← typesOfParameter_prune hapart hnone]
    exact hfunc.parameters
  · intro item hitem
    have hpruned := hfunc.noResult (prune isDeadBranch item)
    rw [header_prune hapart hnone, (mem_items_of_mem_header hapart hitem).1.head?_prune] at hpruned
    exact hpruned (List.mem_map_of_mem hitem)
  · rcases hfunc.traps with ⟨last, hlast, htrap⟩
    rw [body_prune hapart hnone, List.getLast?_map] at hlast
    rcases Option.map_eq_some_iff.mp hlast with ⟨last', hlast', rfl⟩
    refine ⟨last', hlast', ?_⟩
    have hmem : last' ∈ n.items := List.mem_of_mem_drop
      ((List.dropWhile_sublist _).subset (List.mem_of_getLast? hlast'))
    exact (hapart.of_mem_items hmem).isUnreachable_of_prune htrap

end

/-- A pruned module begins as the module does. -/
theorem head?_pruned (hword : module.head? = some "module") :
    (pruned module).head? = some "module" := by
  rcases module with a | ⟨_ | ⟨a | ⟨items, start, stop⟩, rest⟩, start', stop'⟩
  · cases hword
  · cases hword
  · exact hword
  · cases hword

/-- Where dead bounds checks stand apart, nothing is to be cut in the pruned module. -/
theorem settled_pruned (h : ChecksStandApart module) (hword : module.head? = some "module") :
    Settled (pruned module) := by
  have hroot := head?_pruned hword
  cases module with
  | atom a => cases hword
  | list items start stop =>
  -- stubs and exports that are left were there before, and would have been removed
  refine ⟨?_, ?_, ?_⟩
  · rw [List.eq_nil_iff_forall_not_mem]
    rintro ⟨func, name⟩ hfunc
    rcases isStubOf_of_pruned h (mem_stubs_iff.mp hfunc) with ⟨n, hn, hstays, hstub⟩
    rw [(isRemoved_iff hn).mpr (Or.inl ⟨name, hstub⟩)] at hstays
    cases hstays
  · rw [List.eq_nil_iff_forall_not_mem]
    intro e he
    rcases List.mem_filter.mp he with ⟨hexport, hdead⟩
    rcases mem_exports_pruned h hexport with ⟨hexport', hstays⟩
    have hdead' : IsDeadExportOf (list items start stop) e := by
      rw [← mem_deadExports_iff, deadExports, List.mem_filter]
      refine ⟨hexport', ?_⟩
      rw [Bool.or_eq_true] at hdead ⊢
      rcases hdead with hsuffix | hnone
      · exact Or.inl hsuffix
      · cases hnone
    rw [(isRemoved_iff hdead'.item).mpr (Or.inr ⟨e, rfl, hdead'⟩)] at hstays
    cases hstays
  · intro n hn
    rw [Bool.eq_false_iff]
    intro hdead
    rcases List.mem_cons.mp hn with rfl | hn
    · have hmodule := isDeadBranch_eq_false_of_module hroot
      rw [pruned, hdead] at hmodule
      cases hmodule
    · rcases mem_walkAll_pruneAll hn with ⟨m, hm, halive, rfl⟩
      have hbelow : m ∈ walk (list items start stop) := by
        rcases mem_walkAll_iff.mp hm with ⟨i, hi, hmi⟩
        exact List.mem_cons_of_mem _ (mem_walkAll_iff.mpr ⟨i, List.mem_of_mem_filter hi, hmi⟩)
      -- a check that is left consists of forms that lost nothing, so it was one before
      have hsame := prune_eq_self m (h.of_mem_walk hbelow)
        (fun x hx => isOfPattern_of_isDeadBranch hdead hx)
      rw [hsame, halive] at hdead
      cases hdead

theorem checksStandApart_accessorText {module : Node} (h : readModule accessorText = .ok module) :
    ChecksStandApart module := by
  have hapart : (readModule accessorText).toOption.all
      (fun module => decide (ChecksStandApart module)) = true := by decide +kernel
  rw [h] at hapart
  simpa [Except.toOption] using hapart

/-! ## The second run -/

/-- After clean cuts, a second run leaves a text alone whose dead bounds checks stand apart. -/
theorem strip_again_of_checksStandApart (h : strip t = .ok (once, report))
    (hread : readModule t = .ok module) (hclean : CutsCleanly t (cutNodes module))
    (hapart : ChecksStandApart module) : strip once = .ok (once, ⟨0, [], []⟩) := by
  rcases strip_eq_ok_iff.mp h with ⟨module₀, module', hread₀, rfl, hread', -, -⟩
  rw [hread] at hread₀
  cases hread₀
  rw [strip_uncut_eq_self_iff hread hread' hclean]
  exact settled_pruned hapart (readModule_eq_ok_iff.mp hread).2

/-- A second run leaves a pruned text alone exactly when nothing is to be cut in the tree that it
reads; after clean cuts that is, exactly when nothing is to be cut in the pruned tree, and so it is
where dead bounds checks stand apart. -/
theorem strip_again_iff (h : strip t = .ok (once, report)) :
    ∃ module module', readModule t = .ok module ∧ readModule once = .ok module' ∧
      (strip once = .ok (once, ⟨0, [], []⟩) ↔ Settled module') ∧
      (CutsCleanly t (cutNodes module) →
        (strip once = .ok (once, ⟨0, [], []⟩) ↔ Settled (pruned module)) ∧
        (ChecksStandApart module → strip once = .ok (once, ⟨0, [], []⟩))) := by
  rcases strip_eq_ok_iff.mp h with ⟨module, module', hread, rfl, hread', -, -⟩
  refine ⟨module, module', hread, hread', strip_eq_self_iff hread', ?_⟩
  intro hclean
  exact ⟨strip_uncut_eq_self_iff hread hread' hclean,
    strip_again_of_checksStandApart h hread hclean⟩

theorem strip_again_iff_accessorText :
    strip accessorText = .ok (accessorFreeText, ⟨1, ["$v_elements"], ["v_elements"]⟩) ∧
      ∃ module module', readModule accessorText = .ok module ∧
        readModule accessorFreeText = .ok module' ∧
        CutsCleanly accessorText (cutNodes module) ∧ ChecksStandApart module ∧
        Settled (pruned module) ∧ Settled module' ∧
        strip accessorFreeText = .ok (accessorFreeText, ⟨0, [], []⟩) := by
  obtain ⟨module, module', hread, hread', hsettled, hagain⟩ := strip_again_iff strip_accessorText
  have hclean := cutsCleanly_accessorText hread
  have hapart := checksStandApart_accessorText hread
  obtain ⟨hpruned, hsame⟩ := hagain hclean
  exact ⟨strip_accessorText, module, module', hread, hread', hclean, hapart,
    hpruned.mp (hsame hapart), hsettled.mp (hsame hapart), hsame hapart⟩

/-- A dead bounds check in a form that is one itself without it. -/
def nestedText : Text :=
  ["(module (func $f (param $0 i32) (local $1 i32) (block $l ", "(br_if $l ",
    "(br_if $l (i32.eq (local.tee $1", " (i32.load (local.get $0)))", " (i32.const -1)))",
    " (i32.eq (local.tee $1", " (i32.load (local.get $0)))", " (i32.const -1)))",
    ")))"].flatMap String.toList

/-- The text after one run. -/
def nestedTextOnce : Text :=
  ["(module (func $f (param $0 i32) (local $1 i32) (block $l ", "(br_if $l ",
    " (i32.eq (local.tee $1", " (i32.load (local.get $0)))", " (i32.const -1)))",
    ")))"].flatMap String.toList

/-- The text after two runs. -/
def nestedTextTwice : Text :=
  ["(module (func $f (param $0 i32) (local $1 i32) (block $l ", ")))"].flatMap String.toList

/-- Cutting the inner one makes a dead bounds check of the form around it, which the second run
cuts. -/
theorem strip_again_nestedText :
    strip nestedText = .ok (nestedTextOnce, ⟨1, [], []⟩) ∧
      strip nestedTextOnce = .ok (nestedTextTwice, ⟨1, [], []⟩) :=
  ⟨strip_eq_ok_of_stripped? (by decide +kernel), strip_eq_ok_of_stripped? (by decide +kernel)⟩

end WasmPackage.Module
