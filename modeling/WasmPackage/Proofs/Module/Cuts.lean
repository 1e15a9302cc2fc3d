import WasmPackage.Module.Strip
import WasmPackage.Proofs.SExpr.Cutting

/-!
# What is cut out of a module

The stubs and their exports are items of the module, the dead bounds checks lie below the items that
stay, and none of them lies in another.  What is left is the pruned tree.
-/

namespace WasmPackage.Module

open SExpr Node

/-- A function that is a stub of the module: an element accessor by its name or by a name that it
is exported as, that takes two integers, gives nothing and ends in a trap. -/
structure IsStubOf (module func : Node) (name : String) : Prop where
  item : func ∈ module.items
  word : func.head? = some "func"
  named : functionName? func = some name
  accessor : hasStubSuffix name = true ∨
    (∃ e ∈ exports module, e.target = name ∧ hasStubSuffix e.name = true) ∨
    ∃ own ∈ ownExportNames func, hasStubSuffix own = true
  parameters : typesOfParameter func = ["i32", "i32"]
  noResult : ∀ item ∈ header func, item.head? ≠ some "result" ∧ item.head? ≠ some "import"
  traps : ∃ last, (body func).getLast? = some last ∧ isUnreachable last = true

/-- An export that goes: a standalone export of a function, of an accessor by its name or of a
stub. -/
structure IsDeadExportOf (module : Node) (e : Export) : Prop where
  item : e.node ∈ module.items
  word : e.node.head? = some "export"
  shape : export? e.node = some e
  dead : hasStubSuffix e.name = true ∨ ∃ func, IsStubOf module func e.target

/-- A dead bounds check of the module that lies in none of its stubs. -/
structure IsDeadBranchOf (module n : Node) : Prop where
  below : n ∈ module.walk
  shape : isDeadBranch n = true
  outside : ∀ func name, IsStubOf module func name → n ∉ func.walk

/-- The name of a function that is a stub of the module. -/
def stubName? (module func : Node) : Option String := do
  let name ← functionName? func
  let names := ((exports module).filter (fun e => e.target = name)).map Export.name
  if isStub func names then some name else none

/-- Is this item of the module a stub? -/
def isStubItem (module n : Node) : Bool :=
  n.head? = some "func" && (stubName? module n).isSome

/-- Is this item of the module an export that goes: that of an accessor, or of a stub? -/
def isDeadExportItem (module n : Node) : Bool :=
  n.head? = some "export" && (export? n).any fun e =>
    hasStubSuffix e.name || ((stubs module).map Prod.snd).contains e.target

/-- Does this item of the module go as a whole? -/
def isRemoved (module n : Node) : Bool :=
  isStubItem module n || isDeadExportItem module n

/-- The nodes that are cut out of a module, in the order in which they are cut. -/
def cutNodes (module : Node) : List Node :=
  (stubs module).map Prod.fst ++
    (deadExports module ((stubs module).map Prod.snd)).map Export.node ++
    deadBranches module ((stubs module).map Prod.fst)

/-- The module without its stubs, their exports, and the dead bounds checks in what stays. -/
def pruned (module : Node) : Node :=
  match module with
  | .atom a => .atom a
  | .list items start stop =>
    .list (pruneAll isDeadBranch (items.filter (fun n => !isRemoved module n))) start stop

variable {module func n : Node} {name : String}

/-! ## Stubs and exports -/

theorem stubName?_eq_some_iff :
    stubName? module func = some name ↔ functionName? func = some name ∧
      isStub func (((exports module).filter (fun e => e.target = name)).map Export.name) =
        true := by
  unfold stubName?
  cases functionName? func with
  | none => simp
  | some found =>
    simp only [Option.bind_eq_bind, Option.bind_some, Option.some.injEq]
    constructor
    · intro h
      split at h
      case isTrue hstub =>
        cases h
        exact ⟨rfl, hstub⟩
      case isFalse => cases h
    · rintro ⟨rfl, hstub⟩
      rw [if_pos hstub]

theorem stubs_eq (module : Node) :
    stubs module = (module.children "func").filterMap
      (fun func => (stubName? module func).map (fun name => (func, name))) := by
  apply List.filterMap_congr
  intro func _
  unfold stubName?
  cases functionName? func with
  | none => rfl
  | some name =>
    simp only [Option.bind_eq_bind, Option.bind_some]
    split <;> rfl

theorem mem_children_iff {head : String} :
    n ∈ module.children head ↔ n ∈ module.items ∧ n.head? = some head := by
  simp [children]

theorem mem_stubs : (func, name) ∈ stubs module ↔
    (func ∈ module.items ∧ func.head? = some "func") ∧ stubName? module func = some name := by
  rw [stubs_eq, List.mem_filterMap, ← mem_children_iff]
  constructor
  · rintro ⟨found, hfound, hname⟩
    rcases Option.map_eq_some_iff.mp hname with ⟨name', hname', heq⟩
    cases heq
    exact ⟨hfound, hname'⟩
  · rintro ⟨hfunc, hname⟩
    exact ⟨func, hfunc, by rw [hname]; rfl⟩

/-- The stubs of a module are the functions that are meant. -/
theorem mem_stubs_iff : (func, name) ∈ stubs module ↔ IsStubOf module func name := by
  rw [mem_stubs, stubName?_eq_some_iff]
  constructor
  · rintro ⟨⟨hitem, hword⟩, hnamed, hstub⟩
    simp only [isStub, Bool.and_eq_true, Bool.or_eq_true, hnamed, Option.getD_some,
      decide_eq_true_eq, Bool.not_eq_true', Option.any_eq_true, List.any_eq_true, List.any_eq_false,
      List.mem_map, List.mem_filter] at hstub
    rcases hstub with ⟨⟨⟨haccessor, hheader⟩, hparameters⟩, htraps⟩
    refine ⟨hitem, hword, hnamed, ?_, hparameters, ?_, htraps⟩
    · rcases haccessor with (hown | ⟨_, ⟨e, ⟨he, htarget⟩, rfl⟩, hexport⟩) | ⟨own, hown, hsuffix⟩
      · exact Or.inl hown
      · exact Or.inr (Or.inl ⟨e, he, htarget, hexport⟩)
      · exact Or.inr (Or.inr ⟨own, hown, hsuffix⟩)
    · intro item hmem
      have := hheader item hmem
      simpa using this
  · rintro ⟨hitem, hword, hnamed, haccessor, hparameters, hheader, htraps⟩
    refine ⟨⟨hitem, hword⟩, hnamed, ?_⟩
    simp only [isStub, Bool.and_eq_true, Bool.or_eq_true, hnamed, Option.getD_some,
      decide_eq_true_eq, Bool.not_eq_true', Option.any_eq_true, List.any_eq_true, List.any_eq_false,
      List.mem_map, List.mem_filter]
    refine ⟨⟨⟨?_, ?_⟩, hparameters⟩, htraps⟩
    · rcases haccessor with hown | ⟨e, he, htarget, hexport⟩ | ⟨own, hown, hsuffix⟩
      · exact Or.inl (Or.inl hown)
      · exact Or.inl (Or.inr ⟨e.name, ⟨e, ⟨he, htarget⟩, rfl⟩, hexport⟩)
      · exact Or.inr ⟨own, hown, hsuffix⟩
    · intro item hmem
      have := hheader item hmem
      simpa using this

/-- Picking members by what they give, and taking them themselves. -/
theorem map_filterMap_eq_filter {α β : Type} {f : α → Option β} {g : β → α} {l : List α}
    (h : ∀ a ∈ l, ∀ b, f a = some b → g b = a) :
    (l.filterMap f).map g = l.filter (fun a => (f a).isSome) := by
  induction l with
  | nil => rfl
  | cons a l ih =>
    have hrest := ih (fun b hb => h b (List.mem_cons_of_mem _ hb))
    cases hf : f a with
    | none => rw [List.filterMap_cons_none hf, List.filter_cons_of_neg (by simp [hf]), hrest]
    | some b =>
      rw [List.filterMap_cons_some hf, List.filter_cons_of_pos (by simp [hf]), List.map_cons,
        hrest, h a List.mem_cons_self b hf]

/-- The stubs are items of the module, in its order. -/
theorem stubs_map_fst (module : Node) :
    (stubs module).map Prod.fst = module.items.filter (isStubItem module) := by
  rw [stubs_eq, map_filterMap_eq_filter, children, List.filter_filter]
  · apply List.filter_congr
    intro n _
    simp [isStubItem, Bool.and_comm]
  · intro func _ found hfound
    rcases Option.map_eq_some_iff.mp hfound with ⟨name, -, rfl⟩
    rfl

theorem node_of_export?_eq_some {e : Export} (h : export? n = some e) : e.node = n := by
  unfold export? at h
  split at h
  · split at h
    · cases h
      rfl
    · cases h
  · cases h

/-- The exports that go are items of the module, in its order. -/
theorem deadExports_map_node (module : Node) :
    (deadExports module ((stubs module).map Prod.snd)).map Export.node =
      module.items.filter (isDeadExportItem module) := by
  rw [deadExports, exports, List.filter_filterMap, map_filterMap_eq_filter, children,
    List.filter_filter]
  · apply List.filter_congr
    intro n _
    rw [isDeadExportItem, Bool.and_comm]
    congr 1
    cases export? n <;> simp
  · intro n _ e he
    rcases Option.filter_eq_some_iff.mp he with ⟨hexport, -⟩
    exact node_of_export?_eq_some hexport

theorem contains_stubNames_iff :
    ((stubs module).map Prod.snd).contains name = true ↔ ∃ func, IsStubOf module func name := by
  rw [List.contains_iff_mem, List.mem_map]
  constructor
  · rintro ⟨⟨func, name'⟩, hstub, rfl⟩
    exact ⟨func, mem_stubs_iff.mp hstub⟩
  · rintro ⟨func, hstub⟩
    exact ⟨(func, name), mem_stubs_iff.mpr hstub, rfl⟩

/-- The exports that go are those that are meant. -/
theorem mem_deadExports_iff {e : Export} :
    e ∈ deadExports module ((stubs module).map Prod.snd) ↔ IsDeadExportOf module e := by
  rw [deadExports, List.mem_filter, exports, List.mem_filterMap, Bool.or_eq_true,
    contains_stubNames_iff]
  constructor
  · rintro ⟨⟨n, hn, he⟩, hdead⟩
    rcases mem_children_iff.mp hn with ⟨hitem, hword⟩
    have hnode := node_of_export?_eq_some he
    subst hnode
    exact ⟨hitem, hword, he, hdead⟩
  · rintro ⟨hitem, hword, he, hdead⟩
    exact ⟨⟨e.node, mem_children_iff.mpr ⟨hitem, hword⟩, he⟩, hdead⟩

theorem isStubItem_iff (hn : n ∈ module.items) :
    isStubItem module n = true ↔ ∃ name, IsStubOf module n name := by
  simp only [isStubItem, Bool.and_eq_true, decide_eq_true_eq, Option.isSome_iff_exists,
    ← mem_stubs_iff, mem_stubs, hn, true_and, exists_and_left]

theorem isDeadExportItem_iff (hn : n ∈ module.items) :
    isDeadExportItem module n = true ↔ ∃ e, e.node = n ∧ IsDeadExportOf module e := by
  simp only [isDeadExportItem, Bool.and_eq_true, decide_eq_true_eq, Option.any_eq_true,
    Bool.or_eq_true, contains_stubNames_iff]
  constructor
  · rintro ⟨hword, e, he, hdead⟩
    have hnode := node_of_export?_eq_some he
    subst hnode
    exact ⟨e, rfl, hn, hword, he, hdead⟩
  · rintro ⟨e, rfl, -, hword, he, hdead⟩
    exact ⟨hword, e, he, hdead⟩

/-- An item goes as a whole when it is a stub or an export that goes. -/
theorem isRemoved_iff (hn : n ∈ module.items) :
    isRemoved module n = true ↔
      (∃ name, IsStubOf module n name) ∨ ∃ e, e.node = n ∧ IsDeadExportOf module e := by
  rw [isRemoved, Bool.or_eq_true, isStubItem_iff hn, isDeadExportItem_iff hn]

/-! ## Dead bounds checks -/

/-- A dead bounds check is a list that begins with its instruction, and none lies in it. -/
theorem head?_of_isDeadBranch (h : isDeadBranch n = true) : n.head? = some "br_if" := by
  unfold isDeadBranch at h
  split at h
  · simp only [Bool.and_eq_true, decide_eq_true_eq] at h
    rcases h with ⟨⟨⟨⟨⟨⟨hword, -⟩, -⟩, -⟩, -⟩, -⟩, -⟩
    simp [head?, Atom.isString, hword]
  · cases h

theorem not_isDeadBranch_of_mem_items (h : isDeadBranch n = true) {m : Node}
    (hm : m ∈ walkAll n.items) : isDeadBranch m = false := by
  unfold isDeadBranch at h
  split at h
  · simp only [items_list, walkAll, walk, List.append_nil, List.cons_append, List.nil_append,
      List.mem_cons, List.not_mem_nil, or_false] at hm
    rcases hm with rfl | rfl | rfl | rfl | rfl | rfl | rfl | rfl | rfl | rfl | rfl | rfl | rfl |
      rfl | rfl
    all_goals rfl
  · cases h

/-- No dead bounds check lies in an export. -/
theorem not_isDeadBranch_of_export? {e : Export} (h : export? n = some e)
    (hword : n.head? = some "export") {m : Node} (hm : m ∈ walk n) : isDeadBranch m = false := by
  unfold export? at h
  split at h
  · next first name word target _ _ _ _ =>
    cases first with
    | atom a =>
      simp only [walk, walkAll, List.append_nil, List.cons_append, List.nil_append, List.mem_cons,
        List.not_mem_nil, or_false] at hm
      rcases hm with rfl | rfl | rfl | rfl | rfl | rfl <;> rfl
    | list items start stop => cases hword
  · cases h

/-- Filtering the nodes of a forest, when nothing is to be found in some of its trees. -/
theorem filter_walkAll {P Q drop : Node → Bool} {ns : List Node}
    (hdropped : ∀ n ∈ ns, drop n = true → ∀ m ∈ walk n, P m = false)
    (hkept : ∀ n ∈ ns, drop n = false → ∀ m ∈ walk n, P m = Q m) :
    (walkAll ns).filter P = (walkAll (ns.filter (fun n => !drop n))).filter Q := by
  induction ns with
  | nil => rfl
  | cons n ns ih =>
    have hrest := ih (fun m hm => hdropped m (List.mem_cons_of_mem _ hm))
      (fun m hm => hkept m (List.mem_cons_of_mem _ hm))
    rw [walkAll, List.filter_append, hrest]
    cases hdrop : drop n with
    | true =>
      have hnone : (walk n).filter P = [] := by
        rw [List.filter_eq_nil_iff]
        intro m hm
        simp [hdropped n List.mem_cons_self hdrop m hm]
      rw [hnone, List.filter_cons_of_neg (by simp [hdrop]), List.nil_append]
    | false =>
      have hsame : (walk n).filter P = (walk n).filter Q :=
        List.filter_congr (hkept n List.mem_cons_self hdrop)
      rw [hsame, List.filter_cons_of_pos (by simp [hdrop]), walkAll, List.filter_append]

/-- Items of a list stand in its order. -/
theorem pairwise_items {items : List Node} (h : InOrder (tokensOf items)) :
    items.Pairwise (fun n m => n.stop ≤ m.start) := by
  induction items with
  | nil => exact List.Pairwise.nil
  | cons n ns ih =>
    refine List.pairwise_cons.mpr ⟨?_, ih (inOrder_append.mp h).2.1⟩
    intro m hm
    exact stop_le_start_of_mem_walk h n.self_mem_walk (mem_walkAll_of_mem hm)

/-- A node below an item of a list lies in the item. -/
theorem bounds_of_mem_walk_item {items : List Node} (h : InOrder (tokensOf items)) {i : Node}
    (hi : i ∈ items) (hn : n ∈ walk i) :
    i.start ≤ n.start ∧ n.start < n.stop ∧ n.stop ≤ i.stop := by
  have hbounds := bounds_of_mem_walk (inOrder_of_mem_walkAll h (mem_walkAll_of_mem hi)) hn
  have hspan := start_lt_stop (inOrder_of_mem_walkAll h (mem_walkAll_iff.mpr ⟨i, hi, hn⟩))
  omega

/-- A node lies below one item of a list at most. -/
theorem eq_of_mem_walk_items {items : List Node} (h : InOrder (tokensOf items)) {i j : Node}
    (hi : i ∈ items) (hj : j ∈ items) (hni : n ∈ walk i) (hnj : n ∈ walk j) : i = j := by
  have hibounds := bounds_of_mem_walk_item h hi hni
  have hjbounds := bounds_of_mem_walk_item h hj hnj
  rcases eq_or_rel_of_pairwise (pairwise_items h) hi hj with heq | hbefore | hbehind
  · exact heq
  · omega
  · omega

/-- A module is no dead bounds check. -/
theorem isDeadBranch_eq_false_of_module (hword : n.head? = some "module") :
    isDeadBranch n = false := by
  rw [Bool.eq_false_iff]
  intro hdead
  rw [head?_of_isDeadBranch hdead] at hword
  exact absurd (Option.some.inj hword) (by decide)

theorem isRemoved_of_isStubItem (h : isStubItem module n = true) : isRemoved module n = true := by
  rw [isRemoved, h, Bool.true_or]

/-- The dead bounds checks that are cut are those in the items that stay. -/
theorem deadBranches_eq {items : List Node} {start stop : Nat}
    (h : InOrder (tokens (list items start stop)))
    (hword : (list items start stop).head? = some "module") :
    deadBranches (list items start stop) ((stubs (list items start stop)).map Prod.fst) =
      (walkAll (items.filter (fun n => !isRemoved (list items start stop) n))).filter
        isDeadBranch := by
  have hroot := isDeadBranch_eq_false_of_module hword
  have hitems := (inOrder_list.mp h).1
  rw [deadBranches, walk, List.filter_cons_of_neg (by simp [hroot]), stubs_map_fst]
  apply filter_walkAll
  · intro n hn hremoved m hm
    rw [Bool.and_eq_false_iff]
    -- checks in a stub are left out by their place, and an export holds none
    rcases Bool.or_eq_true_iff.mp hremoved with hstub | hexport
    · right
      have hbounds := bounds_of_mem_walk_item hitems hn hm
      have hin : n ∈ items.filter (isStubItem (list items start stop)) :=
        List.mem_filter.mpr ⟨hn, hstub⟩
      rw [Bool.not_eq_false', List.any_eq_true]
      refine ⟨n, hin, ?_⟩
      simp only [Bool.and_eq_true, decide_eq_true_eq]
      omega
    · left
      rcases (isDeadExportItem_iff hn).mp hexport with ⟨e, rfl, hdead⟩
      exact not_isDeadBranch_of_export? hdead.shape hdead.word hm
  · intro n hn hstays m hm
    -- the items do not overlap, so what lies in one of them lies in no stub
    have hbounds := bounds_of_mem_walk_item hitems hn hm
    have hout : ((items.filter (isStubItem (list items start stop))).any
        (fun f => f.start ≤ m.start && m.start < f.stop)) = false := by
      rw [List.any_eq_false]
      intro f hf hin
      rcases List.mem_filter.mp hf with ⟨hfitem, hstub⟩
      simp only [Bool.and_eq_true, decide_eq_true_eq] at hin
      rcases eq_or_rel_of_pairwise (pairwise_items hitems) hn hfitem with rfl | hbefore | hbehind
      · rw [isRemoved_of_isStubItem hstub] at hstays
        cases hstays
      · omega
      · omega
    rw [items_list, hout, Bool.not_false, Bool.and_true]

/-! ## The nodes that are cut -/

section

variable {items : List Node} {start stop : Nat} (h : InOrder (tokens (list items start stop)))
  (hword : (list items start stop).head? = some "module")

include h hword

theorem cutNodes_eq : cutNodes (list items start stop) =
    items.filter (isStubItem (list items start stop)) ++
      items.filter (isDeadExportItem (list items start stop)) ++
      (walkAll (items.filter (fun n => !isRemoved (list items start stop) n))).filter
        isDeadBranch := by
  rw [cutNodes, stubs_map_fst, deadExports_map_node, ← stubs_map_fst, deadBranches_eq h hword,
    stubs_map_fst]
  rfl

/-- The dead bounds checks that are cut are those that are meant. -/
theorem mem_deadBranches_iff :
    n ∈ deadBranches (list items start stop) ((stubs (list items start stop)).map Prod.fst) ↔
      IsDeadBranchOf (list items start stop) n := by
  have hitems := (inOrder_list.mp h).1
  rw [deadBranches_eq h hword, List.mem_filter, mem_walkAll_iff]
  constructor
  · rintro ⟨⟨i, hi, hin⟩, hdead⟩
    rcases List.mem_filter.mp hi with ⟨hitem, hstays⟩
    refine ⟨List.mem_cons_of_mem _ (mem_walkAll_iff.mpr ⟨i, hitem, hin⟩), hdead, ?_⟩
    -- the item that holds the check is no stub, or it would have been removed
    intro func name hfunc hinstub
    have heq := eq_of_mem_walk_items hitems hfunc.item hitem hinstub hin
    subst heq
    rw [(isRemoved_iff hfunc.item).mpr (Or.inl ⟨name, hfunc⟩)] at hstays
    cases hstays
  · rintro ⟨hbelow, hdead, houtside⟩
    have hroot : n ≠ list items start stop := by
      rintro rfl
      rw [isDeadBranch_eq_false_of_module hword] at hdead
      cases hdead
    obtain ⟨i, hitem, hin⟩ :=
      mem_walkAll_iff.mp ((List.mem_cons.mp hbelow).resolve_left hroot)
    refine ⟨⟨i, List.mem_filter.mpr ⟨hitem, ?_⟩, hin⟩, hdead⟩
    rw [Bool.not_eq_true']
    rw [Bool.eq_false_iff]
    intro hremoved
    rcases (isRemoved_iff hitem).mp hremoved with ⟨name, hstub⟩ | ⟨e, rfl, hexport⟩
    · exact houtside i name hstub hin
    · have halive := not_isDeadBranch_of_export? hexport.shape hexport.word hin
      rw [hdead] at halive
      cases halive

/-- What is cut lies between the parentheses of the module. -/
theorem mem_walkAll_of_mem_cutNodes (hn : n ∈ cutNodes (list items start stop)) :
    n ∈ walkAll items := by
  rw [cutNodes_eq h hword] at hn
  simp only [List.mem_append, List.mem_filter, mem_walkAll_iff] at hn
  rcases hn with (⟨hitem, -⟩ | ⟨hitem, -⟩) | ⟨⟨m, ⟨hitem, -⟩, hwalk⟩, -⟩
  · exact mem_walkAll_of_mem hitem
  · exact mem_walkAll_of_mem hitem
  · exact mem_walkAll_iff.mpr ⟨m, hitem, hwalk⟩

omit hword in
theorem inOrder_filter_items (drop : Node → Bool) :
    InOrder (tokensOf (items.filter (fun n => !drop n))) := by
  have hitems := (inOrder_list.mp h).1
  rw [tokensOf_filter items hitems]
  exact hitems.sublist List.filter_sublist

/-- What is left of a module are the tokens outside the nodes that are cut. -/
theorem tokens_pruned : (pruned (list items start stop)).tokens =
    tokensOutside (cutNodes (list items start stop)) (tokens (list items start stop)) := by
  have hitems := (inOrder_list.mp h).1
  have hfilter : tokensOf (items.filter (fun n => !isRemoved (list items start stop) n)) =
      tokensOutside (items.filter (isRemoved (list items start stop))) (tokensOf items) :=
    tokensOf_filter items hitems
  have horder := inOrder_filter_items h (isRemoved (list items start stop))
  rw [tokensOutside_list h (fun m hm => mem_walkAll_of_mem_cutNodes h hword hm), pruned, tokens,
    tokensOf_pruneAll _ horder, hfilter, tokensOutside_tokensOutside]
  congr 2
  apply tokensOutside_congr
  intro m
  rw [cutNodes_eq h hword]
  simp only [List.mem_append, List.mem_filter, isRemoved, Bool.or_eq_true]
  rw [← and_or_left]

/-- The dead bounds checks that are cut follow one another. -/
theorem pairwise_deadBranches :
    (deadBranches (list items start stop)
      ((stubs (list items start stop)).map Prod.fst)).Pairwise (fun n m => n.stop ≤ m.start) := by
  have horder := inOrder_filter_items h (isRemoved (list items start stop))
  rw [deadBranches_eq h hword]
  refine ((pairwise_walkAll horder).sublist List.filter_sublist).imp_of_mem ?_
  intro n m hn hm hrel
  -- a check that lies in another would be one of its items, and those are no checks
  rcases hrel with hbefore | ⟨hin, -⟩
  · exact hbefore
  · have hdead := not_isDeadBranch_of_mem_items (List.mem_filter.mp hn).2 hin
    rw [(List.mem_filter.mp hm).2] at hdead
    cases hdead

/-- No two of the nodes that are cut overlap. -/
theorem pairwise_cutNodes : (cutNodes (list items start stop)).Pairwise
    (fun n m => Apart n.span m.span) := by
  have hitems := (inOrder_list.mp h).1
  have hbefore : items.Pairwise (fun n m => Apart n.span m.span) :=
    (pairwise_items hitems).imp Or.inl
  have hneighbours : ∀ n ∈ items, ∀ m ∈ items, n ≠ m → Apart n.span m.span := by
    intro n hn m hm hne
    rcases eq_or_rel_of_pairwise hbefore hn hm with heq | hapart | hapart
    · exact absurd heq hne
    · exact hapart
    · exact hapart.symm
  rw [cutNodes_eq h hword, List.pairwise_append, List.pairwise_append]
  -- stubs, exports and dead bounds checks, each among themselves and with the others
  refine ⟨⟨hbefore.sublist List.filter_sublist, hbefore.sublist List.filter_sublist, ?_⟩, ?_, ?_⟩
  · intro n hn m hm
    rcases List.mem_filter.mp hn with ⟨hnitem, hstub⟩
    rcases List.mem_filter.mp hm with ⟨hmitem, hexport⟩
    refine hneighbours n hnitem m hmitem ?_
    rintro rfl
    simp only [isStubItem, isDeadExportItem, Bool.and_eq_true, decide_eq_true_eq] at hstub hexport
    rw [hstub.1] at hexport
    exact absurd (Option.some.inj hexport.1) (by decide)
  · rw [← deadBranches_eq h hword]
    exact (pairwise_deadBranches h hword).imp Or.inl
  · intro n hn m hm
    rcases List.mem_filter.mp hm with ⟨hwalk, -⟩
    rcases mem_walkAll_iff.mp hwalk with ⟨i, hi, hmi⟩
    rcases List.mem_filter.mp hi with ⟨hitem, hstays⟩
    -- a check lies in an item that stays, which is another one than what is removed
    have hn' : n ∈ items ∧ isRemoved (list items start stop) n = true := by
      simp only [List.mem_append, List.mem_filter] at hn
      rcases hn with ⟨hitem, hstub⟩ | ⟨hitem, hexport⟩
      · exact ⟨hitem, by rw [isRemoved, hstub, Bool.true_or]⟩
      · exact ⟨hitem, by rw [isRemoved, hexport, Bool.or_true]⟩
    have hne : n ≠ i := by
      rintro rfl
      simp [hn'.2] at hstays
    have hbounds := bounds_of_mem_walk
      (inOrder_of_mem_walkAll hitems (mem_walkAll_of_mem hitem)) hmi
    rcases hneighbours n hn'.1 i hitem hne with hbefore | hbehind
    · left
      simp only [span] at hbefore ⊢
      omega
    · right
      simp only [span] at hbehind ⊢
      omega

end

end WasmPackage.Module
