import Mathlib.Tactic.CasesM
import WasmPackage.Proofs.Module.Cuts

/-!
# Offsets do not matter

What is cut out of a module is known by its shape: a tree whose offsets are changed has the same
stubs, exports and dead bounds checks.
-/

namespace WasmPackage.Module

open SExpr Node

variable {place : Nat → Nat} {n m : Node} {ns ms : List Node} {a : Atom}

/-! ## Trees with other offsets -/

theorem relocate_eq_atom_iff :
    relocate place n = .atom a ↔
      ∃ b, n = .atom b ∧ a = { b with start := place b.start } := by
  cases n with
  | atom b =>
    simp only [relocate, Node.atom.injEq]
    constructor
    · intro h
      exact ⟨b, rfl, h.symm⟩
    · rintro ⟨c, rfl, h⟩
      exact h.symm
  | list items start stop => simp [relocate]

theorem relocate_eq_list_iff {start stop : Nat} :
    relocate place n = .list ms start stop ↔
      ∃ items start' stop', n = .list items start' stop' ∧ relocateAll place items = ms ∧
        place start' = start ∧ place stop' = stop := by
  cases n with
  | atom b => simp [relocate]
  | list items start' stop' =>
    simp only [relocate, Node.list.injEq]
    constructor
    · rintro ⟨hitems, hstart, hstop⟩
      exact ⟨items, start', stop', ⟨rfl, rfl, rfl⟩, hitems, hstart, hstop⟩
    · rintro ⟨_, _, _, ⟨rfl, rfl, rfl⟩, hitems, hstart, hstop⟩
      exact ⟨hitems, hstart, hstop⟩

theorem relocateAll_eq_cons_iff :
    relocateAll place ns = m :: ms ↔
      ∃ n ns', ns = n :: ns' ∧ relocate place n = m ∧ relocateAll place ns' = ms := by
  cases ns with
  | nil => simp [relocateAll]
  | cons n ns' =>
    simp only [relocateAll, List.cons.injEq]
    constructor
    · rintro ⟨hfirst, hrest⟩
      exact ⟨n, ns', ⟨rfl, rfl⟩, hfirst, hrest⟩
    · rintro ⟨_, _, ⟨rfl, rfl⟩, hfirst, hrest⟩
      exact ⟨hfirst, hrest⟩

theorem relocateAll_eq_nil_iff : relocateAll place ns = [] ↔ ns = [] := by
  cases ns <;> simp [relocateAll]

@[simp] theorem items_relocate (n : Node) :
    (relocate place n).items = n.items.map (relocate place) := by
  cases n with
  | atom b => rfl
  | list items start stop => exact relocateAll_eq_map items

@[simp] theorem head?_relocate (n : Node) : (relocate place n).head? = n.head? := by
  cases n with
  | atom b => rfl
  | list items start stop =>
    cases items with
    | nil => rfl
    | cons first rest => cases first <;> rfl

@[simp] theorem isDeadBranch_relocate (n : Node) :
    isDeadBranch (relocate place n) = isDeadBranch n := by
  fun_cases isDeadBranch n with
  | case1 => rfl
  | case2 _ hother =>
    generalize hm : relocate place n = m
    fun_cases isDeadBranch m with
    | case1 =>
      simp only [relocate_eq_list_iff, relocateAll_eq_cons_iff, relocate_eq_atom_iff,
        relocateAll_eq_nil_iff] at hm
      revert hother
      cases_type* Exists And
      subst_vars
      intro hother
      exfalso
      apply hother
      rfl
    | case2 => rfl

/-! ## Functions with other offsets -/

@[simp] theorem isHeaderItem_relocate (n : Node) :
    isHeaderItem (relocate place n) = isHeaderItem n := by
  cases n with
  | atom b => rfl
  | list items start stop =>
    have hhead : (relocate place (list items start stop)).head? = (list items start stop).head? :=
      head?_relocate _
    exact congrArg (fun word : Option String => word.any headerWords.contains) hhead

@[simp] theorem isList_relocate (n : Node) : (relocate place n).isList = n.isList := by
  cases n <;> rfl

theorem header_relocate (func : Node) :
    header (relocate place func) = (header func).map (relocate place) := by
  have hheader : (fun n => isHeaderItem (relocate place n)) = isHeaderItem :=
    funext isHeaderItem_relocate
  have hlist : (fun n => (relocate place n).isList) = isList := funext isList_relocate
  rw [header, header, items_relocate, ← List.map_drop, List.takeWhile_map, List.filter_map]
  simp only [Function.comp_def, hheader, hlist]

theorem body_relocate (func : Node) :
    body (relocate place func) = (body func).map (relocate place) := by
  have hheader : (fun n => isHeaderItem (relocate place n)) = isHeaderItem :=
    funext isHeaderItem_relocate
  rw [body, body, items_relocate, ← List.map_drop, List.dropWhile_map]
  simp only [Function.comp_def, hheader]

@[simp] theorem functionName?_relocate (func : Node) :
    functionName? (relocate place func) = functionName? func := by
  simp only [functionName?, items_relocate, List.getElem?_map]
  cases func.items[1]? with
  | none => rfl
  | some second => cases second <;> rfl

@[simp] theorem typesOfParameter_relocate (func : Node) :
    typesOfParameter (relocate place func) = typesOfParameter func := by
  simp only [typesOfParameter, header_relocate, List.flatMap_map]
  congr 1
  funext item
  rw [head?_relocate, items_relocate, ← List.map_drop, List.filterMap_filterMap,
    List.filterMap_filterMap, List.filterMap_map]
  congr 2
  funext n
  cases n <;> rfl

/-- The name that an item of a header exports its function under. -/
def ownExportName? : Node → Option String
  | .list [.atom word, .atom name] _ _ =>
    if word.text = "export" && name.isString then some name.value else none
  | _ => none

theorem ownExportName?_relocate (n : Node) :
    ownExportName? (relocate place n) = ownExportName? n := by
  rcases n with b | ⟨_ | ⟨first, _ | ⟨second, _ | ⟨third, rest⟩⟩⟩, start, stop⟩
  · rfl
  · rfl
  · cases first <;> rfl
  · cases first <;> cases second <;> rfl
  · cases first <;> cases second <;> rfl

@[simp] theorem ownExportNames_relocate (func : Node) :
    ownExportNames (relocate place func) = ownExportNames func := by
  have hname : (fun n => ownExportName? (relocate place n)) = ownExportName? :=
    funext ownExportName?_relocate
  change (header (relocate place func)).filterMap ownExportName? =
    (header func).filterMap ownExportName?
  rw [header_relocate, List.filterMap_map, Function.comp_def, hname]

@[simp] theorem isUnreachable_relocate (n : Node) :
    isUnreachable (relocate place n) = isUnreachable n := by
  rcases n with b | ⟨_ | ⟨first, _ | ⟨second, rest⟩⟩, start, stop⟩
  · rfl
  · rfl
  · cases first <;> rfl
  · cases first <;> rfl

@[simp] theorem isStub_relocate (func : Node) (names : List String) :
    isStub (relocate place func) names = isStub func names := by
  have hword : (fun n => decide ((relocate place n).head? = some "result") ||
      decide ((relocate place n).head? = some "import")) =
      fun n => decide (n.head? = some "result") || decide (n.head? = some "import") := by
    funext n
    rw [head?_relocate]
  simp only [isStub, functionName?_relocate, ownExportNames_relocate, typesOfParameter_relocate,
    header_relocate, body_relocate, List.any_map, Function.comp_def, hword, List.getLast?_map,
    Option.any_map, isUnreachable_relocate]

/-! ## Modules with other offsets -/

/-- An export of a module whose offsets are changed. -/
def Export.relocate (place : Nat → Nat) (e : Export) : Export :=
  { e with node := Node.relocate place e.node }

theorem export?_relocate (n : Node) :
    export? (relocate place n) = (export? n).map (Export.relocate place) := by
  rcases n with b | ⟨_ | ⟨first, _ | ⟨second, _ | ⟨third, _ | ⟨fourth, rest⟩⟩⟩⟩, start, stop⟩
  · rfl
  · rfl
  · rfl
  · cases second <;> rfl
  · cases second with
    | list items' start' stop' => rfl
    | atom name =>
      rcases third with b | ⟨_ | ⟨word, _ | ⟨target, _ | ⟨more, rest⟩⟩⟩, start', stop'⟩
      · rfl
      · rfl
      · cases word <;> rfl
      · cases word with
        | list items' start' stop' => rfl
        | atom word =>
          cases target with
          | list items' start' stop' => rfl
          | atom target =>
            have hstring : ({ name with start := place name.start } : Atom).isString =
                name.isString := rfl
            simp only [relocate, relocateAll, export?, hstring]
            split
            · rfl
            · rfl
      · cases word <;> cases target <;> rfl
  · simp [relocate, relocateAll, export?]

theorem children_relocate (module : Node) (head : String) :
    (relocate place module).children head = (module.children head).map (relocate place) := by
  have hhead : (fun n => decide ((relocate place n).head? = some head)) =
      fun n => decide (n.head? = some head) := by
    funext n
    rw [head?_relocate]
  rw [children, children, items_relocate, List.filter_map, Function.comp_def, hhead]

theorem exports_relocate (module : Node) :
    exports (relocate place module) = (exports module).map (Export.relocate place) := by
  have hexport : (fun n => export? (relocate place n)) =
      fun n => (export? n).map (Export.relocate place) := funext export?_relocate
  rw [exports, exports, children_relocate, List.filterMap_map, Function.comp_def, hexport,
    List.map_filterMap]

theorem stubName?_relocate (module func : Node) :
    stubName? (relocate place module) (relocate place func) = stubName? module func := by
  have hnames : ∀ name : String,
      (((exports module).map (Export.relocate place)).filter (fun e => e.target = name)).map
        Export.name = ((exports module).filter (fun e => e.target = name)).map Export.name := by
    intro name
    rw [List.filter_map, List.map_map]
    rfl
  simp only [stubName?, functionName?_relocate, isStub_relocate, exports_relocate, hnames]

theorem stubs_relocate (module : Node) :
    stubs (relocate place module) =
      (stubs module).map (fun f => (relocate place f.1, f.2)) := by
  rw [stubs_eq, stubs_eq, children_relocate, List.filterMap_map, List.map_filterMap]
  congr 1
  funext func
  simp only [Function.comp_def, stubName?_relocate]
  cases stubName? module func <;> rfl

theorem deadExports_relocate (module : Node) (removed : List String) :
    deadExports (relocate place module) removed =
      (deadExports module removed).map (Export.relocate place) := by
  rw [deadExports, deadExports, exports_relocate, List.filter_map]
  rfl

mutual

theorem walk_relocate (n : Node) : walk (relocate place n) = (walk n).map (relocate place) := by
  cases n with
  | atom b => rfl
  | list items start stop =>
    rw [relocate, walk, walk, walkAll_relocateAll items]
    rfl

theorem walkAll_relocateAll (ns : List Node) :
    walkAll (relocateAll place ns) = (walkAll ns).map (relocate place) := by
  cases ns with
  | nil => rfl
  | cons n ns =>
    rw [relocateAll, walkAll, walkAll, walk_relocate n, walkAll_relocateAll ns, List.map_append]

end

/-- A module in which nothing is to be cut. -/
structure Settled (module : Node) : Prop where
  stubs : stubs module = []
  exports : deadExports module [] = []
  branches : ∀ n ∈ walk module, isDeadBranch n = false

/-- Nothing is cut out of a module exactly when nothing is to be cut. -/
theorem settled_iff {module : Node} : Settled module ↔ cutNodes module = [] := by
  have hbranches : deadBranches module [] = (walk module).filter isDeadBranch := by
    apply List.filter_congr
    intro n _
    simp
  simp only [cutNodes, List.append_eq_nil_iff, List.map_eq_nil_iff]
  constructor
  · rintro ⟨hstubs, hexports, hdead⟩
    rw [hstubs, List.map_nil, List.map_nil, hbranches, List.filter_eq_nil_iff]
    refine ⟨⟨rfl, hexports⟩, ?_⟩
    intro n hn
    simp [hdead n hn]
  · rintro ⟨⟨hstubs, hexports⟩, hdead⟩
    rw [hstubs, List.map_nil] at hexports hdead
    rw [hbranches, List.filter_eq_nil_iff] at hdead
    refine ⟨hstubs, hexports, ?_⟩
    intro n hn
    simpa using hdead n hn

/-- Whether anything is to be cut does not depend on where it stands. -/
theorem settled_relocate_iff {module : Node} :
    Settled (relocate place module) ↔ Settled module := by
  have hstubs : stubs (relocate place module) = [] ↔ stubs module = [] := by
    rw [stubs_relocate, List.map_eq_nil_iff]
  have hexports : deadExports (relocate place module) [] = [] ↔ deadExports module [] = [] := by
    rw [deadExports_relocate, List.map_eq_nil_iff]
  have hbranches : (∀ n ∈ walk (relocate place module), isDeadBranch n = false) ↔
      ∀ n ∈ walk module, isDeadBranch n = false := by
    rw [walk_relocate, List.forall_mem_map]
    simp only [isDeadBranch_relocate]
  constructor
  · rintro ⟨h₁, h₂, h₃⟩
    exact ⟨hstubs.mp h₁, hexports.mp h₂, hbranches.mp h₃⟩
  · rintro ⟨h₁, h₂, h₃⟩
    exact ⟨hstubs.mpr h₁, hexports.mpr h₂, hbranches.mpr h₃⟩

end WasmPackage.Module
