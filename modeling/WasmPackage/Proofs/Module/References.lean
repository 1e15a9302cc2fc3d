import WasmPackage.Proofs.Module.Frame

/-!
# Where a module names functions

An atom names a function in a few places of the tree only: as the operand of a call, as the start
function, in an element segment, and as the target of an export.  These are the places that a pruned
module is searched for functions that are gone, and no others.
-/

namespace WasmPackage.Module

open SExpr Node Text

/-! ## Places -/

/-- What stands in an element segment before its function indices: its offset or the table it is
for, which are lists, or the word `func`. -/
def OpensIndices : Node → Prop
  | .atom a => a.text = "func"
  | .list _ _ _ => True

/-- An atom among the items of a segment that stands behind what opens its function indices. -/
def IsIndexOf (ns : List Node) (a : Atom) : Prop :=
  ∃ before opener between after, ns = before ++ opener :: between ++ .atom a :: after ∧
    OpensIndices opener

/-- The places of a list in which an atom names a function. -/
inductive NamesFunction : Node → Atom → Prop
  /-- The operand of a call that is a list of its own, as in `(call $f …)`. -/
  | folded {word operand : Atom} {rest : List Node} {start stop : Nat} : word.text ∈ callWords →
      NamesFunction (.list (.atom word :: .atom operand :: rest) start stop) operand
  /-- The operand of a call among the items of a list, as in `(… call $f …)`. -/
  | flat {head : Node} {before : List Node} {word operand : Atom} {after : List Node}
      {start stop : Nat} : word.text ∈ callWords →
      NamesFunction (.list (head :: (before ++ .atom word :: .atom operand :: after)) start stop)
        operand
  /-- The start function, as in `(start $f)`. -/
  | start {word operand : Atom} {rest : List Node} {start stop : Nat} : word.text = "start" →
      NamesFunction (.list (.atom word :: .atom operand :: rest) start stop) operand
  /-- An index of an element segment, as in `(elem $s (i32.const 0) $f …)`. -/
  | segment {word : Atom} {items : List Node} {index : Atom} {start stop : Nat} :
      word.text = "elem" → index.isName = true → IsIndexOf items index →
      NamesFunction (.list (.atom word :: items) start stop) index
  /-- An index of a segment inside a table, as in `(table funcref (elem $f …))`. -/
  | tableSegment {word : Atom} {items : List Node} {elem : Atom} {indices : List Node}
      {index : Atom} {start stop start' stop' : Nat} : word.text = "table" → elem.text = "elem" →
      .list (.atom elem :: indices) start' stop' ∈ items → index.isName = true →
      .atom index ∈ indices → NamesFunction (.list (.atom word :: items) start stop) index
  /-- The target of an export, as in `(export "…" (func $f))`. -/
  | exported {word : Atom} {items : List Node} {func target : Atom}
      {start stop start' stop' : Nat} : word.text = "export" → func.text = "func" →
      .list [.atom func, .atom target] start' stop' ∈ items →
      NamesFunction (.list (.atom word :: items) start stop) target

variable {n : Node} {ns : List Node} {a : Atom}

/-! ## The search for them -/

theorem isCallWord_iff : isCallWord n = true ↔ ∃ word, n = .atom word ∧ word.text ∈ callWords := by
  cases n with
  | atom word => simp [isCallWord]
  | list items start stop => simp [isCallWord]

/-- The first of two items that follow one another may be a call, the second its operand. -/
theorem mem_flatOperands_cons_iff :
    a ∈ flatOperands (n :: ns) ↔
      (isCallWord n = true ∧ ns.head? = some (.atom a)) ∨ a ∈ flatOperands ns := by
  cases ns with
  | nil => simp [flatOperands]
  | cons operand ns =>
    cases operand with
    | atom b => cases hcall : isCallWord n <;> simp [flatOperands, hcall, eq_comm]
    | list items start stop => simp [flatOperands]

theorem mem_flatOperands_iff :
    a ∈ flatOperands ns ↔
      ∃ before word after, ns = before ++ .atom word :: .atom a :: after ∧
        word.text ∈ callWords := by
  induction ns with
  | nil => simp [flatOperands]
  | cons n ns ih =>
    rw [mem_flatOperands_cons_iff, ih, isCallWord_iff]
    constructor
    · rintro (⟨⟨word, rfl, hcall⟩, hoperand⟩ | ⟨before, word, after, rfl, hcall⟩)
      · rcases List.head?_eq_some_iff.mp hoperand with ⟨after, rfl⟩
        exact ⟨[], word, after, rfl, hcall⟩
      · exact ⟨n :: before, word, after, rfl, hcall⟩
    · rintro ⟨before, word, after, hsplit, hcall⟩
      rcases List.cons_eq_append_iff.mp hsplit with ⟨rfl, hfirst⟩ | ⟨before', rfl, rfl⟩
      · cases hfirst
        exact Or.inl ⟨⟨word, rfl, hcall⟩, rfl⟩
      · exact Or.inr ⟨before', word, after, rfl, hcall⟩

/-- An opener begins the indices for all that is behind it. -/
theorem isIndexOf_cons_iff :
    IsIndexOf (n :: ns) a ↔ (OpensIndices n ∧ .atom a ∈ ns) ∨ IsIndexOf ns a := by
  constructor
  · rintro ⟨before, opener, between, after, hsplit, hopens⟩
    rw [List.append_assoc] at hsplit
    rcases List.cons_eq_append_iff.mp hsplit with ⟨rfl, hfirst⟩ | ⟨before', rfl, rfl⟩
    · cases hfirst
      exact Or.inl ⟨hopens, by simp⟩
    · exact Or.inr ⟨before', opener, between, after, by simp, hopens⟩
  · rintro (⟨hopens, hmem⟩ | ⟨before, opener, between, after, rfl, hopens⟩)
    · rcases List.append_of_mem hmem with ⟨between, after, rfl⟩
      exact ⟨[], n, between, after, rfl, hopens⟩
    · exact ⟨n :: before, opener, between, after, rfl, hopens⟩

theorem not_isIndexOf_nil : ¬IsIndexOf [] a := by
  rintro ⟨before, opener, between, after, hsplit, -⟩
  simp at hsplit

/-- The indices of a segment are names; unless the segment has begun they stand behind what opens
them. -/
theorem mem_segmentTargets_iff {started : Bool} :
    a ∈ segmentTargets started ns ↔
      a.isName = true ∧ ((started = true ∧ .atom a ∈ ns) ∨ IsIndexOf ns a) := by
  induction ns generalizing started with
  | nil => simp [segmentTargets, not_isIndexOf_nil]
  | cons n ns ih =>
    rw [isIndexOf_cons_iff]
    cases n with
    | list items start stop =>
      rw [segmentTargets, ih]
      have hmem : .atom a ∈ list items start stop :: ns ↔ .atom a ∈ ns := by simp
      simp only [hmem, OpensIndices]
      grind
    | atom b =>
      rw [segmentTargets]
      have hmem : .atom a ∈ .atom b :: ns ↔ a = b ∨ .atom a ∈ ns := by simp
      simp only [hmem, OpensIndices]
      by_cases hfunc : b.text = "func"
      · -- the word itself is no name
        have hname : b.isName = false := by simp [Atom.isName, hfunc]
        rw [if_pos hfunc, ih]
        grind
      · rw [if_neg hfunc]
        by_cases hindex : (started && b.isName) = true
        · rw [if_pos hindex, List.mem_cons, ih]
          grind
        · rw [if_neg hindex, ih]
          grind

theorem head?_eq_some_iff {word : String} :
    n.head? = some word ↔ ∃ first rest start stop, n = .list (.atom first :: rest) start stop ∧
      first.isString = false ∧ first.text = word := by
  rcases n with a | ⟨_ | ⟨a | ⟨items, start, stop⟩, rest⟩, start, stop⟩
  · simp [head?]
  · simp [head?]
  · cases hstring : a.isString <;> simp [head?, hstring]
  · simp [head?]

/-- A list that begins with a word that matters here is known by it. -/
theorem head?_of_word {first : Atom} {rest : List Node} {start stop : Nat} {word : String}
    (h : first.text = word)
    (hword : word ∈ callWords ++ ["start", "elem", "table", "export", "func"]) :
    (list (.atom first :: rest) start stop).head? = some word := by
  have hplain : ∀ word ∈ callWords ++ ["start", "elem", "table", "export", "func"],
      word.toList.head? ≠ some '"' := by decide
  simp [head?, Atom.isString, h, hplain word hword]

/-- The target of an export is the only item behind the word of the list that holds it. -/
def exportTarget? (f : Node) : Option Atom :=
  match f.items with
  | [_, .atom target] => some target
  | _ => none

theorem exportTarget?_eq_some_iff :
    exportTarget? n = some a ↔ ∃ first, n.items = [first, .atom a] := by
  rw [exportTarget?]
  split
  case h_1 first target hitems => simp [hitems]
  case h_2 hother =>
    constructor
    · intro h
      cases h
    · rintro ⟨first, hitems⟩
      exact absurd hitems (hother first a)

/-- The references that a list makes by the word that it begins with. -/
def wordReferences (word : String) (n : Node) : List Atom :=
  if callWords.contains word || word = "start" then ((n.items[1]?).bind Node.atom?).toList
  else if word = "elem" then segmentTargets false (n.items.drop 1)
  else if word = "table" then
    (n.children "elem").flatMap (fun e => segmentTargets true (e.items.drop 1))
  else if word = "export" then
    (n.children "func").filterMap exportTarget?
  else []

theorem mem_ownReferences : a ∈ ownReferences n ↔
    a ∈ flatOperands (n.items.drop 1) ∨
      ∃ word, n.head? = some word ∧ a ∈ wordReferences word n := by
  unfold ownReferences
  rw [List.mem_append]
  cases n.head? with
  | none => simp
  | some word =>
    simp only [Option.some.injEq, exists_eq_left']
    rfl

/-- The word that a list begins with says which of its atoms it means as functions. -/
theorem mem_wordReferences_iff {word : String} :
    a ∈ wordReferences word n ↔
      ((word ∈ callWords ∨ word = "start") ∧ n.items[1]? = some (.atom a)) ∨
      (word = "elem" ∧ a.isName = true ∧ IsIndexOf (n.items.drop 1) a) ∨
      (word = "table" ∧ ∃ e ∈ n.items, e.head? = some "elem" ∧ a.isName = true ∧
        .atom a ∈ e.items.drop 1) ∨
      (word = "export" ∧ ∃ f ∈ n.items, f.head? = some "func" ∧
        ∃ first, f.items = [first, .atom a]) := by
  have hoperand : a ∈ ((n.items[1]?).bind Node.atom?).toList ↔ n.items[1]? = some (.atom a) := by
    cases n.items[1]? with
    | none => simp
    | some m => cases m <;> simp [atom?, eq_comm]
  have htable : a ∈ (n.children "elem").flatMap (fun e => segmentTargets true (e.items.drop 1)) ↔
      ∃ e ∈ n.items, e.head? = some "elem" ∧ a.isName = true ∧ .atom a ∈ e.items.drop 1 := by
    have hindex (ns : List Node) : IsIndexOf ns a → .atom a ∈ ns := by
      rintro ⟨before, opener, between, after, rfl, -⟩
      simp
    simp only [List.mem_flatMap, mem_children_iff, mem_segmentTargets_iff, true_and, and_assoc,
      or_iff_left_of_imp (hindex _)]
  have hexport : a ∈ (n.children "func").filterMap exportTarget? ↔
      ∃ f ∈ n.items, f.head? = some "func" ∧ ∃ first, f.items = [first, .atom a] := by
    simp only [List.mem_filterMap, mem_children_iff, exportTarget?_eq_some_iff, and_assoc]
  rw [wordReferences]
  split
  case isTrue hword =>
    have hword' : word ∈ callWords ∨ word = "start" := by simpa using hword
    have hother : word ≠ "elem" ∧ word ≠ "table" ∧ word ≠ "export" := by
      rcases hword' with hcall | rfl
      · simp only [callWords, List.mem_cons, List.not_mem_nil, or_false] at hcall
        rcases hcall with rfl | rfl | rfl <;> decide
      · decide
    simp only [hoperand, hword', hother, true_and, false_and, or_false]
  case isFalse hword =>
    have hword' : ¬(word ∈ callWords ∨ word = "start") := by simpa using hword
    have helse : "elem" ∉ callWords ∧ "table" ∉ callWords ∧ "export" ∉ callWords := by decide
    split
    case isTrue helem =>
      subst helem
      simp [helse, mem_segmentTargets_iff]
    case isFalse helem =>
      split
      case isTrue htab =>
        subst htab
        rw [htable]
        simp [helse]
      case isFalse htab =>
        split
        case isTrue hexp =>
          subst hexp
          rw [hexport]
          simp [helse]
        case isFalse hexp => simp only [hword', helem, htab, hexp, List.not_mem_nil, false_and,
          or_false]

/-- The search finds the atoms in the places where an atom names a function. -/
theorem mem_ownReferences_iff : a ∈ ownReferences n ↔ NamesFunction n a := by
  rw [mem_ownReferences, mem_flatOperands_iff]
  constructor
  · rintro (⟨before, word, after, hsplit, hcall⟩ | ⟨text, hhead, hmem⟩)
    · rcases n with b | ⟨items, start, stop⟩
      · simp [items] at hsplit
      · rcases items with _ | ⟨head, rest⟩
        · simp [items] at hsplit
        · have hrest : rest = before ++ .atom word :: .atom a :: after := hsplit
          subst hrest
          exact .flat hcall
    · rcases head?_eq_some_iff.mp hhead with ⟨first, rest, start, stop, rfl, -, rfl⟩
      rcases mem_wordReferences_iff.mp hmem with ⟨hword, hoperand⟩ | ⟨helem, hname, hindex⟩ |
        ⟨htable, e, he, hehead, hname, hindex⟩ | ⟨hexport, f, hf, hfhead, other, hfitems⟩
      · have hfirst : rest.head? = some (.atom a) := by
          rw [List.head?_eq_getElem?]
          exact hoperand
        rcases List.head?_eq_some_iff.mp hfirst with ⟨rest, rfl⟩
        rcases hword with hcall | hstart
        · exact .folded hcall
        · exact .start hstart
      · exact .segment helem hname hindex
      · rcases head?_eq_some_iff.mp hehead with ⟨elem, indices, start', stop', rfl, -, helem⟩
        have he' : list (.atom elem :: indices) start' stop' ∈ rest := by simpa [items] using he
        exact .tableSegment htable helem he' hname hindex
      · rcases head?_eq_some_iff.mp hfhead with ⟨func, targets, start', stop', rfl, -, hfunc⟩
        have htargets : targets = [.atom a] := by
          cases hfitems
          rfl
        subst htargets
        have hf' : list [.atom func, .atom a] start' stop' ∈ rest := by simpa [items] using hf
        exact .exported hexport hfunc hf'
  · intro h
    cases h with
    | folded hcall =>
      exact Or.inr ⟨_, head?_of_word rfl (List.mem_append_left _ hcall),
        mem_wordReferences_iff.mpr (Or.inl ⟨Or.inl hcall, rfl⟩)⟩
    | flat hcall => exact Or.inl ⟨_, _, _, rfl, hcall⟩
    | start hstart =>
      exact Or.inr ⟨"start", head?_of_word hstart (by decide),
        mem_wordReferences_iff.mpr (Or.inl ⟨Or.inr rfl, rfl⟩)⟩
    | segment helem hname hindex =>
      exact Or.inr ⟨"elem", head?_of_word helem (by decide),
        mem_wordReferences_iff.mpr (Or.inr (Or.inl ⟨rfl, hname, hindex⟩))⟩
    | tableSegment htable helem he hname hindex =>
      exact Or.inr ⟨"table", head?_of_word htable (by decide),
        mem_wordReferences_iff.mpr (Or.inr (Or.inr (Or.inl ⟨rfl, _, List.mem_cons_of_mem _ he,
          head?_of_word helem (by decide), hname, hindex⟩)))⟩
    | exported hexport hfunc hf =>
      exact Or.inr ⟨"export", head?_of_word hexport (by decide),
        mem_wordReferences_iff.mpr (Or.inr (Or.inr (Or.inr ⟨rfl, _, List.mem_cons_of_mem _ hf,
          head?_of_word hfunc (by decide), _, rfl⟩)))⟩

theorem mem_references_iff {module : Node} :
    a ∈ references module ↔ ∃ n ∈ module.walk, NamesFunction n a := by
  simp only [references, List.mem_flatMap, mem_ownReferences_iff]

/-! ## The check of what is left -/

/-- An atom of what is left of a module that names, where a function is named, a stub of the module
that was cut. -/
structure IsDangling (module module' : Node) (a : Atom) : Prop where
  names : ∃ n ∈ module'.walk, NamesFunction n a
  removed : ∃ func, IsStubOf module func a.value

variable {t : Text} {module module' : Node} {name : String} {offset : Nat}

theorem isDangling_iff_mem : IsDangling module module' a ↔
    a ∈ references module' ∧ ((stubs module).map Prod.snd).contains a.value = true := by
  rw [mem_references_iff, contains_stubNames_iff]
  exact ⟨fun h => ⟨h.names, h.removed⟩, fun ⟨hnames, hremoved⟩ => ⟨hnames, hremoved⟩⟩

theorem danglingReference?_eq_none_iff :
    danglingReference? module' ((stubs module).map Prod.snd) = none ↔
      ∀ a, ¬IsDangling module module' a := by
  simp only [danglingReference?, List.find?_eq_none, isDangling_iff_mem, not_and]

theorem isDangling_of_danglingReference?
    (h : danglingReference? module' ((stubs module).map Prod.snd) = some a) :
    IsDangling module module' a := by
  have hfound := List.find?_eq_some_iff_append.mp h
  exact isDangling_iff_mem.mpr ⟨List.mem_of_find?_eq_some h, hfound.1⟩

/-- A module is refused for a function that is gone exactly when an atom of what is left names one
in a place where a function is named, and the refusal tells such an atom. -/
theorem strip_stillReferenced_iff (hread : readModule t = .ok module)
    (hleft : readModule (uncut t (cutNodes module)) = .ok module') :
    ((∃ name offset, strip t = .error (.stillReferenced name offset)) ↔
        ∃ a, IsDangling module module' a) ∧
      ∀ name offset, strip t = .error (.stillReferenced name offset) →
        ∃ a, IsDangling module module' a ∧ a.value = name ∧ a.start = offset := by
  have hstrip := strip_eq_of_readModule hread
  rw [hleft] at hstrip
  cases hdangling : danglingReference? module' ((stubs module).map Prod.snd) with
  | none =>
    have hnone := danglingReference?_eq_none_iff.mp hdangling
    have hpruned : ∀ name offset, strip t ≠ .error (.stillReferenced name offset) := by
      intro name offset h
      simp only [hdangling, h] at hstrip
      cases hstrip
    constructor
    · exact ⟨fun ⟨name, offset, h⟩ => absurd h (hpruned name offset),
        fun ⟨a, ha⟩ => absurd ha (hnone a)⟩
    · intro name offset h
      exact absurd h (hpruned name offset)
  | some a =>
    have ha := isDangling_of_danglingReference? hdangling
    simp only [hdangling] at hstrip
    constructor
    · exact ⟨fun _ => ⟨a, ha⟩, fun _ => ⟨_, _, hstrip⟩⟩
    · intro name offset h
      rw [hstrip] at h
      cases h
      exact ⟨a, ha, rfl, rfl⟩

/-- The reference that a module is refused for, told from the tree: no edits are sorted. -/
def dangling? (t : Text) : Option Atom := do
  let module ← (readModule t).toOption
  let module' ← (readModule (uncut t (cutNodes module))).toOption
  danglingReference? module' ((stubs module).map Prod.snd)

theorem dangling?_eq_some_iff :
    dangling? t = some a ↔ ∃ module module', readModule t = .ok module ∧
      readModule (uncut t (cutNodes module)) = .ok module' ∧
      danglingReference? module' ((stubs module).map Prod.snd) = some a := by
  unfold dangling?
  cases readModule t with
  | error fault => simp [Except.toOption]
  | ok module =>
    simp only [Except.toOption, Option.bind_eq_bind, Option.bind_some, Except.ok.injEq,
      exists_and_left, exists_eq_left']
    cases readModule (uncut t (cutNodes module)) with
    | error fault => simp
    | ok module' => simp

/-- A module in which a function calls a stub and has a local of its name. -/
def callingText : Text :=
  ["(module\n", " (func $v_elements (param i32 i32)\n", "  (unreachable)\n", " )\n",
    " (func $f (local $v_elements i32)\n", "  (drop (local.get $v_elements))\n",
    "  (call $v_elements (i32.const 0) (i32.const 0))\n", " )\n", ")\n"].flatMap String.toList

theorem strip_stillReferenced_iff_callingText :
    ∃ module module', readModule callingText = .ok module ∧
      readModule (uncut callingText (cutNodes module)) = .ok module' ∧
      ((∃ name offset, strip callingText = .error (.stillReferenced name offset)) ↔
        ∃ a, IsDangling module module' a) ∧
      (∃ a, IsDangling module module' a ∧ a.value = "$v_elements" ∧ a.start = 83) ∧
      ∀ name offset, strip callingText = .error (.stillReferenced name offset) →
        ∃ a, IsDangling module module' a ∧ a.value = name ∧ a.start = offset := by
  have hfound : (dangling? callingText).map (fun a => (a.value, a.start)) =
      some ("$v_elements", 83) := by decide +kernel
  rcases Option.map_eq_some_iff.mp hfound with ⟨a, hdangling, hplace⟩
  rcases Prod.mk.inj hplace with ⟨hname, hstart⟩
  rcases dangling?_eq_some_iff.mp hdangling with ⟨module, module', hread, hleft, hfirst⟩
  rcases strip_stillReferenced_iff hread hleft with ⟨hiff, htells⟩
  exact ⟨module, module', hread, hleft, hiff,
    ⟨a, isDangling_of_danglingReference? hfirst, hname, hstart⟩, htells⟩

end WasmPackage.Module
