import Mathlib.Data.List.Induction
import Mathlib.Tactic.ByContra
import WasmPackage.Store.Basic

/-!
# Stores as file trees

A store is seen through what stands at its locations.  In a tree everything stands in a directory,
so nothing is below a place that is free.
-/

namespace WasmPackage.Store

variable {s t : Store} {k l : Location} {e : Entry}

/-! ## Entries -/

@[simp] theorem entry?_nil (s : Store) : s.entry? [] = some .directory := by
  unfold entry?
  simp

theorem lookup_filter (p : Location → Bool) (xs : List (Location × Entry)) (k : Location) :
    (xs.filter (fun x => p x.1)).lookup k = if p k then xs.lookup k else none := by
  induction xs with
  | nil => simp
  | cons x xs ih =>
    rcases x with ⟨l, e⟩
    by_cases hkl : k = l
    · subst hkl
      by_cases hp : p k
      · simp [hp]
      · simpa [hp] using ih
    · have hne : (k == l) = false := by simp [hkl]
      by_cases hp : p l
      · simpa [hp, List.lookup_cons, hne] using ih
      · simpa [hp, List.lookup_cons, hne] using ih

theorem entry?_erase (hl : l ≠ []) (k : Location) :
    entry? (s.erase l) k = if k = l then none else s.entry? k := by
  unfold entry? erase
  have hfilter := lookup_filter (fun m => m ≠ l) s.entries k
  by_cases hk : k = []
  · subst hk
    simp [hl.symm]
  · rw [if_neg hk, hfilter]
    by_cases hkl : k = l <;> simp [hk, hkl]

theorem entry?_put (hl : l ≠ []) (k : Location) :
    entry? (s.put l e) k = if k = l then some e else s.entry? k := by
  have herase := entry?_erase (s := s) hl k
  by_cases hk : k = []
  · subst hk
    simp [hl.symm]
  · by_cases hkl : k = l
    · subst hkl
      unfold entry? put
      simp [hk]
    · have hne : (k == l) = false := by simp [hkl]
      unfold entry? erase at herase
      unfold entry? put
      simp only [hk, hkl, if_false, List.lookup_cons, hne] at herase ⊢
      exact herase

theorem entry?_eraseTree (hl : l ≠ []) (k : Location) :
    entry? (s.eraseTree l) k = if l <+: k then none else s.entry? k := by
  unfold entry? eraseTree
  have hfilter := lookup_filter (fun m => !l.isPrefixOf m) s.entries k
  by_cases hk : k = []
  · subst hk
    simp [hl]
  · rw [if_neg hk, hfilter]
    by_cases hlk : l <+: k
    · simp [hlk, List.isPrefixOf_iff_prefix.mpr hlk]
    · have hne : l.isPrefixOf k = false := by
        rw [← Bool.not_eq_true, List.isPrefixOf_iff_prefix]
        exact hlk
      simp [hk, hlk, hne]

theorem isDirectory_iff : s.isDirectory l = true ↔ s.entry? l = some .directory := by
  simp [isDirectory]

/-- The root is a directory. -/
theorem ne_nil_of_isDirectory (h : s.isDirectory l = false) : l ≠ [] := by
  rintro rfl
  simp [isDirectory] at h

theorem mem_of_entry?_eq_some (hl : l ≠ []) (h : s.entry? l = some e) : (l, e) ∈ s.entries := by
  unfold entry? at h
  rw [if_neg hl, List.lookup_eq_some_iff] at h
  rcases h with ⟨before, after, hentries, -⟩
  rw [hentries]
  simp

/-! ## Trees -/

/-- The same stands at every location. -/
def SameTree (s t : Store) : Prop :=
  ∀ l, t.entry? l = s.entry? l

theorem SameTree.refl (s : Store) : SameTree s s :=
  fun _ => rfl

theorem SameTree.symm (hst : SameTree s t) : SameTree t s :=
  fun l => (hst l).symm

theorem SameTree.trans {u : Store} (hst : SameTree s t) (htu : SameTree t u) : SameTree s u :=
  fun l => (htu l).trans (hst l)

theorem SameTree.isDirectory_eq (hsame : SameTree s t) (l : Location) :
    t.isDirectory l = s.isDirectory l := by
  simp only [isDirectory, hsame l]

/-- Everything stands in a directory. -/
def IsTree (s : Store) : Prop :=
  ∀ x ∈ s.entries, s.isDirectory x.1.dropLast = true

instance (s : Store) : Decidable s.IsTree :=
  inferInstanceAs (Decidable (∀ x ∈ s.entries, s.isDirectory x.1.dropLast = true))

theorem isTree_iff :
    s.IsTree ↔ ∀ l, (s.entry? l).isSome = true → s.isDirectory l.dropLast = true := by
  constructor
  · intro htree l hsome
    rcases Option.isSome_iff_exists.mp hsome with ⟨e, he⟩
    by_cases hl : l = []
    · subst hl
      simp [isDirectory]
    · exact htree (l, e) (mem_of_entry?_eq_some hl he)
  · intro h x hx
    apply h
    unfold entry?
    split
    · rfl
    · rw [Option.isSome_iff_ne_none, Ne, List.lookup_eq_none_iff]
      intro hnone
      have hself := hnone x hx
      simp at hself

theorem IsTree.sameTree (htree : s.IsTree) (hsame : SameTree s t) : t.IsTree := by
  rw [isTree_iff] at htree ⊢
  intro l hsome
  rw [hsame l] at hsome
  rw [hsame.isDirectory_eq]
  exact htree l hsome

/-- Nothing is below a place that is free. -/
theorem IsTree.entry?_eq_none_of_prefix (htree : s.IsTree) (hfree : s.entry? l = none)
    (hlk : l <+: k) : s.entry? k = none := by
  rcases hlk with ⟨names, rfl⟩
  induction names using List.reverseRecOn with
  | nil => simpa using hfree
  | append_singleton names n ih =>
    by_contra hne
    have hdir := isTree_iff.mp htree (l ++ (names ++ [n])) (Option.isSome_iff_ne_none.mpr hne)
    rw [← List.append_assoc, List.dropLast_concat, isDirectory_iff, ih] at hdir
    cases hdir

/-! ## Walks -/

theorem walk_append (s : Store) (l : Location) (names more : List String) :
    s.walk l (names ++ more) = (s.walk l names).bind (fun k => s.walk k more) := by
  fun_induction s.walk l names <;> simp_all [walk, Except.bind, Nat.not_lt.mpr]

/-- A walk comes to the same place wherever the directories are still there. -/
theorem walk_mono (hdirs : ∀ m, s.isDirectory m = true → t.isDirectory m = true)
    {names : List String} (h : s.walk l names = .ok k) : t.walk l names = .ok k := by
  fun_induction s.walk l names <;> simp_all [walk, isDirectory]

end WasmPackage.Store
