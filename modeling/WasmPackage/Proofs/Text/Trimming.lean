import WasmPackage.Proofs.Text.Runs

/-!
# Trimming

Trimming takes the blanks at both ends of a text away and nothing else.  So a trimmed text is what
is left of it with any blanks around it.
-/

namespace WasmPackage.Text

variable {t u gap rest : Text}

/-- A text begins with the blanks in front of the first character that is none. -/
theorem trimStart_append (hgap : ∀ c ∈ gap, WasmPackage.isBlank c = true)
    (ht : t.head?.any WasmPackage.isBlank = false) : trimStart (gap ++ t) = t := by
  rw [trimStart, List.dropWhile_append_of_pos hgap]
  cases t with
  | nil => rfl
  | cons c r => simpa using ht

/-- A text is what is left of it by trimming, with blanks around it. -/
theorem exists_eq_trim (t : Text) : ∃ rest : Text, (∀ c ∈ rest, WasmPackage.isBlank c = true) ∧
    t = t.takeWhile WasmPackage.isBlank ++ (t.trim ++ rest) := by
  -- trimming reads the text from its start and then, backwards, from its end
  refine ⟨(t.trimStart.reverse.takeWhile WasmPackage.isBlank).reverse,
    fun c hc => List.mem_takeWhile_imp (List.mem_reverse.mp hc), ?_⟩
  rw [trim, trimEnd, ← List.reverse_append, List.takeWhile_append_dropWhile, List.reverse_reverse,
    trimStart, List.takeWhile_append_dropWhile]

/-- Blanks around a text that neither begins nor ends with one are trimmed, and nothing else. -/
theorem trim_between (hgap : ∀ c ∈ gap, WasmPackage.isBlank c = true)
    (hrest : ∀ c ∈ rest, WasmPackage.isBlank c = true)
    (hfirst : ∃ c r, u = c :: r ∧ WasmPackage.isBlank c = false)
    (hlast : ∃ d, u.getLast? = some d ∧ WasmPackage.isBlank d = false) :
    trim (gap ++ (u ++ rest)) = u := by
  have hstart : trimStart (gap ++ (u ++ rest)) = u ++ rest := by
    apply trimStart_append hgap
    rcases hfirst with ⟨c, r, rfl, hc⟩
    simpa using hc
  have hend : trimStart (rest.reverse ++ u.reverse) = u.reverse := by
    apply trimStart_append (fun c hc => hrest c (List.mem_reverse.mp hc))
    rcases hlast with ⟨d, hd, hblank⟩
    rw [List.head?_reverse, hd]
    simpa using hblank
  rw [trim, hstart, trimEnd, List.reverse_append]
  change (trimStart (rest.reverse ++ u.reverse)).reverse = u
  rw [hend, List.reverse_reverse]

theorem trimEnd_prefix : u.trimEnd <+: u := by
  have hsuffix :=
    List.reverse_prefix.mpr (List.dropWhile_suffix (l := u.reverse) WasmPackage.isBlank)
  rwa [List.reverse_reverse] at hsuffix

/-- No blank is left at the ends of a trimmed text. -/
theorem ends_of_trim_eq (htrim : u.trim = u) (hu : u ≠ []) :
    (∃ c r, u = c :: r ∧ WasmPackage.isBlank c = false) ∧
      ∃ d, u.getLast? = some d ∧ WasmPackage.isBlank d = false := by
  constructor
  · -- the first character is that of the text without the blanks in front
    have hprefix : u.trim <+: u.trimStart := trimEnd_prefix
    rw [htrim] at hprefix
    rcases hprefix with ⟨v, hv⟩
    rcases List.exists_cons_of_ne_nil hu with ⟨c, r, hcons⟩
    have hhead := List.head?_dropWhile_not WasmPackage.isBlank u
    have hstart : u.dropWhile WasmPackage.isBlank = c :: (r ++ v) := by
      rw [← List.cons_append, ← hcons, hv, trimStart]
    rw [hstart] at hhead
    exact ⟨c, r, hcons, by simpa using hhead⟩
  · have hend : u.trimStart.reverse.dropWhile WasmPackage.isBlank = u.reverse :=
      List.reverse_eq_iff.mp htrim
    have hhead := List.head?_dropWhile_not WasmPackage.isBlank u.trimStart.reverse
    rw [hend, List.head?_reverse] at hhead
    have hd := List.getLast?_eq_some_getLast hu
    rw [hd] at hhead
    exact ⟨u.getLast hu, hd, by simpa using hhead⟩

/-- A trimmed text is left of it with any blanks around it. -/
theorem trim_append (htrim : u.trim = u) (hu : u ≠ [])
    (hgap : ∀ c ∈ gap, WasmPackage.isBlank c = true)
    (hrest : ∀ c ∈ rest, WasmPackage.isBlank c = true) : trim (gap ++ (u ++ rest)) = u := by
  rcases ends_of_trim_eq htrim hu with ⟨hfirst, hlast⟩
  exact trim_between hgap hrest hfirst hlast

end WasmPackage.Text
