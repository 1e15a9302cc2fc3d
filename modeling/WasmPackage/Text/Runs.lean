/-!
# Runs of characters

A property of characters is kept as the list of its runs: first and last code point of each, in
order.  Looking a code point up reads the list as far as the run that could hold it.
-/

namespace WasmPackage

/-- Does a code point lie in one of the runs? -/
def inRuns (n : Nat) : List (Nat × Nat) → Bool
  | [] => false
  | (first, last) :: r => if n < first then false else n ≤ last || inRuns n r

/-- The distance of a code point from the start of its run, if it lies in one. -/
def offsetInRuns? (n : Nat) : List (Nat × Nat) → Option Nat
  | [] => none
  | (first, last) :: r =>
    if n < first then none else if n ≤ last then some (n - first) else offsetInRuns? n r

theorem isSome_offsetInRuns? (n : Nat) (runs : List (Nat × Nat)) :
    (offsetInRuns? n runs).isSome = inRuns n runs := by
  induction runs with
  | nil => rfl
  | cons run r ih =>
    obtain ⟨first, last⟩ := run
    unfold offsetInRuns? inRuns
    split
    · rfl
    · by_cases h : n ≤ last <;> simp [h, ih]

end WasmPackage
