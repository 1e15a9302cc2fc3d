import Mathlib.Data.List.Basic
import WasmPackage.Text.Classes

/-!
# Classes of characters

Blanks are neither letters nor numerals, and digits of all kinds are numerals.
-/

namespace WasmPackage

variable {c : Char} {n : Nat} {runs runs' : List (Nat × Nat)}

theorem exists_run_of_inRuns (h : inRuns n runs = true) : ∃ run ∈ runs, run.1 ≤ n ∧ n ≤ run.2 := by
  induction runs with
  | nil => cases h
  | cons run r ih =>
    rcases run with ⟨first, last⟩
    unfold inRuns at h
    split at h
    · cases h
    · rw [Bool.or_eq_true, decide_eq_true_eq] at h
      rcases h with h | h
      · exact ⟨(first, last), List.mem_cons_self, by omega, h⟩
      · rcases ih h with ⟨run, hrun, hin⟩
        exact ⟨run, List.mem_cons_of_mem _ hrun, hin⟩

/-- Runs whose code points are all in other runs. -/
theorem inRuns_of_forall
    (hall : ∀ run ∈ runs, ∀ k < run.2 + 1 - run.1, inRuns (run.1 + k) runs' = true)
    (h : inRuns n runs = true) : inRuns n runs' = true := by
  rcases exists_run_of_inRuns h with ⟨run, hrun, hfirst, hlast⟩
  have hin := hall run hrun (n - run.1) (by omega)
  rwa [Nat.add_sub_cancel' hfirst] at hin

theorem isLetterOrNumeral_of_isDigit (h : isDigit c = true) : isLetterOrNumeral c = true := by
  rw [isDigit, Bool.or_eq_true] at h
  rcases h with h | h
  · by_cases hc : c.toNat < 128
    · have hdigit : c.isDigit = true := by
        simp only [isDecimal, decimalValue?, hc, if_true] at h
        split at h
        · assumption
        · cases h
      exact isLetterOrNumeral_of_isAlphanum (by simp [Char.isAlphanum, hdigit])
    · simp [isLetterOrNumeral, hc, h]
  · have hother : inRuns c.toNat otherNumeralRuns = true := inRuns_of_forall (by decide) h
    -- no numeral of another kind is an ASCII character
    have hfirst : ∀ run ∈ otherNumeralRuns, 128 ≤ run.1 := by decide
    rcases exists_run_of_inRuns hother with ⟨run, hrun, hle, -⟩
    have hc : ¬ c.toNat < 128 := by
      have := hfirst run hrun
      omega
    simp [isLetterOrNumeral, hc, hother]

/-- The code points of the blanks. -/
def blankCodes : List Nat :=
  [9, 10, 11, 12, 13, 28, 29, 30, 31, 32, 0x85, 0xa0, 0x1680, 0x2000, 0x2001, 0x2002, 0x2003,
    0x2004, 0x2005, 0x2006, 0x2007, 0x2008, 0x2009, 0x200a, 0x2028, 0x2029, 0x202f, 0x205f, 0x3000]

theorem toNat_mem_blankCodes (h : isBlank c = true) : c.toNat ∈ blankCodes := by
  simp only [isBlank, Bool.or_eq_true, Bool.and_eq_true, decide_eq_true_eq, beq_iff_eq] at h
  simp only [blankCodes, List.mem_cons, List.not_mem_nil]
  omega

theorem isLetterOrNumeral_of_isBlank (h : isBlank c = true) : isLetterOrNumeral c = false := by
  have hall : ∀ n ∈ blankCodes, isLetterOrNumeral (Char.ofNat n) = false := by decide +kernel
  have hc := hall c.toNat (toNat_mem_blankCodes h)
  rwa [Char.ofNat_toNat] at hc

end WasmPackage
