import Mathlib.Data.List.Basic
import WasmPackage.Text.Basic

/-!
# What is left of a text

A text without the characters at some of its offsets: the offsets are those of the text as it was
given, and `keptBefore` says where an offset comes to stand.
-/

namespace WasmPackage.Text

/-- The characters of a text whose first one stands at `pos`, without those at cut offsets. -/
def keptFrom (cut : Nat → Bool) (pos : Nat) : Text → Text
  | [] => []
  | c :: r => if cut pos then keptFrom cut (pos + 1) r else c :: keptFrom cut (pos + 1) r

/-- The text without the characters at cut offsets. -/
def kept (cut : Nat → Bool) (t : Text) : Text :=
  keptFrom cut 0 t

/-- The number of offsets before `pos` that are not cut. -/
def keptBefore (cut : Nat → Bool) : Nat → Nat
  | 0 => 0
  | pos + 1 => keptBefore cut pos + if cut pos then 0 else 1

variable {cut cut' : Nat → Bool} {pos m n : Nat} {a b t : Text}

/-! ## Where an offset comes to stand -/

theorem keptBefore_succ_of_kept (h : cut pos = false) :
    keptBefore cut (pos + 1) = keptBefore cut pos + 1 := by
  simp [keptBefore, h]

theorem keptBefore_succ_of_cut (h : cut pos = true) :
    keptBefore cut (pos + 1) = keptBefore cut pos := by
  simp [keptBefore, h]

theorem keptBefore_le_add (m n : Nat) : keptBefore cut m ≤ keptBefore cut (m + n) := by
  induction n with
  | zero => exact Nat.le_refl _
  | succ n ih => exact Nat.le_trans ih (Nat.le_add_right _ _)

theorem keptBefore_mono (h : m ≤ n) : keptBefore cut m ≤ keptBefore cut n := by
  rcases Nat.exists_eq_add_of_le h with ⟨k, rfl⟩
  exact keptBefore_le_add m k

/-- An offset that is kept comes to stand before all that are behind it. -/
theorem keptBefore_lt (hm : cut m = false) (h : m < n) : keptBefore cut m < keptBefore cut n := by
  have hstep : keptBefore cut (m + 1) = keptBefore cut m + 1 := keptBefore_succ_of_kept hm
  have hmono : keptBefore cut (m + 1) ≤ keptBefore cut n := keptBefore_mono h
  omega

theorem keptBefore_add_of_kept (h : ∀ i < n, cut (m + i) = false) :
    keptBefore cut (m + n) = keptBefore cut m + n := by
  induction n with
  | zero => rfl
  | succ n ih =>
    have hlast : cut (m + n) = false := h n (Nat.lt_succ_self n)
    have hfirst := ih (fun i hi => h i (Nat.lt_succ_of_lt hi))
    rw [← Nat.add_assoc, keptBefore_succ_of_kept hlast, hfirst, Nat.add_assoc]

theorem keptBefore_add_of_cut (h : ∀ i < n, cut (m + i) = true) :
    keptBefore cut (m + n) = keptBefore cut m := by
  induction n with
  | zero => rfl
  | succ n ih =>
    have hlast : cut (m + n) = true := h n (Nat.lt_succ_self n)
    rw [← Nat.add_assoc, keptBefore_succ_of_cut hlast, ih (fun i hi => h i (Nat.lt_succ_of_lt hi))]

/-- An offset that comes to stand before another one is before it. -/
theorem lt_of_keptBefore_lt (h : keptBefore cut m < keptBefore cut n) : m < n := by
  by_contra hle
  have hmono : keptBefore cut n ≤ keptBefore cut m := keptBefore_mono (Nat.not_lt.mp hle)
  omega

theorem keptBefore_le (n : Nat) : keptBefore cut n ≤ n := by
  induction n with
  | zero => exact Nat.le_refl _
  | succ n ih =>
    simp only [keptBefore]
    split <;> omega

/-- Behind a cut offset everything moves forward. -/
theorem keptBefore_lt_self (hm : cut m = true) (h : m < n) : keptBefore cut n < n := by
  induction n with
  | zero => omega
  | succ n ih =>
    rcases Nat.lt_succ_iff_lt_or_eq.mp h with hlt | rfl
    · have hn := ih hlt
      simp only [keptBefore]
      split <;> omega
    · have hle : keptBefore cut m ≤ m := keptBefore_le m
      rw [keptBefore_succ_of_cut hm]
      omega

/-! ## What is kept -/

@[simp] theorem keptFrom_nil : keptFrom cut pos [] = [] := rfl

theorem keptFrom_append :
    keptFrom cut pos (a ++ b) = keptFrom cut pos a ++ keptFrom cut (pos + a.length) b := by
  induction a generalizing pos with
  | nil => simp
  | cons c r ih =>
    have hpos : pos + (c :: r).length = pos + 1 + r.length := by
      simp only [List.length_cons]
      omega
    rw [hpos]
    by_cases h : cut pos <;> simp [keptFrom, h, ih]

theorem keptFrom_congr (h : ∀ i < t.length, cut (pos + i) = cut' (pos + i)) :
    keptFrom cut pos t = keptFrom cut' pos t := by
  induction t generalizing pos with
  | nil => rfl
  | cons c r ih =>
    have hfirst : cut pos = cut' pos := by simpa using h 0 (by simp)
    have hrest : keptFrom cut (pos + 1) r = keptFrom cut' (pos + 1) r := by
      apply ih
      intro i hi
      have := h (i + 1) (by simpa using hi)
      rwa [Nat.add_right_comm, Nat.add_assoc]
    simp only [keptFrom, hfirst, hrest]

theorem keptFrom_of_kept (h : ∀ i < t.length, cut (pos + i) = false) : keptFrom cut pos t = t := by
  induction t generalizing pos with
  | nil => rfl
  | cons c r ih =>
    have hfirst : cut pos = false := by simpa using h 0 (by simp)
    have hrest : keptFrom cut (pos + 1) r = r := by
      apply ih
      intro i hi
      have := h (i + 1) (by simpa using hi)
      rwa [Nat.add_right_comm, Nat.add_assoc]
    simp [keptFrom, hfirst, hrest]

theorem keptFrom_of_cut (h : ∀ i < t.length, cut (pos + i) = true) : keptFrom cut pos t = [] := by
  induction t generalizing pos with
  | nil => rfl
  | cons c r ih =>
    have hfirst : cut pos = true := by simpa using h 0 (by simp)
    simp only [keptFrom, hfirst, if_true]
    apply ih
    intro i hi
    have := h (i + 1) (by simpa using hi)
    rwa [Nat.add_right_comm, Nat.add_assoc]

theorem length_keptFrom :
    keptBefore cut pos + (keptFrom cut pos t).length = keptBefore cut (pos + t.length) := by
  induction t generalizing pos with
  | nil => rfl
  | cons c r ih =>
    have hr : keptBefore cut (pos + 1) + (keptFrom cut (pos + 1) r).length =
        keptBefore cut (pos + 1 + r.length) := ih
    have hpos : pos + (c :: r).length = pos + 1 + r.length := by
      simp only [List.length_cons]
      omega
    rw [hpos, ← hr]
    by_cases h : cut pos
    · simp [keptFrom, h, keptBefore_succ_of_cut h]
    · have h' : cut pos = false := by simpa using h
      simp only [keptFrom, h', keptBefore_succ_of_kept h', List.length_cons, Bool.false_eq_true,
        if_false]
      omega

theorem length_kept : (kept cut t).length = keptBefore cut t.length := by
  have h : keptBefore cut 0 + (keptFrom cut 0 t).length = keptBefore cut (0 + t.length) :=
    length_keptFrom
  simpa [keptBefore, kept] using h

/-- What is left is split where the text is. -/
theorem kept_eq_append (h : pos ≤ t.length) :
    kept cut t = keptFrom cut 0 (t.take pos) ++ keptFrom cut pos (t.drop pos) := by
  have hlength : (t.take pos).length = pos := List.length_take_of_le h
  have happend : keptFrom cut 0 (t.take pos ++ t.drop pos) =
      keptFrom cut 0 (t.take pos) ++ keptFrom cut (0 + (t.take pos).length) (t.drop pos) :=
    keptFrom_append
  rw [List.take_append_drop, hlength, Nat.zero_add] at happend
  exact happend

theorem length_keptFrom_take (h : pos ≤ t.length) :
    (keptFrom cut 0 (t.take pos)).length = keptBefore cut pos := by
  have hkept : keptBefore cut 0 + (keptFrom cut 0 (t.take pos)).length =
      keptBefore cut (0 + (t.take pos).length) := length_keptFrom
  have hlength : (t.take pos).length = pos := List.length_take_of_le h
  rw [hlength] at hkept
  simpa [keptBefore] using hkept

theorem drop_kept (h : pos ≤ t.length) :
    (kept cut t).drop (keptBefore cut pos) = keptFrom cut pos (t.drop pos) := by
  have hlength : (keptFrom cut 0 (t.take pos)).length = keptBefore cut pos :=
    length_keptFrom_take h
  rw [kept_eq_append h, ← hlength, List.drop_left]

theorem take_kept (h : pos ≤ t.length) :
    (kept cut t).take (keptBefore cut pos) = keptFrom cut 0 (t.take pos) := by
  have hlength : (keptFrom cut 0 (t.take pos)).length = keptBefore cut pos :=
    length_keptFrom_take h
  rw [kept_eq_append h, ← hlength, List.take_left]

/-- A character that is kept stands at its new place. -/
theorem getElem?_kept (hkept : cut pos = false) (h : pos < t.length) :
    (kept cut t)[keptBefore cut pos]? = t[pos]? := by
  have hbehind : (kept cut t).drop (keptBefore cut pos) = keptFrom cut pos (t.drop pos) :=
    drop_kept (Nat.le_of_lt h)
  have hdrop := congrArg List.head? hbehind
  rw [List.head?_drop, List.drop_eq_getElem_cons h] at hdrop
  rw [hdrop, List.getElem?_eq_getElem h]
  simp [keptFrom, hkept]

/-- Every place of what is left is that of a character that is kept. -/
theorem exists_kept_of_lt (h : m < keptBefore cut n) :
    ∃ i < n, cut i = false ∧ keptBefore cut i = m := by
  induction n with
  | zero => cases h
  | succ n ih =>
    cases hcut : cut n with
    | true =>
      rw [keptBefore_succ_of_cut hcut] at h
      rcases ih h with ⟨i, hi, hkept, hplace⟩
      exact ⟨i, Nat.lt_succ_of_lt hi, hkept, hplace⟩
    | false =>
      rw [keptBefore_succ_of_kept hcut] at h
      rcases Nat.lt_succ_iff_lt_or_eq.mp h with hlt | rfl
      · rcases ih hlt with ⟨i, hi, hkept, hplace⟩
        exact ⟨i, Nat.lt_succ_of_lt hi, hkept, hplace⟩
      · exact ⟨n, Nat.lt_succ_self n, hcut, rfl⟩

/-- Nothing is lost exactly when no offset of the text is cut. -/
theorem kept_eq_self_iff : kept cut t = t ↔ ∀ i < t.length, cut i = false := by
  constructor
  · intro h i hi
    by_contra hcut
    have hlength : keptBefore cut t.length = t.length := by rw [← length_kept, h]
    have hless : keptBefore cut t.length < t.length := keptBefore_lt_self (by simpa using hcut) hi
    omega
  · intro h
    exact keptFrom_of_kept (fun i hi => by simpa using h i hi)

end WasmPackage.Text
