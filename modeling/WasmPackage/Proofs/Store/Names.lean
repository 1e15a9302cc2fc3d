import Mathlib.Data.List.Basic
import WasmPackage.Package.Outputs

/-!
# Names in paths

A plain name is one that a file can have: it is read back as the one name that it is.  The names of
staged outputs, and those of temporary directories, are plain and are kept apart by their numbers.
-/

namespace WasmPackage.Path

/-! ## Plain names -/

/-- The name leads to a place in the directory that it is looked up in, and to no other. -/
def IsPlain (n : String) : Prop :=
  n ≠ "" ∧ n ≠ "." ∧ n ≠ ".." ∧ '/' ∉ n.toList

instance (n : String) : Decidable (IsPlain n) :=
  inferInstanceAs (Decidable (n ≠ "" ∧ n ≠ "." ∧ n ≠ ".." ∧ '/' ∉ n.toList))

theorem isPlain_of_length {n : String} (hslash : '/' ∉ n.toList) (hlong : 2 < n.length) :
    IsPlain n := by
  refine ⟨?_, ?_, ?_, hslash⟩
  · rintro rfl
    exact absurd hlong (by decide)
  · rintro rfl
    exact absurd hlong (by decide)
  · rintro rfl
    exact absurd hlong (by decide)

theorem isPlain_append {a b : String} (ha : '/' ∉ a.toList) (hb : '/' ∉ b.toList)
    (hlong : 2 < b.length) : IsPlain (a ++ b) := by
  apply isPlain_of_length
  · simp [ha, hb]
  · rw [String.length_append]
    omega

/-! ## Reading a path -/

theorem takeWhile_slash_eq_nil {t : Text} (ht : '/' ∉ t) : t.takeWhile (· = '/') = [] := by
  cases t with
  | nil => rfl
  | cons c r =>
    simp only [List.mem_cons, not_or] at ht
    simp [Ne.symm ht.1]

/-- A text without slashes goes to the last piece of what stands before it. -/
theorem exists_pieces_append (t : Text) :
    ∃ before last, '/' ∉ last ∧ ∀ u : Text, '/' ∉ u → pieces (t ++ u) = before ++ [last ++ u] := by
  induction t with
  | nil =>
    refine ⟨[], [], by simp, ?_⟩
    intro u hu
    induction u with
    | nil => simp [pieces]
    | cons c u ih =>
      simp only [List.mem_cons, not_or] at hu
      have hrest := ih hu.2
      simp only [List.nil_append] at hrest ⊢
      simp [pieces, hrest, Ne.symm hu.1]
  | cons c t ih =>
    rcases ih with ⟨before, last, hlast, happend⟩
    -- a slash begins a new piece; any other character goes to the first one
    by_cases hc : c = '/'
    · refine ⟨[] :: before, last, hlast, ?_⟩
      intro u hu
      simp [pieces, hc, happend u hu]
    · cases before with
      | nil =>
        refine ⟨[], c :: last, by simp [hlast, Ne.symm hc], ?_⟩
        intro u hu
        simp [pieces, hc, happend u hu]
      | cons first before =>
        refine ⟨(c :: first) :: before, last, hlast, ?_⟩
        intro u hu
        simp [pieces, hc, happend u hu]

/-- Strings that differ in a plain end only are read as paths that differ in the last name only. -/
theorem exists_ofString_append (s : String) :
    ∃ slashes before last, '/' ∉ last.toList ∧ ∀ u : String, '/' ∉ u.toList → 2 < u.length →
      (ofString (s ++ u)).slashes = slashes ∧
        (ofString (s ++ u)).parts.toList = before ++ [last ++ u] := by
  rcases exists_pieces_append s.toList with ⟨before, last, hlast, happend⟩
  let leading := (s.toList.takeWhile (· = '/')).length
  refine ⟨if leading = 2 then 2 else min leading 1,
    (before.map String.ofList).filter (fun p => p ≠ "" && p ≠ "."), String.ofList last, ?_, ?_⟩
  · simpa using hlast
  · intro u hu hlong
    have hplain : IsPlain (String.ofList last ++ u) :=
      isPlain_append (by simpa using hlast) hu hlong
    have hlastPiece : String.ofList (last ++ u.toList) = String.ofList last ++ u := by
      rw [← String.toList_inj]
      simp
    -- no slash of the end counts as a leading one
    have hleading : ((s ++ u).toList.takeWhile (· = '/')).length = leading := by
      rw [String.toList_append, List.takeWhile_append, takeWhile_slash_eq_nil hu]
      split
      · simp_all [leading]
      · rfl
    constructor
    · simp only [ofString, hleading]
    · simp [ofString, Names.filter, Names.ofStrings, piecesOf, happend u.toList hu, hlastPiece,
        hplain.1, hplain.2.1]

theorem pieces_of_notMem {t : Text} (ht : '/' ∉ t) : pieces t = [t] := by
  rcases exists_pieces_append [] with ⟨before, last, hlast, happend⟩
  have hpieces := happend [] (by simp)
  simp only [pieces, List.append_nil] at hpieces
  obtain ⟨rfl, rfl⟩ : before = [] ∧ last = [] := by
    cases before with
    | nil => simpa using hpieces.symm
    | cons p ps => simp at hpieces
  simpa using happend t ht

theorem ofString_of_isPlain {n : String} (hn : IsPlain n) : ofString n = ⟨0, [n]⟩ := by
  unfold ofString Names.ofStrings Names.filter
  simp [piecesOf, pieces_of_notMem hn.2.2.2, takeWhile_slash_eq_nil hn.2.2.2, hn.1, hn.2.1]

theorem toList_ofStrings_of_isPlain {n : String} (hn : IsPlain n) :
    (Names.ofStrings [n]).toList = [n] := by
  simp [Names.ofStrings, piecesOf, pieces_of_notMem hn.2.2.2]

theorem slashes_child_of_isPlain (p : Path) {n : String} (hn : IsPlain n) :
    (p.child n).slashes = p.slashes := by
  simp [child, join, isAbsolute, ofString_of_isPlain hn]

theorem parts_child_of_isPlain (p : Path) {n : String} (hn : IsPlain n) :
    (p.child n).parts.toList = p.parts.toList ++ [n] := by
  simp [child, join, isAbsolute, ofString_of_isPlain hn, toList_ofStrings_of_isPlain hn]

theorem name_child (p : Path) {n : String} (hn : IsPlain n) : (p.child n).name = n := by
  rw [name, parts_child_of_isPlain p hn, List.getLast?_concat, Option.getD_some]

theorem slash_notMem_name (p : Path) : '/' ∉ p.name.toList := by
  unfold name
  cases hlast : p.parts.toList.getLast? with
  | none => simp
  | some n => exact p.parts.noSlash n (List.mem_of_getLast? hlast)

/-- Paths to things whose names differ in a plain end only differ in the last name only. -/
theorem exists_child_append (p : Path) (name : String) :
    ∃ slashes before last, '/' ∉ last.toList ∧ ∀ u : String, '/' ∉ u.toList → 2 < u.length →
      (p.child (name ++ u)).slashes = slashes ∧
        (p.child (name ++ u)).parts.toList = before ++ [last ++ u] := by
  rcases exists_ofString_append name with ⟨slashes, before, last, hlast, hread⟩
  -- a name with leading slashes stands for itself, wherever it is looked for
  by_cases hroot : slashes = 0
  · refine ⟨p.slashes, p.parts.toList ++ before, last, hlast, ?_⟩
    intro u hu hlong
    simp [child, join, isAbsolute, hread u hu hlong, hroot]
  · refine ⟨slashes, before, last, hlast, ?_⟩
    intro u hu hlong
    simp [child, join, isAbsolute, hread u hu hlong, hroot]

end WasmPackage.Path

namespace WasmPackage

open WasmPackage.Path

/-! ## Numbered names -/

theorem isDigit_of_mem_toString {n : Nat} {c : Char} (hc : c ∈ (toString n).toList) :
    c.isDigit = true := by
  have hdigits : c ∈ Nat.toDigits 10 n := by
    rw [← Nat.toList_repr]
    exact hc
  exact Nat.isDigit_of_mem_toDigits (by decide) (by decide) hdigits

theorem isDigit_of_mem_paddedNumber {width n : Nat} {c : Char}
    (hc : c ∈ (paddedNumber width n).toList) : c.isDigit = true := by
  simp only [paddedNumber, String.toList_append, String.toList_ofList, List.mem_append,
    List.mem_replicate] at hc
  rcases hc with ⟨-, rfl⟩ | hc
  · decide
  · exact isDigit_of_mem_toString hc

/-- The name of a temporary directory is its stem with digits behind it. -/
theorem Store.exists_freshName_eq (s : Store) (l : Location) (stem : String) :
    ∃ digits : Text, (∀ c ∈ digits, c.isDigit = true) ∧
      (s.freshName l stem).toList = stem.toList ++ digits := by
  unfold Store.freshName
  cases hfind : (s.freshNumbers.map (fun n => stem ++ paddedNumber 8 n)).find?
      (fun n => (s.entry? (l ++ [n])).isNone) with
  | none =>
    refine ⟨[], by simp, ?_⟩
    simp [hfind]
  | some name =>
    rcases List.mem_map.mp (List.mem_of_find?_eq_some hfind) with ⟨n, -, rfl⟩
    refine ⟨(paddedNumber 8 n).toList, fun c hc => isDigit_of_mem_paddedNumber hc, ?_⟩
    simp [hfind]

theorem Store.isPlain_freshName (s : Store) (l : Location) {stem : String}
    (hslash : '/' ∉ stem.toList) (hlong : 2 < stem.length) : IsPlain (s.freshName l stem) := by
  rcases s.exists_freshName_eq l stem with ⟨digits, hdigits, hname⟩
  apply isPlain_of_length
  · rw [hname, List.mem_append, not_or]
    refine ⟨hslash, ?_⟩
    intro h
    exact absurd (hdigits _ h) (by decide)
  · rw [← String.length_toList] at hlong ⊢
    rw [hname, List.length_append]
    omega

theorem Store.isPlain_stagingName (s : Store) (l : Location) :
    IsPlain (s.freshName l ".wasm-polish-") :=
  s.isPlain_freshName l (by decide +kernel) (by decide +kernel)

/-- The name of a staging directory ends in a dash or a digit. -/
theorem Store.stagingName_ne_append (s : Store) (l : Location) (name : String) {u : String}
    (hu : u.toList.getLast?.any (fun c => !c.isDigit && c ≠ '-') = true) :
    s.freshName l ".wasm-polish-" ≠ name ++ u := by
  rcases s.exists_freshName_eq l ".wasm-polish-" with ⟨digits, hdigits, hname⟩
  intro hsame
  rw [hsame, String.toList_append] at hname
  cases hlast : u.toList.getLast? with
  | none => simp [hlast] at hu
  | some c =>
    simp only [hlast, Option.any_some, Bool.and_eq_true, decide_eq_true_iff] at hu
    have hends := congrArg List.getLast? hname
    rw [List.getLast?_append, hlast, Option.some_or, List.getLast?_append] at hends
    cases hd : digits.getLast? with
    | none =>
      have hstem : ".wasm-polish-".toList.getLast? = some '-' := by decide +kernel
      rw [hd, Option.none_or, hstem] at hends
      exact hu.2 (Option.some.inj hends)
    | some d =>
      rw [hd, Option.some_or] at hends
      cases Option.some.inj hends
      have hdigit := hdigits c (List.mem_of_getLast? hd)
      simp [hdigit] at hu

/-- The name of a staged output: its number and the name of its place. -/
def stagedName (index : Nat) (name : String) : String :=
  toString index ++ "-" ++ name

theorem stagedPath_eq (staging : Path) (index : Nat) (o : Output) :
    stagedPath staging index o = staging.child (stagedName index o.target.name) := by
  simp [stagedPath, stagedName, toString]

theorem notMem_stagedName {index : Nat} {name : String} {c : Char} (hdigit : c.isDigit = false)
    (hdash : c ≠ '-') (hname : c ∉ name.toList) : c ∉ (stagedName index name).toList := by
  intro hc
  simp only [stagedName, String.toList_append, List.mem_append] at hc
  rcases hc with (hc | hc) | hc
  · rw [isDigit_of_mem_toString hc] at hdigit
    cases hdigit
  · exact hdash (List.mem_singleton.mp hc)
  · exact hname hc

theorem isPlain_stagedName (index : Nat) (target : Path) :
    IsPlain (stagedName index target.name) := by
  have hdash : '-' ∈ (stagedName index target.name).toList := by simp [stagedName]
  refine ⟨?_, ?_, ?_, notMem_stagedName (by decide) (by decide) target.slash_notMem_name⟩
  · intro h
    exact absurd (h ▸ hdash) (by decide)
  · intro h
    exact absurd (h ▸ hdash) (by decide)
  · intro h
    exact absurd (h ▸ hdash) (by decide)

/-- Staged outputs are kept apart by their numbers. -/
theorem stagedName_ne {i j : Nat} (hij : i ≠ j) (a b : String) :
    stagedName i a ≠ stagedName j b := by
  have hnumber : ∀ (n : Nat) (name : String),
      (stagedName n name).toList.takeWhile (· ≠ '-') = Nat.toDigits 10 n := by
    intro n name
    have hdigits : (toString n).toList = Nat.toDigits 10 n := Nat.toList_repr
    have hnone : ∀ c ∈ Nat.toDigits 10 n, decide (c ≠ '-') = true := by
      intro c hc
      rw [decide_eq_true_iff]
      rintro rfl
      have hdash := Nat.isDigit_of_mem_toDigits (by decide) (by decide) hc
      exact absurd hdash (by decide)
    rw [stagedName, String.toList_append, String.toList_append, hdigits, List.append_assoc,
      List.takeWhile_append_of_pos hnone]
    simp
  intro h
  apply hij
  have hdigits : Nat.toDigits 10 i = Nat.toDigits 10 j := by
    rw [← hnumber i a, ← hnumber j b, h]
  have hvalue := congrArg (fun ds => Nat.ofDigitChars 10 ds 0) hdigits
  simpa using hvalue

end WasmPackage
