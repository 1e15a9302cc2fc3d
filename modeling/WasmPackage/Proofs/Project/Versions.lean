import Mathlib.Data.List.DropRight
import Mathlib.Data.Prod.Lex
import WasmPackage.Project.Version
import WasmPackage.Proofs.Text.Classes
import WasmPackage.Proofs.Text.Trimming

/-!
# How versions are read

The texts that begin with a version, said by their parts: blanks, perhaps an equals sign and a
letter, and three runs of digits with points between them.  The readers find exactly those parts.
Only the numbers can fail to be read, and they do exactly if a run has too many digits.
-/

namespace WasmPackage

/-- A decimal digit is not a blank. -/
theorem isBlank_of_isDecimal {c : Char} (h : isDecimal c = true) : isBlank c = false := by
  by_contra hblank
  have hnot := isLetterOrNumeral_of_isBlank (by simpa using hblank)
  rw [isLetterOrNumeral_of_isDigit (by simp [isDigit, h])] at hnot
  cases hnot

namespace Version

variable {t rest ds : Text} {w : Written} {v : Version} {raw : String} {equals : Bool}

/-! ## Runs of digits -/

/-- The text is some decimal digits, and nothing else. -/
structure IsNumeral (ds : Text) : Prop where
  nonempty : ds ≠ []
  digits : ∀ d ∈ ds, isDecimal d = true

/-- The number that decimal digits of any script write, however many there are. -/
def numeralValue (ds : Text) : Nat :=
  ds.foldl (fun n d => 10 * n + (decimalValue? d).getD 0) 0

theorem IsNumeral.exists_eq_cons (h : IsNumeral ds) :
    ∃ d r, ds = d :: r ∧ isDecimal d = true := by
  cases ds with
  | nil => exact (h.nonempty rfl).elim
  | cons d r => exact ⟨d, r, rfl, h.digits d List.mem_cons_self⟩

theorem IsNumeral.takeWhile_append (h : IsNumeral ds) (hrest : rest.head?.any isDecimal = false) :
    (ds ++ rest).takeWhile isDecimal = ds := by
  have hself : ds.takeWhile isDecimal = ds := List.takeWhile_eq_self_iff.mpr h.digits
  have happend := @takeWhile_append_of_head? isDecimal ds rest hrest
  rwa [hself] at happend

theorem digits?_eq_some_iff : digits? t = some (ds, rest) ↔
    IsNumeral ds ∧ t = ds ++ rest ∧ rest.head?.any isDecimal = false := by
  unfold digits?
  constructor
  · intro h
    dsimp only at h
    split at h
    · cases h
    · next hempty =>
      cases h
      refine ⟨⟨by simpa using hempty, fun d hd => List.mem_takeWhile_imp hd⟩, ?_,
        any_head?_drop_takeWhile isDecimal t⟩
      rw [drop_takeWhile, List.takeWhile_append_dropWhile]
  · rintro ⟨hds, rfl, hrest⟩
    have htake := hds.takeWhile_append hrest
    simp [htake, hds.nonempty]

theorem behindPoint?_eq_some_iff : behindPoint? t = some rest ↔ t = '.' :: rest := by
  unfold behindPoint?
  split
  · simp
  · next hnot =>
    constructor
    · nofun
    · rintro rfl
      exact (hnot rest rfl).elim

/-! ## Written versions -/

namespace Written

/-- The text of a written version. -/
def text (w : Written) : Text :=
  w.major ++ '.' :: (w.minor ++ '.' :: w.patch)

/-- The version that is written out, with numbers of any length. -/
def value (w : Written) : Version :=
  ⟨numeralValue w.major, numeralValue w.minor, numeralValue w.patch⟩

/-- Each number of the version is written with digits. -/
structure IsNumeric (w : Written) : Prop where
  major : IsNumeral w.major
  minor : IsNumeral w.minor
  patch : IsNumeral w.patch

/-- No number of the version has too many digits to be read. -/
structure IsShort (w : Written) : Prop where
  major : w.major.length ≤ Decimal.mostDigits
  minor : w.minor.length ≤ Decimal.mostDigits
  patch : w.patch.length ≤ Decimal.mostDigits

/-- A written version begins with a digit. -/
theorem IsNumeric.exists_text_eq_cons (h : w.IsNumeric) :
    ∃ d r, w.text = d :: r ∧ isDecimal d = true := by
  rcases h.major.exists_eq_cons with ⟨d, r, hmajor, hd⟩
  exact ⟨d, _, by rw [text, hmajor, List.cons_append], hd⟩

end Written

theorem number_eq_ok (h : ds.length ≤ Decimal.mostDigits) : number ds = .ok (numeralValue ds) :=
  if_pos h

theorem number_eq_error (h : ¬ds.length ≤ Decimal.mostDigits) :
    number ds = .error (.tooLongToRead ds.length) :=
  if_neg h

theorem Written.version_eq_ok (h : w.IsShort) : w.version = .ok w.value := by
  rw [Written.version, number_eq_ok h.major, number_eq_ok h.minor, number_eq_ok h.patch]
  rfl

theorem Written.version_eq_error (h : ¬w.IsShort) : ∃ e, w.version = .error e := by
  by_cases hmajor : w.major.length ≤ Decimal.mostDigits
  · by_cases hminor : w.minor.length ≤ Decimal.mostDigits
    · have hpatch : ¬w.patch.length ≤ Decimal.mostDigits := fun hpatch =>
        h ⟨hmajor, hminor, hpatch⟩
      rw [Written.version, number_eq_ok hmajor, number_eq_ok hminor, number_eq_error hpatch]
      exact ⟨_, rfl⟩
    · rw [Written.version, number_eq_ok hmajor, number_eq_error hminor]
      exact ⟨_, rfl⟩
  · rw [Written.version, number_eq_error hmajor]
    exact ⟨_, rfl⟩

theorem written?_eq_some_iff : written? t = some (w, rest) ↔
    w.IsNumeric ∧ t = w.text ++ rest ∧ rest.head?.any isDecimal = false := by
  -- the points end the first two runs; what ends the third is a condition on the rest
  have hpoint (r : Text) : ('.' :: r).head?.any isDecimal = false := rfl
  unfold written?
  simp only [Option.bind_eq_bind, Option.bind_eq_some_iff, Prod.exists, digits?_eq_some_iff,
    behindPoint?_eq_some_iff, Option.pure_def, Option.some.injEq, Prod.mk.injEq]
  constructor
  · rintro ⟨major, _, ⟨hmajor, rfl, -⟩, _, rfl, minor, _, ⟨hminor, rfl, -⟩, _, rfl, patch, _,
      ⟨hpatch, rfl, hrest⟩, rfl, rfl⟩
    exact ⟨⟨hmajor, hminor, hpatch⟩, by simp [Written.text], hrest⟩
  · rintro ⟨⟨hmajor, hminor, hpatch⟩, rfl, hrest⟩
    exact ⟨w.major, _, ⟨hmajor, by simp [Written.text], hpoint _⟩, _, rfl, w.minor, _,
      ⟨hminor, rfl, hpoint _⟩, _, rfl, w.patch, rest, ⟨hpatch, rfl, hrest⟩, rfl, rfl⟩

/-! ## What stands in front of a version -/

/-- What may stand in front of a version: blanks, perhaps with an equals sign among them, and
perhaps a letter `v` behind them. -/
def IsFront (equals : Bool) (front : Text) : Prop :=
  ∃ gap gap' letter : Text, (∀ c ∈ gap, isBlank c = true) ∧ (∀ c ∈ gap', isBlank c = true) ∧
    (letter = [] ∨ letter = ['v']) ∧
    front = gap ++ (if equals then '=' :: gap' else []) ++ letter

/-- The text begins with the version, and the rest does not begin with a digit. -/
def Begins (equals : Bool) (t : Text) (w : Written) (rest : Text) : Prop :=
  ∃ front, IsFront equals front ∧ w.IsNumeric ∧ t = front ++ (w.text ++ rest) ∧
    rest.head?.any isDecimal = false

/-- The text begins with a version of this value. -/
def Reads (raw : String) (v : Version) : Prop :=
  ∃ equals w rest, Begins equals raw.toList w rest ∧ w.value = v

/-- The text is a version behind an equals sign, and nothing else but blanks. -/
def Pins (raw : String) : Prop :=
  ∃ w rest, Begins true raw.toList w rest ∧ ∀ c ∈ rest, isBlank c = true

/-- Where a version begins, perhaps behind a letter `v`. -/
def BeginsHere (t : Text) (w : Written) (rest : Text) : Prop :=
  ∃ letter : Text, (letter = [] ∨ letter = ['v']) ∧ w.IsNumeric ∧ t = letter ++ (w.text ++ rest) ∧
    rest.head?.any isDecimal = false

theorem written?_dropLetter_eq_some_iff :
    written? (dropLetter t) = some (w, rest) ↔ BeginsHere t w rest := by
  rw [written?_eq_some_iff]
  constructor
  · rintro ⟨hw, ht, hrest⟩
    unfold dropLetter at ht
    split at ht
    · exact ⟨['v'], Or.inr rfl, hw, by rw [ht, List.singleton_append], hrest⟩
    · exact ⟨[], Or.inl rfl, hw, ht, hrest⟩
  · rintro ⟨letter, rfl | rfl, hw, rfl, hrest⟩
    · refine ⟨hw, ?_, hrest⟩
      rcases hw.exists_text_eq_cons with ⟨d, r, htext, hd⟩
      rw [List.nil_append, htext, List.cons_append, dropLetter]
      -- a letter is not a digit
      rintro r' ⟨⟩
      exact absurd hd (by decide +kernel)
    · exact ⟨hw, rfl, hrest⟩

/-- What begins with a version begins neither with a blank nor with an equals sign. -/
theorem BeginsHere.head? (h : BeginsHere t w rest) :
    ∃ c r, t = c :: r ∧ isBlank c = false ∧ c ≠ '=' := by
  rcases h with ⟨letter, rfl | rfl, hw, rfl, -⟩
  · rcases hw.exists_text_eq_cons with ⟨d, r, htext, hd⟩
    refine ⟨d, r ++ rest, by rw [htext]; rfl, isBlank_of_isDecimal hd, ?_⟩
    rintro rfl
    exact absurd hd (by decide +kernel)
  · exact ⟨'v', w.text ++ rest, rfl, rfl, by decide⟩

theorem BeginsHere.trimStart_append (h : BeginsHere t w rest) {gap : Text}
    (hgap : ∀ c ∈ gap, isBlank c = true) : Text.trimStart (gap ++ t) = t := by
  rcases h.head? with ⟨c, r, rfl, hc, -⟩
  exact Text.trimStart_append hgap (by simpa using hc)

theorem begins_true_iff : Begins true t w rest ↔
    ∃ r, t.trimStart = '=' :: r ∧ BeginsHere (Text.trimStart r) w rest := by
  constructor
  · rintro ⟨_, ⟨gap, gap', letter, hgap, hgap', hletter, rfl⟩, hw, rfl, hrest⟩
    have hhere : BeginsHere (letter ++ (w.text ++ rest)) w rest := ⟨letter, hletter, hw, rfl, hrest⟩
    refine ⟨gap' ++ (letter ++ (w.text ++ rest)), ?_, ?_⟩
    · rw [if_pos rfl, List.append_assoc, List.append_assoc]
      exact (Text.trimStart_append hgap rfl).trans (by simp)
    · rwa [hhere.trimStart_append hgap']
  · rintro ⟨r, ht, letter, hletter, hw, hr, hrest⟩
    refine ⟨_, ⟨t.takeWhile isBlank, r.takeWhile isBlank, letter,
      fun c hc => List.mem_takeWhile_imp hc, fun c hc => List.mem_takeWhile_imp hc, hletter, rfl⟩,
      hw, ?_, hrest⟩
    calc t = t.takeWhile isBlank ++ t.trimStart := List.takeWhile_append_dropWhile.symm
      _ = t.takeWhile isBlank ++ '=' :: (r.takeWhile isBlank ++ Text.trimStart r) := by
        rw [ht, Text.trimStart, List.takeWhile_append_dropWhile]
      _ = _ := by rw [hr, if_pos rfl]; simp

theorem begins_false_iff : Begins false t w rest ↔ BeginsHere t.trimStart w rest := by
  constructor
  · rintro ⟨_, ⟨gap, gap', letter, hgap, -, hletter, rfl⟩, hw, rfl, hrest⟩
    have hhere : BeginsHere (letter ++ (w.text ++ rest)) w rest := ⟨letter, hletter, hw, rfl, hrest⟩
    have htext : gap ++ (if false then '=' :: gap' else []) ++ letter ++ (w.text ++ rest) =
        gap ++ (letter ++ (w.text ++ rest)) := by simp
    rw [htext, hhere.trimStart_append hgap]
    exact hhere
  · rintro ⟨letter, hletter, hw, ht, hrest⟩
    refine ⟨_, ⟨t.takeWhile isBlank, [], letter, fun c hc => List.mem_takeWhile_imp hc, nofun,
      hletter, rfl⟩, hw, ?_, hrest⟩
    calc t = t.takeWhile isBlank ++ t.trimStart := List.takeWhile_append_dropWhile.symm
      _ = _ := by rw [ht]; simp

/-! ## The readers -/

theorem written?_front_eq_some_iff :
    written? (dropLetter (dropEquals t.trimStart).trimStart) = some (w, rest) ↔
      ∃ equals, Begins equals t w rest := by
  rw [written?_dropLetter_eq_some_iff]
  by_cases hequals : ∃ r, t.trimStart = '=' :: r
  · rcases hequals with ⟨r, ht⟩
    rw [ht, dropEquals]
    constructor
    · intro h
      exact ⟨true, begins_true_iff.mpr ⟨r, ht, h⟩⟩
    · rintro ⟨_ | _, h⟩
      · have hhere := begins_false_iff.mp h
        rcases hhere.head? with ⟨c, r', ht', -, hc⟩
        rw [ht, List.cons.injEq] at ht'
        exact (hc ht'.1.symm).elim
      · rcases begins_true_iff.mp h with ⟨r', ht', hhere⟩
        rw [ht, List.cons.injEq] at ht'
        rwa [ht'.2]
  · -- without an equals sign the two runs of blanks are one
    have hdrop : dropEquals t.trimStart = t.trimStart := by
      unfold dropEquals
      split
      · next r ht => exact (hequals ⟨r, ht⟩).elim
      · rfl
    have htwice : t.trimStart.trimStart = t.trimStart := List.dropWhile_idempotent _ t
    rw [hdrop, htwice]
    constructor
    · intro h
      exact ⟨false, begins_false_iff.mpr h⟩
    · rintro ⟨_ | _, h⟩
      · exact begins_false_iff.mp h
      · rcases begins_true_iff.mp h with ⟨r, ht, -⟩
        exact (hequals ⟨r, ht⟩).elim

/-- A text begins with one version at most. -/
theorem Begins.unique {equals' : Bool} {rest' : Text} (h : Begins equals t w rest)
    (h' : Begins equals' t w' rest') : w = w' ∧ rest = rest' := by
  have hfound := written?_front_eq_some_iff.mpr ⟨equals, h⟩
  rw [written?_front_eq_some_iff.mpr ⟨equals', h'⟩] at hfound
  cases hfound
  exact ⟨rfl, rfl⟩

/-- The version of a text is read if all its numbers are short. -/
theorem parse?_eq_ok (h : Begins equals raw.toList w rest) (hshort : w.IsShort) :
    parse? raw = .ok (some w.value) := by
  unfold parse?
  simp only [written?_front_eq_some_iff.mpr ⟨equals, h⟩, Written.version_eq_ok hshort]
  rfl

theorem parse?_eq_error (h : Begins equals raw.toList w rest) (hlong : ¬w.IsShort) :
    ∃ e, parse? raw = .error e := by
  rcases Written.version_eq_error hlong with ⟨e, he⟩
  refine ⟨e, ?_⟩
  unfold parse?
  simp only [written?_front_eq_some_iff.mpr ⟨equals, h⟩, he]
  rfl

/-- A text that begins with no version is read as none. -/
theorem parse?_eq_none (h : ∀ v, ¬Reads raw v) : parse? raw = .ok none := by
  unfold parse?
  dsimp only
  split
  · next w rest hfound =>
    rcases written?_front_eq_some_iff.mp hfound with ⟨equals, hbegins⟩
    exact (h w.value ⟨equals, w, rest, hbegins, rfl⟩).elim
  · rfl

/-- The version that the text begins with, if there is one, has numbers that can be read. -/
def IsShort (raw : String) : Prop :=
  ∀ equals w rest, Begins equals raw.toList w rest → w.IsShort

/-- A text that is short itself has short numbers. -/
theorem isShort_of_length (h : raw.toList.length ≤ Decimal.mostDigits) : IsShort raw := by
  rintro equals w rest ⟨front, -, -, ht, -⟩
  rw [ht, Written.text] at h
  simp only [List.length_append, List.length_cons] at h
  constructor <;> omega

theorem parse?_of_isShort (h : IsShort raw) :
    (∃ v, Reads raw v ∧ parse? raw = .ok (some v)) ∨
      (∀ v, ¬Reads raw v) ∧ parse? raw = .ok none := by
  by_cases hreads : ∃ v, Reads raw v
  · rcases hreads with ⟨v, hreads⟩
    have hread := hreads
    rcases hreads with ⟨equals, w, rest, hbegins, rfl⟩
    exact Or.inl ⟨w.value, hread, parse?_eq_ok hbegins (h equals w rest hbegins)⟩
  · rw [not_exists] at hreads
    exact Or.inr ⟨hreads, parse?_eq_none hreads⟩

theorem parse?_of_not_isShort (h : ¬IsShort raw) : ∃ e, parse? raw = .error e := by
  unfold IsShort at h
  push Not at h
  rcases h with ⟨equals, w, rest, hbegins, hlong⟩
  exact parse?_eq_error hbegins hlong

theorem Reads.unique {v' : Version} (h : Reads raw v) (h' : Reads raw v') : v = v' := by
  rcases h with ⟨_, w, _, hbegins, rfl⟩
  rcases h' with ⟨_, w', _, hbegins', rfl⟩
  rw [(hbegins.unique hbegins').1]

theorem Pins.reads (h : Pins raw) : ∃ v, Reads raw v := by
  rcases h with ⟨w, rest, hbegins, -⟩
  exact ⟨w.value, true, w, rest, hbegins, rfl⟩

theorem isPin_iff : isPin raw = true ↔ Pins raw := by
  unfold Pins
  simp only [begins_true_iff]
  unfold isPin
  split
  · next r ht =>
    constructor
    · intro h
      split at h
      · next w rest hfound =>
        exact ⟨w, rest, ⟨r, ht, written?_dropLetter_eq_some_iff.mp hfound⟩, List.all_eq_true.mp h⟩
      · cases h
    · rintro ⟨w, rest, ⟨r', ht', hhere⟩, hrest⟩
      rw [ht, List.cons.injEq] at ht'
      rcases ht' with ⟨-, rfl⟩
      simp only [written?_dropLetter_eq_some_iff.mpr hhere]
      exact List.all_eq_true.mpr hrest
  · next hnot =>
    apply iff_of_false
    · nofun
    · rintro ⟨w, rest, ⟨r, ht, -⟩, -⟩
      exact hnot r ht

/-! ## The order of versions -/

/-- The numbers of a version, in the order in which they count. -/
def numbers (v : Version) : Nat ×ₗ Nat ×ₗ Nat :=
  toLex (v.major, toLex (v.minor, v.patch))

theorem less_iff {v w : Version} : v.less w = true ↔ v.numbers < w.numbers := by
  simp only [less, numbers, Prod.Lex.toLex_lt_toLex, Bool.or_eq_true, Bool.and_eq_true,
    decide_eq_true_eq]

/-- The version is one of those that the passes know: `0.2.25` and later, before `0.2.40`. -/
def IsKnown (v : Version) : Prop :=
  toLex (0, toLex (2, 25)) ≤ v.numbers ∧ v.numbers < toLex (0, toLex (2, 40))

theorem isSupported_iff : v.isSupported = true ↔ v.IsKnown := by
  have hfirst : toLex (0, toLex (2, 25)) = firstSupported.numbers := rfl
  have hlast : toLex (0, toLex (2, 40)) = firstUnsupported.numbers := rfl
  unfold IsKnown isSupported
  rw [hfirst, hlast, ← not_lt, ← less_iff, ← less_iff]
  simp

end Version

end WasmPackage
