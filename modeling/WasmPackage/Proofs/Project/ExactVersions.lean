import WasmPackage.Proofs.Project.Versions

/-!
# Exact versions

A text is exactly a version if nothing else stands in it: apart from the blanks around it, only an
equals sign and a letter may stand in front of the three numbers, and nothing behind them.  The
reader looks at the start of a text only, so it also reads the version of a text that goes on; the
main statement says for which texts it reads exactly the version that they are.
-/

namespace WasmPackage

namespace Version

variable {rest : Text} {w : Written} {v : Version} {raw : String} {equals : Bool}

/-- Apart from the blanks around it, the text is a version: perhaps an equals sign and blanks,
perhaps a letter `v`, and three numbers with points between them. -/
def IsExactly (raw : String) (v : Version) : Prop :=
  ∃ (equals gap letter : Text) (w : Written), (equals = [] ∨ equals = ['=']) ∧
    (∀ c ∈ gap, isBlank c = true) ∧ (letter = [] ∨ letter = ['v']) ∧ w.IsNumeric ∧ w.value = v ∧
    Text.trim raw.toList = equals ++ gap ++ letter ++ w.text

/-- The reader accepts the text as a version exactly if it is one, and as no other. -/
def IsReadExactly (raw : String) : Prop :=
  (∀ v, parse? raw = .ok (some v) ↔ IsExactly raw v) ∧
    ((∀ v, ¬IsExactly raw v) → parse? raw = .ok none)

/-- If the text begins with a version, only blanks come behind it, and its numbers are short. -/
def StandsAlone (raw : String) : Prop :=
  ∀ equals w rest, Begins equals raw.toList w rest → w.IsShort ∧ ∀ c ∈ rest, isBlank c = true

/-! ## Texts that are versions -/

/-- A written version ends with a digit. -/
theorem Written.IsNumeric.exists_getLast?_text (h : w.IsNumeric) :
    ∃ d, w.text.getLast? = some d ∧ isDecimal d = true := by
  have hne := h.patch.nonempty
  refine ⟨w.patch.getLast hne, ?_, h.patch.digits _ (List.getLast_mem hne)⟩
  simp [Written.text, List.getLast?_append, List.getLast?_cons, List.getLast?_eq_some_getLast hne]

/-- Blanks do not begin with a digit. -/
theorem any_isDecimal_head?_of_blanks (h : ∀ c ∈ rest, isBlank c = true) :
    rest.head?.any isDecimal = false := by
  cases rest with
  | nil => rfl
  | cons c r =>
    have hc : isDecimal c = false := by
      by_contra hdecimal
      have hnot := isBlank_of_isDecimal (by simpa using hdecimal)
      rw [h c List.mem_cons_self] at hnot
      cases hnot
    simpa using hc

theorem exists_begins_of_isExactly (h : IsExactly raw v) : ∃ equals w rest,
    Begins equals raw.toList w rest ∧ (∀ c ∈ rest, isBlank c = true) ∧ w.value = v := by
  rcases h with ⟨equals, gap', letter, w, hequals, hgap', hletter, hw, hv, htrim⟩
  obtain ⟨rest, hrest, ht⟩ := Text.exists_eq_trim raw.toList
  have hgap : ∀ c ∈ raw.toList.takeWhile isBlank, isBlank c = true :=
    fun c hc => List.mem_takeWhile_imp hc
  generalize raw.toList.takeWhile isBlank = gap at hgap ht
  have hhead := any_isDecimal_head?_of_blanks hrest
  rw [htrim] at ht
  rcases hequals with rfl | rfl
  · -- without an equals sign the blanks behind it are some of those in front
    have hblanks : ∀ c ∈ gap ++ gap', isBlank c = true :=
      List.forall_mem_append.mpr ⟨hgap, hgap'⟩
    refine ⟨false, w, rest, ⟨_, ⟨gap ++ gap', [], letter, hblanks, nofun, hletter, rfl⟩, hw, ?_,
      hhead⟩, hrest, hv⟩
    rw [ht]
    simp
  · refine ⟨true, w, rest, ⟨_, ⟨gap, gap', letter, hgap, hgap', hletter, rfl⟩, hw, ?_, hhead⟩,
      hrest, hv⟩
    rw [ht]
    simp

theorem Begins.isExactly (h : Begins equals raw.toList w rest)
    (hrest : ∀ c ∈ rest, isBlank c = true) : IsExactly raw w.value := by
  rcases h with ⟨_, ⟨gap, gap', letter, hgap, hgap', hletter, rfl⟩, hw, ht, -⟩
  have hlast (front : Text) : ∃ d, (front ++ w.text).getLast? = some d ∧ isBlank d = false := by
    rcases hw.exists_getLast?_text with ⟨d, hd, hdecimal⟩
    exact ⟨d, by rw [List.getLast?_append, hd]; rfl, isBlank_of_isDecimal hdecimal⟩
  cases equals with
  | false =>
    have hhere : BeginsHere (letter ++ (w.text ++ [])) w [] := ⟨letter, hletter, hw, rfl, rfl⟩
    rw [List.append_nil] at hhere
    rcases hhere.head? with ⟨c, r, hcons, hc, -⟩
    have htrim := Text.trim_between hgap hrest ⟨c, r, hcons, hc⟩ (hlast letter)
    refine ⟨[], [], letter, w, Or.inl rfl, nofun, hletter, hw, rfl, ?_⟩
    rw [ht]
    simpa using htrim
  | true =>
    have htrim := Text.trim_between hgap hrest ⟨'=', gap' ++ (letter ++ w.text), rfl, by decide⟩
      (by simpa using hlast ('=' :: (gap' ++ letter)))
    refine ⟨['='], gap', letter, w, Or.inr rfl, hgap', hletter, hw, rfl, ?_⟩
    rw [ht]
    simpa using htrim

/-- A text that is a version is one that begins with it and goes on with blanks only. -/
theorem isExactly_iff : IsExactly raw v ↔ ∃ equals w rest, Begins equals raw.toList w rest ∧
    (∀ c ∈ rest, isBlank c = true) ∧ w.value = v := by
  constructor
  · exact exists_begins_of_isExactly
  · rintro ⟨equals, w, rest, hbegins, hrest, rfl⟩
    exact hbegins.isExactly hrest

/-! ## What the reader accepts -/

/-- The reader takes the version at the start of a text, whatever comes behind it. -/
theorem parse?_eq_ok_some_iff : parse? raw = .ok (some v) ↔
    ∃ equals w rest, Begins equals raw.toList w rest ∧ w.IsShort ∧ w.value = v := by
  constructor
  · intro h
    by_cases hshort : IsShort raw
    · rcases parse?_of_isShort hshort with
        ⟨v', ⟨equals, w, rest, hbegins, rfl⟩, hparse⟩ | ⟨-, hparse⟩
      · cases hparse.symm.trans h
        exact ⟨equals, w, rest, hbegins, hshort equals w rest hbegins, rfl⟩
      · cases hparse.symm.trans h
    · rcases parse?_of_not_isShort hshort with ⟨e, hparse⟩
      cases hparse.symm.trans h
  · rintro ⟨equals, w, rest, hbegins, hshort, rfl⟩
    exact parse?_eq_ok hbegins hshort

theorem parse?_eq_ok_none_iff : parse? raw = .ok none ↔ ∀ v, ¬Reads raw v := by
  constructor
  · rintro h v ⟨equals, w, rest, hbegins, rfl⟩
    by_cases hshort : w.IsShort
    · cases (parse?_eq_ok hbegins hshort).symm.trans h
    · rcases parse?_eq_error hbegins hshort with ⟨e, hparse⟩
      cases hparse.symm.trans h
  · exact parse?_eq_none

/-- A text is read as exactly the version that it is, or as none if it is none, if and only if
nothing but blanks follows the version that it begins with, and no number of that is too long.  Any
text that begins with short numbers is read as their version, and one that begins with none as
none. -/
theorem parse?_isReadExactly_iff (raw : String) :
    (IsReadExactly raw ↔ StandsAlone raw) ∧
    (∀ v, parse? raw = .ok (some v) ↔
      ∃ equals w rest, Begins equals raw.toList w rest ∧ w.IsShort ∧ w.value = v) ∧
    (parse? raw = .ok none ↔ ∀ v, ¬Reads raw v) := by
  refine ⟨?_, fun v => parse?_eq_ok_some_iff, parse?_eq_ok_none_iff⟩
  constructor
  · rintro ⟨hexact, hnone⟩ equals w rest hbegins
    -- a text that begins with a version is read as one, so it has to be one
    by_cases hexists : ∃ v, IsExactly raw v
    · rcases hexists with ⟨v, hv⟩
      obtain ⟨_, w', rest', hbegins', hblank, -⟩ := isExactly_iff.mp hv
      obtain ⟨_, w'', rest'', hbegins'', hshort, -⟩ := parse?_eq_ok_some_iff.mp ((hexact v).mpr hv)
      rw [(hbegins.unique hbegins').2, (hbegins.unique hbegins'').1]
      exact ⟨hshort, hblank⟩
    · rw [not_exists] at hexists
      have hreads := parse?_eq_ok_none_iff.mp (hnone hexists)
      exact (hreads w.value ⟨equals, w, rest, hbegins, rfl⟩).elim
  · intro halone
    constructor
    · intro v
      -- both sides name the version at the start; only blanks may and do follow it
      rw [parse?_eq_ok_some_iff, isExactly_iff]
      constructor
      · rintro ⟨equals, w, rest, hbegins, -, hv⟩
        exact ⟨equals, w, rest, hbegins, (halone equals w rest hbegins).2, hv⟩
      · rintro ⟨equals, w, rest, hbegins, -, hv⟩
        exact ⟨equals, w, rest, hbegins, (halone equals w rest hbegins).1, hv⟩
    · intro hnone
      rw [parse?_eq_ok_none_iff]
      rintro v ⟨equals, w, rest, hbegins, hv⟩
      exact hnone v (isExactly_iff.mpr
        ⟨equals, w, rest, hbegins, (halone equals w rest hbegins).2, hv⟩)

/-- A text that goes on behind the version is no version, and yet it is read as one. -/
theorem not_isReadExactly_prerelease :
    parse? "0.2.29-alpha" = .ok (some ⟨0, 2, 29⟩) ∧ (∀ v, ¬IsExactly "0.2.29-alpha" v) ∧
      ¬IsReadExactly "0.2.29-alpha" := by
  have hread : parse? "0.2.29-alpha" = .ok (some ⟨0, 2, 29⟩) := by decide +kernel
  have hnumeral {run : Text} (hne : run ≠ []) (hall : run.all isDecimal = true) : IsNumeral run :=
    ⟨hne, List.all_eq_true.mp hall⟩
  have hnumeric : Written.IsNumeric ⟨['0'], ['2'], ['2', '9']⟩ :=
    ⟨hnumeral nofun rfl, hnumeral nofun rfl, hnumeral nofun rfl⟩
  have hbegins : Begins false "0.2.29-alpha".toList ⟨['0'], ['2'], ['2', '9']⟩ "-alpha".toList :=
    ⟨[], ⟨[], [], [], nofun, nofun, Or.inl rfl, rfl⟩, hnumeric, rfl, rfl⟩
  have hnone : ∀ v, ¬IsExactly "0.2.29-alpha" v := by
    intro v hv
    obtain ⟨_, w, rest, hbegins', hblank, -⟩ := isExactly_iff.mp hv
    rw [← (hbegins.unique hbegins').2] at hblank
    exact absurd (hblank '-' (by decide)) (by decide)
  exact ⟨hread, hnone, fun h => hnone _ ((h.1 _).mp hread)⟩

end Version

end WasmPackage
