import WasmPackage.SExpr.Basic

/-!
# What quoted strings stand for

A backslash is read with the one or two characters behind it.  If they name a character or its code
it stands for that, and otherwise for itself; codes have two digits, so each of them is the code of
a character.  So every string stands for exactly one text.
-/

namespace WasmPackage.SExpr

variable {c e : Char} {r u : Text} {n : Nat}

/-! ## Codes -/

theorem decimalValue?_lt (h : decimalValue? c = some n) : n < 10 := by
  unfold decimalValue? at h
  split at h
  · split at h
    · next hdigit =>
      cases h
      simp only [Char.isDigit, Bool.and_eq_true, decide_eq_true_eq,
        UInt32.le_iff_toNat_le] at hdigit
      have hlast : c.toNat ≤ 57 := hdigit.2
      omega
    · cases h
  · rcases Option.map_eq_some_iff.mp h with ⟨offset, -, rfl⟩
    exact Nat.mod_lt _ (by decide)

theorem hexValue?_lt (h : hexValue? c = some n) : n < 16 := by
  unfold hexValue? at h
  split at h
  · next hletter =>
    cases h
    have hlast : c.toNat ≤ 102 := hletter.2
    omega
  · split at h
    · next hletter =>
      cases h
      have hlast : c.toNat ≤ 70 := hletter.2
      omega
    · exact Nat.lt_trans (decimalValue?_lt h) (by decide)

/-- Two digits write a number below 256. -/
theorem hexNumber?_lt {digits : Text} (h : hexNumber? digits = some n) : n < 256 := by
  rcases digits with _ | ⟨a, _ | ⟨b, _ | ⟨d, r⟩⟩⟩
  · cases h
  · exact Nat.lt_trans (hexValue?_lt h) (by decide)
  · simp only [hexNumber?] at h
    cases ha : hexValue? a with
    | some x =>
      have hx := hexValue?_lt ha
      cases hb : hexValue? b with
      | some y =>
        have hy := hexValue?_lt hb
        simp only [ha, hb, Option.some.injEq] at h
        omega
      | none =>
        simp only [ha, hb, Option.ite_none_right_eq_some, Option.some.injEq] at h
        omega
    | none =>
      cases hb : hexValue? b with
      | some y =>
        have hy := hexValue?_lt hb
        simp only [ha, hb] at h
        split at h
        · cases h
          omega
        · simp only [Option.ite_none_right_eq_some, Option.some.injEq] at h
          omega
      | none =>
        simp only [ha, hb] at h
        cases h
  · cases h

/-- The number that an escape writes is the code of a character. -/
theorem toNat_ofNat_of_hexNumber? {digits : Text} (h : hexNumber? digits = some n) :
    (Char.ofNat n).toNat = n := by
  have hvalid : n.isValidChar := Or.inl (Nat.lt_trans (hexNumber?_lt h) (by decide))
  rw [Char.ofNat, dif_pos hvalid]
  rfl

/-! ## Escapes -/

/-- The second text is the first with its escapes undone: behind a backslash, the name of a
character or the digits of its code stand for that character. -/
inductive Unescapes : Text → Text → Prop
  | nil : Unescapes [] []
  | plain {c : Char} {r u : Text} (hc : c ≠ '\\') : Unescapes r u → Unescapes (c :: r) (c :: u)
  | named {c e : Char} {r u : Text} (he : namedEscape? c = some e) :
    Unescapes r u → Unescapes ('\\' :: c :: r) (e :: u)
  | coded {e : Char} {r u : Text} (hnone : r.head?.bind namedEscape? = none)
      (hcode : hexNumber? (r.take 2) = some e.toNat) :
    Unescapes (r.drop 2) u → Unescapes ('\\' :: r) (e :: u)
  | stray {r u : Text} (hnone : r.head?.bind namedEscape? = none)
      (hcode : hexNumber? (r.take 2) = none) :
    Unescapes r u → Unescapes ('\\' :: r) ('\\' :: u)

/-- A text stands for what it is with its escapes undone, whatever stands in it. -/
theorem unescapes_unescape (t : Text) : Unescapes t (unescape t) := by
  fun_induction unescape t
  case case1 => exact .nil
  case case2 => exact .stray rfl rfl .nil
  case case3 c r e he ih => exact .named he ih
  case case4 c hnone n hcode =>
    exact .coded hnone (hcode.trans (by rw [toNat_ofNat_of_hexNumber? hcode])) .nil
  case case5 c hnone hcode ih => exact .stray hnone hcode ih
  case case6 c hnone d r n hcode ih =>
    exact .coded hnone (hcode.trans (by rw [toNat_ofNat_of_hexNumber? hcode])) ih
  case case7 c hnone d r hcode ih => exact .stray hnone hcode ih
  case case8 c r hlast hescape ih =>
    refine .plain ?_ ih
    rintro rfl
    cases r with
    | nil => exact hlast rfl rfl
    | cons d r => exact hescape d r rfl rfl

/-- No text stands for two. -/
theorem Unescapes.unique {v : Text} (h : Unescapes r u) (h' : Unescapes r v) : u = v := by
  -- on how the first was read: the next step of the second can only be the same one
  induction h generalizing v with
  | nil =>
    cases h'
    rfl
  | plain hc h ih =>
    cases h' with
    | plain _ h' => rw [ih h']
    | named => exact absurd rfl hc
    | coded => exact absurd rfl hc
    | stray => exact absurd rfl hc
  | named he h ih =>
    cases h' with
    | plain hc => exact absurd rfl hc
    | named he' h' =>
      cases he.symm.trans he'
      rw [ih h']
    | coded hnone => cases he.symm.trans hnone
    | stray hnone => cases he.symm.trans hnone
  | coded hnone hcode h ih =>
    cases h' with
    | plain hc => exact absurd rfl hc
    | named he' => cases hnone.symm.trans he'
    | coded _ hcode' h' =>
      rw [ih h', Char.toNat_inj.mp (Option.some.inj (hcode.symm.trans hcode'))]
    | stray _ hcode' => cases hcode.symm.trans hcode'
  | stray hnone hcode h ih =>
    cases h' with
    | plain hc => exact absurd rfl hc
    | named he' => cases hnone.symm.trans he'
    | coded _ hcode' => cases hcode.symm.trans hcode'
    | stray _ _ h' => rw [ih h']

theorem unescapes_iff : Unescapes r u ↔ u = unescape r := by
  constructor
  · intro h
    exact h.unique (unescapes_unescape r)
  · rintro rfl
    exact unescapes_unescape r

/-- The text that an atom stands for: what stands between its quotes, if it has any, with the
escapes undone. -/
def Atom.StandsFor (a : Atom) (value : String) : Prop :=
  match a.text.toList with
  | '"' :: body => ∃ u, Unescapes body.dropLast u ∧ value = String.ofList u
  | '$' :: '"' :: body => ∃ u, Unescapes body.dropLast u ∧ value = String.ofList ('$' :: u)
  | _ => value = a.text

/-- Every atom stands for one text, its value. -/
theorem Atom.standsFor_iff {a : Atom} {value : String} : a.StandsFor value ↔ value = a.value := by
  unfold Atom.StandsFor Atom.value
  simp only [unescapes_iff]
  generalize a.text.toList = written
  split
  · exact exists_eq_left
  · exact exists_eq_left
  · simp

-- a named escape, a code, and a backslash that begins neither
example : unescape "\\t\\41\\g".toList = "\tA\\g".toList := by
  cbv

end WasmPackage.SExpr
