import WasmPackage.Proofs.SExpr.Escapes
import WasmPackage.Proofs.SExpr.Printing

/-!
# Ways to write a text in quotes

A text can be written between quotes in many ways: most characters stand for themselves, some have a
name behind a backslash, and those with small codes can be written by two hexadecimal digits.  A
reader finds the end of a string without undoing its escapes, and the escapes are undone without
looking for its end; still both take the same characters together, so every way is read back.
-/

namespace WasmPackage.SExpr

/-- The characters that have a name, each behind its name. -/
def escapeNames : List (Char × Char) :=
  [('n', '\n'), ('t', '\t'), ('r', '\r'), ('"', '"'), ('\'', '\''), ('\\', '\\')]

/-- The hexadecimal digits in the order of their values, in small letters or in capitals. -/
def hexDigits : List (List Char) :=
  ["0123456789abcdef".toList, "0123456789ABCDEF".toList]

/-- The character is a hexadecimal digit with the value `n`. -/
def IsHexDigit (d : Char) (n : Nat) : Prop :=
  ∃ digits ∈ hexDigits, digits[n]? = some d

/-- The ways to write a character in quotes. -/
inductive Spells : Char → Text → Prop
  | itself {c : Char} (hbackslash : c ≠ '\\') (hquote : c ≠ '"') : Spells c [c]
  | named {name c : Char} (hname : (name, c) ∈ escapeNames) : Spells c ['\\', name]
  | coded {c a b : Char} {m n : Nat} (ha : IsHexDigit a m) (hb : IsHexDigit b n)
      (hcode : c.toNat = 16 * m + n) : Spells c ['\\', a, b]

/-- The ways to write a text in quotes: each of its characters is written in one of its ways. -/
inductive IsSpelling : Text → Text → Prop
  | nil : IsSpelling [] []
  | cons {c : Char} {w v body : Text} :
    Spells c w → IsSpelling v body → IsSpelling (c :: v) (w ++ body)

variable {c d name : Char} {n : Nat} {v w body : Text}

/-! ## Names and digits -/

theorem namedEscape?_of_mem (h : (name, c) ∈ escapeNames) : namedEscape? name = some c := by
  have hall : ∀ e ∈ escapeNames, namedEscape? e.1 = some e.2 := by decide
  exact hall _ h

/-- A digit has its value, and is no name. -/
theorem value_of_isHexDigit (h : IsHexDigit d n) :
    hexValue? d = some n ∧ namedEscape? d = none ∧ d ≠ '"' ∧ d ≠ '\\' := by
  have hall : ∀ digits ∈ hexDigits, ∀ e ∈ digits.zipIdx,
      hexValue? e.1 = some e.2 ∧ namedEscape? e.1 = none ∧ e.1 ≠ '"' ∧ e.1 ≠ '\\' := by
    decide +kernel
  rcases h with ⟨digits, hdigits, hd⟩
  exact hall digits hdigits (d, n) (List.mem_zipIdx_iff_getElem?.mpr hd)

theorem hexNumber?_of_isHexDigit {a b : Char} {m n : Nat} (ha : IsHexDigit a m)
    (hb : IsHexDigit b n) : hexNumber? [a, b] = some (16 * m + n) := by
  simp only [hexNumber?, (value_of_isHexDigit ha).1, (value_of_isHexDigit hb).1]

/-! ## Spellings -/

/-- Every text can be written: what cannot stand for itself has a name. -/
theorem exists_isSpelling (v : Text) : ∃ body, IsSpelling v body := by
  induction v with
  | nil => exact ⟨[], .nil⟩
  | cons c v ih =>
    rcases ih with ⟨body, hbody⟩
    by_cases hname : (c, c) ∈ escapeNames
    · exact ⟨_, .cons (.named hname) hbody⟩
    · refine ⟨_, .cons (.itself ?_ ?_) hbody⟩
      · rintro rfl
        exact hname (by decide)
      · rintro rfl
        exact hname (by decide)

/-- The escapes of a spelling are undone. -/
theorem unescapes_of_isSpelling (h : IsSpelling v body) : Unescapes body v := by
  induction h with
  | nil => exact .nil
  | cons hc _ ih =>
    cases hc with
    | itself hbackslash => exact .plain hbackslash ih
    | named hname => exact .named (namedEscape?_of_mem hname) ih
    | coded ha hb hcode =>
      refine .coded (value_of_isHexDigit ha).2.1 ?_ ih
      rw [hcode]
      exact hexNumber?_of_isHexDigit ha hb

/-- No quote in a spelling ends the string: it stands behind a backslash. -/
theorem isBody_of_isSpelling (h : IsSpelling v body) : IsBody body := by
  induction h with
  | nil => exact .nil
  | cons hc _ ih =>
    cases hc with
    | itself hbackslash hquote => exact .plain hquote hbackslash ih
    | named => exact .escaped ih
    | coded ha hb =>
      -- the backslash takes the first digit along, and the second one stands for itself
      rcases value_of_isHexDigit hb with ⟨-, -, hquote, hbackslash⟩
      exact .escaped (.plain hquote hbackslash ih)

/-! ## Reading -/

/-- The text of an atom is read as that atom. -/
theorem read_of_isAtomText (h : IsAtomText w) :
    read w = .ok [.atom ⟨String.ofList w, 0⟩] := by
  rcases lexes_of_isAtomText (r := []) h (by simp) with ⟨c, u, rfl, hlexes⟩
  rw [List.append_nil] at hlexes
  have htake : u.take u.length = u := List.take_length
  have hdrop : u.drop u.length = [] := List.drop_length
  simp [read, readFrom, lexeme_of_lexes hlexes, attach, htake, hdrop, Except.mapError]

theorem value_string (body : Text) :
    Atom.value ⟨String.ofList ('"' :: (body ++ ['"'])), 0⟩ = String.ofList (unescape body) := by
  simp [Atom.value]

theorem value_quotedName (body : Text) :
    Atom.value ⟨String.ofList ('$' :: '"' :: (body ++ ['"'])), 0⟩ =
      String.ofList ('$' :: unescape body) := by
  simp [Atom.value]

/-- Every text can be written in quotes, and however it is written, it is read as one atom that
stands for it; behind a dollar sign it is read as the name that begins with one. -/
theorem read_spellings (v : Text) :
    (∃ body, IsSpelling v body) ∧
      ∀ body, IsSpelling v body →
        (∃ a, read ('"' :: (body ++ ['"'])) = .ok [.atom a] ∧ a.value = String.ofList v) ∧
        ∃ a, read ('$' :: '"' :: (body ++ ['"'])) = .ok [.atom a] ∧
          a.value = String.ofList ('$' :: v) := by
  refine ⟨exists_isSpelling v, fun body h => ?_⟩
  have hbody := isBody_of_isSpelling h
  have hvalue : v = unescape body := unescapes_iff.mp (unescapes_of_isSpelling h)
  constructor
  · refine ⟨_, read_of_isAtomText (.string hbody), ?_⟩
    rw [value_string, ← hvalue]
  · refine ⟨_, read_of_isAtomText (.quotedName hbody), ?_⟩
    rw [value_quotedName, ← hvalue]

/-- A code with a capital letter, the code of a quote, a quote that needs no escape, and a name. -/
theorem isSpelling_mixed :
    IsSpelling ['é', '"', '\'', '\n'] ['\\', 'E', '9', '\\', '2', '2', '\'', '\\', 'n'] := by
  have hfourteen : IsHexDigit 'E' 14 := ⟨"0123456789ABCDEF".toList, by decide, by decide⟩
  have hnine : IsHexDigit '9' 9 := ⟨"0123456789abcdef".toList, by decide, by decide⟩
  have htwo : IsHexDigit '2' 2 := ⟨"0123456789abcdef".toList, by decide, by decide⟩
  refine .cons (.coded hfourteen hnine (by decide)) ?_
  refine .cons (.coded htwo htwo (by decide)) ?_
  refine .cons (.itself (by decide) (by decide)) ?_
  exact .cons (.named (by decide)) .nil

theorem read_spellings_mixed :
    IsSpelling ['é', '"', '\'', '\n'] ['\\', 'E', '9', '\\', '2', '2', '\'', '\\', 'n'] ∧
      (∃ a, read ['"', '\\', 'E', '9', '\\', '2', '2', '\'', '\\', 'n', '"'] = .ok [.atom a] ∧
        a.value = String.ofList ['é', '"', '\'', '\n']) ∧
      ∃ a, read ['$', '"', '\\', 'E', '9', '\\', '2', '2', '\'', '\\', 'n', '"'] =
          .ok [.atom a] ∧
        a.value = String.ofList ['$', 'é', '"', '\'', '\n'] :=
  ⟨isSpelling_mixed, (read_spellings _).2 _ isSpelling_mixed⟩

end WasmPackage.SExpr
