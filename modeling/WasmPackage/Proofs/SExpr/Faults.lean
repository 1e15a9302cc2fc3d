import WasmPackage.Proofs.SExpr.Printing

/-!
# Malformed texts

What is wrong with a text that cannot be read, said without the reader: one goes through the text
from left to right, over words, strings and comments, and keeps the parentheses that are open.  The
main statements are `read_eq_error_iff` and `read_isOk_iff`: reading fails for the fault that one
comes to, and for nothing else.
-/

namespace WasmPackage.SExpr

variable {pos offset n : Nat} {opened : List Nat} {t u v w r : Text} {c : Char} {kind : Lexeme}
  {cause : Malformed}

/-! ## Faults -/

/-- The characters that do not stand for themselves outside of strings and comments. -/
def marks : List Char :=
  ['(', ')', '"', ';']

/-- What one goes over in one step when `v` stands behind it: a string, a line comment with its
newline or at the end of the text, a block comment with the comments in it, or any character that is
no mark. -/
inductive Passes : Text → Text → Prop
  | character {c : Char} {v : Text} : c ∉ marks → Passes [c] v
  | string {u v : Text} : IsBody u → Passes ('"' :: (u ++ ['"'])) v
  | lineComment {u v : Text} : '\n' ∉ u → Passes (';' :: ';' :: (u ++ ['\n'])) v
  | lastComment {u : Text} : '\n' ∉ u → Passes (';' :: ';' :: u) []
  | blockComment {u v : Text} : IsBlockRest u → Passes ('(' :: ';' :: u) v

/-- A string that begins in front of `v` has no end: no body of a string with a quotation mark
behind it stands there. -/
def NeverEndsString (v : Text) : Prop :=
  ∀ u r, IsBody u → v ≠ u ++ '"' :: r

/-- A block comment that begins in front of `v` has no end, the comments in it taken as wholes. -/
def NeverEndsComment (v : Text) : Prop :=
  ∀ u r, IsBlockRest u → v ≠ u ++ r

/-- From the front of the text one comes to an offset, outside of strings and comments, with `v`
left to read.  The numbers are the offsets of the parentheses that are open there, innermost
first. -/
inductive ComesTo (t : Text) : Nat → List Nat → Text → Prop
  | refl : ComesTo t 0 [] t
  | pass {pos : Nat} {opened : List Nat} {w v : Text} :
    ComesTo t pos opened (w ++ v) → Passes w v → ComesTo t (pos + w.length) opened v
  | opening {pos : Nat} {opened : List Nat} {v : Text} :
    ComesTo t pos opened ('(' :: v) → v.head? ≠ some ';' → ComesTo t (pos + 1) (pos :: opened) v
  | closing {pos start : Nat} {opened : List Nat} {v : Text} :
    ComesTo t pos (start :: opened) (')' :: v) → ComesTo t (pos + 1) opened v

/-- One comes to something that is wrong with the text, and it is told at an offset: a string that
never ends, where it begins; a block comment that never ends, at the end of the text; a semicolon
that begins no line comment; a closing parenthesis where none is open; or the innermost parenthesis
that is open at the end. -/
inductive HasFault (t : Text) : Malformed → Nat → Prop
  | openString {pos : Nat} {opened : List Nat} {v : Text} :
    ComesTo t pos opened ('"' :: v) → NeverEndsString v → HasFault t .openString pos
  | openComment {pos : Nat} {opened : List Nat} {v : Text} :
    ComesTo t pos opened ('(' :: ';' :: v) → NeverEndsComment v →
      HasFault t .openComment t.length
  | straySemicolon {pos : Nat} {opened : List Nat} {v : Text} :
    ComesTo t pos opened (';' :: v) → v.head? ≠ some ';' → HasFault t .straySemicolon pos
  | unbalanced {pos : Nat} {v : Text} : ComesTo t pos [] (')' :: v) → HasFault t .unbalanced pos
  | openList {pos start : Nat} {opened : List Nat} :
    ComesTo t pos (start :: opened) [] → HasFault t .openList start

/-- Something is wrong with the text. -/
def IsMalformed (t : Text) : Prop :=
  ∃ cause offset, HasFault t cause offset

/-! ## Going on -/

/-- What stands at the front of a text. -/
inductive Front : Text → Prop
  | done : Front []
  | pass {w v : Text} : w ≠ [] → Passes w v → Front (w ++ v)
  | opening {v : Text} : v.head? ≠ some ';' → Front ('(' :: v)
  | closing {v : Text} : Front (')' :: v)
  | openString {v : Text} : NeverEndsString v → Front ('"' :: v)
  | openComment {v : Text} : NeverEndsComment v → Front ('(' :: ';' :: v)
  | straySemicolon {v : Text} : v.head? ≠ some ';' → Front (';' :: v)

theorem notMem_marks_of_isSeparator (hc : isSeparator c = true) : c ∉ marks := by
  intro hmark
  simp only [marks, List.mem_cons, List.not_mem_nil, or_false] at hmark
  rcases hmark with rfl | rfl | rfl | rfl <;> cases hc

/-- One goes over the gaps of the reader. -/
theorem passes_of_isGap (h : IsGap w v) : Passes w v := by
  cases h with
  | blank hblank => exact .character (notMem_marks_of_isSeparator hblank)
  | lineComment hu => exact .lineComment hu
  | lastComment hu => exact .lastComment hu
  | blockComment hu => exact .blockComment hu

theorem front_semicolon (v : Text) : Front (';' :: v) := by
  by_cases hhead : v.head? = some ';'
  · rcases List.head?_eq_some_iff.mp hhead with ⟨r, rfl⟩
    have hpasses := passes_of_isGap (isGap_of_lexes (.lineComment (r := r)))
    have hfront := Front.pass (List.cons_ne_nil _ _) hpasses
    rwa [List.cons_append, List.take_append_drop] at hfront
  · exact .straySemicolon hhead

theorem front_parenthesis (v : Text) : Front ('(' :: v) := by
  by_cases hhead : v.head? = some ';'
  · rcases List.head?_eq_some_iff.mp hhead with ⟨r, rfl⟩
    by_cases hends : NeverEndsComment r
    · exact .openComment hends
    · simp only [NeverEndsComment, not_forall, not_not] at hends
      rcases hends with ⟨u, s, hu, rfl⟩
      exact .pass (w := '(' :: ';' :: u) (List.cons_ne_nil _ _) (.blockComment hu)
  · exact .opening hhead

theorem front_quote (v : Text) : Front ('"' :: v) := by
  by_cases hends : NeverEndsString v
  · exact .openString hends
  · simp only [NeverEndsString, not_forall, not_not] at hends
    rcases hends with ⟨u, s, hu, rfl⟩
    have hfront := Front.pass (v := s) (List.cons_ne_nil _ _) (.string hu)
    rwa [List.cons_append, List.append_assoc] at hfront

theorem front (v : Text) : Front v := by
  cases v with
  | nil => exact .done
  | cons c r =>
    by_cases hmark : c ∈ marks
    · simp only [marks, List.mem_cons, List.not_mem_nil, or_false] at hmark
      rcases hmark with rfl | rfl | rfl | rfl
      · exact front_parenthesis r
      · exact .closing
      · exact front_quote r
      · exact front_semicolon r
    · exact .pass (w := [c]) (List.cons_ne_nil _ _) (.character hmark)

/-- The text that is left begins at the offset that one has come to. -/
theorem ComesTo.add_length (h : ComesTo t pos opened v) : pos + v.length = t.length := by
  induction h with
  | refl => exact Nat.zero_add _
  | pass _ _ ih => rw [← ih, List.length_append, Nat.add_assoc]
  | opening _ _ ih => rw [← ih, List.length_cons, Nat.add_assoc, Nat.add_comm 1]
  | closing _ ih => rw [← ih, List.length_cons, Nat.add_assoc, Nat.add_comm 1]

/-- The parentheses that are open stand in front of where one has come to. -/
theorem ComesTo.lt_of_mem (h : ComesTo t pos opened v) : ∀ start ∈ opened, start < pos := by
  induction h with
  | refl => simp
  | pass _ _ ih =>
    exact fun start hstart => Nat.lt_of_lt_of_le (ih start hstart) (Nat.le_add_right _ _)
  | opening _ _ ih =>
    intro start hstart
    rcases List.mem_cons.mp hstart with rfl | hstart
    · exact Nat.lt_succ_self _
    · exact Nat.lt_succ_of_lt (ih start hstart)
  | closing _ ih =>
    exact fun start hstart => Nat.lt_succ_of_lt (ih start (List.mem_cons_of_mem _ hstart))

/-- A fault is told at an offset of the text, or at its end. -/
theorem HasFault.offset_le (h : HasFault t cause offset) : offset ≤ t.length := by
  cases h with
  | openString hcomes => exact hcomes.add_length ▸ Nat.le_add_right _ _
  | openComment => exact Nat.le_refl _
  | straySemicolon hcomes => exact hcomes.add_length ▸ Nat.le_add_right _ _
  | unbalanced hcomes => exact hcomes.add_length ▸ Nat.le_add_right _ _
  | openList hcomes =>
    have hstart := hcomes.lt_of_mem offset List.mem_cons_self
    exact hcomes.add_length ▸ Nat.le_of_lt hstart

/-- Unless something is wrong with the text, one comes to its end, where nothing is open. -/
theorem ComesTo.isMalformed_or_end (h : ComesTo t pos opened v) :
    IsMalformed t ∨ ∃ stop, ComesTo t stop [] [] := by
  -- on the length of what is left: each step leaves less
  induction hlength : v.length using Nat.strong_induction_on generalizing pos opened v with
  | h length ih =>
  subst hlength
  cases front v with
  | done =>
    cases opened with
    | nil => exact Or.inr ⟨pos, h⟩
    | cons start opened => exact Or.inl ⟨_, _, .openList h⟩
  | @pass w r hne hpasses =>
    have := List.length_pos_iff.mpr hne
    exact ih r.length (by rw [List.length_append]; omega) (h.pass hpasses) rfl
  | opening hhead => exact ih _ (Nat.lt_succ_self _) (h.opening hhead) rfl
  | closing =>
    cases opened with
    | nil => exact Or.inl ⟨_, _, .unbalanced h⟩
    | cons start opened => exact ih _ (Nat.lt_succ_self _) h.closing rfl
  | openString hends => exact Or.inl ⟨_, _, .openString h hends⟩
  | openComment hends => exact Or.inl ⟨_, _, .openComment h hends⟩
  | straySemicolon hhead => exact Or.inl ⟨_, _, .straySemicolon h hhead⟩

/-! ## Reading for faults only -/

/-- Whether the rest of a text can be read where parentheses are open at these offsets, innermost
first, or what is wrong with it. -/
def check (pos : Nat) (opened : List Nat) (v : Text) : Except (Malformed × Nat) Unit :=
  (readFrom pos (opened.map (⟨·, []⟩)) [] v).map (fun _ => ())

theorem map_start_attach (n : Node) (stack : List OpenList) (top : List Node) :
    (attach n stack top).1.map (·.start) = stack.map (·.start) := by
  cases stack <;> rfl

/-- What is wrong does not depend on the nodes that are read. -/
theorem map_readFrom (pos : Nat) (stack : List OpenList) (top : List Node) (v : Text) :
    (readFrom pos stack top v).map (fun _ => ()) = check pos (stack.map (·.start)) v := by
  -- on the length of the text: reading goes on behind the first lexeme
  induction hlength : v.length using Nat.strong_induction_on generalizing pos stack top v with
  | h length ih =>
  unfold check
  cases v with
  | nil =>
    cases stack with
    | nil => simp [readFrom, Except.map]
    | cons o os => simp [readFrom, Except.map]
  | cons c r =>
    have hrest : ∀ n pos stack top, (readFrom pos stack top (r.drop n)).map (fun _ => ()) =
        check pos (stack.map (·.start)) (r.drop n) := by
      intro n pos stack top
      refine ih (r.drop n).length ?_ pos stack top (r.drop n) rfl
      rw [← hlength, List.length_drop, List.length_cons]
      omega
    rw [readFrom, readFrom]
    cases hlexeme : lexeme c r with
    | error fault => rfl
    | ok found =>
      rcases found with ⟨kind, n⟩
      cases kind with
      | gap => simp [hrest, Function.comp_def]
      | openParen => simp [hrest, Function.comp_def]
      | closeParen =>
        cases stack with
        | nil => rfl
        | cons o os =>
          change (readFrom _ (attach _ _ _).1 (attach _ _ _).2 _).map _ =
            (readFrom _ (attach _ _ _).1 (attach _ _ _).2 _).map _
          simp [hrest, map_start_attach, Function.comp_def]
      | atom =>
        change (readFrom _ (attach _ _ _).1 (attach _ _ _).2 _).map _ =
          (readFrom _ (attach _ _ _).1 (attach _ _ _).2 _).map _
        simp [hrest, map_start_attach, Function.comp_def]

/-- A node that is read leaves everything open that is open. -/
theorem map_readFrom_attach (n : Node) (pos : Nat) (opened : List Nat) (v : Text) :
    (readFrom pos (attach n (opened.map (⟨·, []⟩)) []).1
      (attach n (opened.map (⟨·, []⟩)) []).2 v).map (fun _ => ()) = check pos opened v := by
  rw [map_readFrom, map_start_attach]
  simp [Function.comp_def]

theorem check_nil (pos : Nat) : check pos [] [] = .ok () := by
  simp [check, readFrom, Except.map]

theorem check_nil_cons (pos start : Nat) (opened : List Nat) :
    check pos (start :: opened) [] = .error (.openList, start) := by
  simp [check, readFrom, Except.map]

theorem check_error (h : lexeme c r = .error (cause, offset)) :
    check pos opened (c :: r) = .error (cause, pos + offset) := by
  rw [check, readFrom, h]
  rfl

theorem check_opening (h : v.head? ≠ some ';') :
    check pos opened ('(' :: v) = check (pos + 1) (pos :: opened) v := by
  rw [check, readFrom, lexeme_of_lexes (.opening h)]
  rfl

theorem check_unbalanced : check pos [] (')' :: v) = .error (.unbalanced, pos) := by
  rw [check, readFrom, lexeme_of_lexes .closing]
  rfl

theorem check_closing {start : Nat} :
    check pos (start :: opened) (')' :: v) = check (pos + 1) opened v := by
  rw [check, readFrom, lexeme_of_lexes .closing]
  exact map_readFrom_attach _ _ _ _

/-- Words, strings and gaps leave everything open that is open. -/
theorem check_lexes (h : Lexes c r kind n) (hkind : kind = .gap ∨ kind = .atom) :
    check pos opened (c :: r) = check (pos + 1 + n) opened (r.drop n) := by
  rw [check, readFrom, lexeme_of_lexes h]
  rcases hkind with rfl | rfl
  · rfl
  · exact map_readFrom_attach _ _ _ _

theorem check_gap (h : IsGap w v) :
    check pos opened (w ++ v) = check (pos + w.length) opened v := by
  rcases lexes_of_isGap h with ⟨c, u, n, rfl, hlexes, hn⟩
  rw [List.cons_append, check_lexes hlexes (.inl rfl), List.length_cons]
  rcases hn with rfl | ⟨hle, rfl⟩
  · rw [List.drop_left, Nat.add_assoc, Nat.add_comm 1]
  · -- behind the last comment there is nothing to read
    rw [List.append_nil, List.drop_of_length_le hle, check, check, readFrom_nil]

theorem check_string (pos : Nat) (opened : List Nat) (v : Text) (h : IsBody u) :
    check pos opened ('"' :: (u ++ '"' :: v)) = check (pos + (u.length + 2)) opened v := by
  have hdrop : (u ++ '"' :: v).drop (u.length + 1) = v := by
    rw [← List.drop_drop, List.drop_left, List.drop_succ_cons, List.drop_zero]
  rw [check_lexes (.string (stringLength?_of_isBody h v)) (.inr rfl), hdrop, Nat.add_assoc,
    Nat.add_comm 1]

/-- A string behind a dollar sign is read with it, and is the same string. -/
theorem check_dollar (opened : List Nat) (v : Text) :
    check pos opened ('$' :: '"' :: v) = check (pos + 1) opened ('"' :: v) := by
  cases hlength : stringLength? v with
  | some n =>
    have hpos : pos + 1 + (n + 1) = pos + 1 + 1 + n := by omega
    rw [check_lexes (.quotedName hlength) (.inr rfl), check_lexes (.string hlength) (.inr rfl),
      List.drop_succ_cons, hpos]
  | none =>
    have hname : lexeme '$' ('"' :: v) = .error (.openString, 1) := by
      simp [lexeme, isSeparator, Text.startsWith, hlength]
    have hstring : lexeme '"' v = .error (.openString, 0) := by
      simp [lexeme, isSeparator, hlength]
    rw [check_error hname, check_error hstring]

/-- A word is read as a whole, whether it is read from its front or from inside it. -/
theorem check_word (pos : Nat) (opened : List Nat) (hw : ∀ c ∈ w, isDelimiter c = false)
    (hv : ∀ c, v.head? = some c → isDelimiter c = true) :
    check pos opened (w ++ v) = check (pos + w.length) opened v := by
  cases w with
  | nil => rfl
  | cons c u =>
    rw [List.forall_mem_cons] at hw
    by_cases hname : c = '$' ∧ (u ++ v).head? = some '"'
    · -- the quotation mark is not in the word, so that the word is the dollar sign alone
      rcases hname with ⟨rfl, hhead⟩
      cases u with
      | cons d u =>
        cases hhead
        cases hw.2 '"' List.mem_cons_self
      | nil =>
        rcases List.head?_eq_some_iff.mp hhead with ⟨s, rfl⟩
        exact check_dollar opened s
    · have hrun : (u ++ v).takeWhile (fun d => !isDelimiter d) = u := by
        rw [List.takeWhile_append_of_pos (fun d hd => by simp [hw.2 d hd])]
        cases v with
        | nil => simp
        | cons d s => simp [hv d rfl]
      have hlexes : Lexes c (u ++ v) .atom _ := .word hw.1 (fun hc hhead => hname ⟨hc, hhead⟩)
      rw [hrun] at hlexes
      rw [List.cons_append, check_lexes hlexes (.inr rfl), List.drop_left, Nat.add_assoc,
        Nat.add_comm 1]
      rfl

/-- Inside a word one goes on character by character. -/
theorem check_character (hc : isDelimiter c = false) :
    check pos opened (c :: v) = check (pos + 1) opened v := by
  -- both readings come to the end of the word
  have hword : ∀ d ∈ v.takeWhile (fun d => !isDelimiter d), isDelimiter d = false := by
    intro d hd
    simpa using List.mem_takeWhile_imp hd
  have hbehind : ∀ d, (v.dropWhile (fun d => !isDelimiter d)).head? = some d →
      isDelimiter d = true := by
    intro d hd
    simpa [hd] using List.head?_dropWhile_not (fun d => !isDelimiter d) v
  have hwhole := check_word pos opened (List.forall_mem_cons.mpr ⟨hc, hword⟩) hbehind
  have hrest := check_word (pos + 1) opened hword hbehind
  rw [List.cons_append, List.takeWhile_append_dropWhile] at hwhole
  rw [List.takeWhile_append_dropWhile] at hrest
  rw [hwhole, hrest, List.length_cons, Nat.add_assoc, Nat.add_comm 1]

theorem check_passes (h : Passes w v) :
    check pos opened (w ++ v) = check (pos + w.length) opened v := by
  cases h with
  | @character c v hc =>
    by_cases hblank : isSeparator c = true
    · exact check_gap (.blank hblank)
    · exact check_character (by simpa [isDelimiter, hblank, marks, and_assoc] using hc)
  | @string u v hu => simpa using check_string pos opened v hu
  | lineComment hu => exact check_gap (.lineComment hu)
  | lastComment hu => exact check_gap (.lastComment hu)
  | blockComment hu => exact check_gap (.blockComment hu)

/-! ## What reading comes to -/

/-- What is wrong with a text is wrong with what is left of it. -/
theorem ComesTo.check_eq (h : ComesTo t pos opened v) : check 0 [] t = check pos opened v := by
  induction h with
  | refl => rfl
  | pass _ hpasses ih => rw [ih, check_passes hpasses]
  | opening _ hhead ih => rw [ih, check_opening hhead]
  | closing _ ih => rw [ih, check_closing]

/-- A string that the reader finds the end of has one. -/
theorem exists_isBody (h : stringLength? v = some n) : ∃ u r, IsBody u ∧ v = u ++ '"' :: r := by
  fun_induction stringLength? v generalizing n with
  | case1 c r ih =>
    rcases Option.map_eq_some_iff.mp h with ⟨m, hm, -⟩
    rcases ih hm with ⟨u, s, hu, rfl⟩
    exact ⟨'\\' :: c :: u, s, .escaped hu, rfl⟩
  | case2 => cases h
  | case3 r => exact ⟨[], r, .nil, rfl⟩
  | case4 c r hescape hlone hquote ih =>
    rcases Option.map_eq_some_iff.mp h with ⟨m, hm, -⟩
    rcases ih hm with ⟨u, s, hu, rfl⟩
    refine ⟨c :: u, s, .plain hquote ?_ hu, rfl⟩
    rintro rfl
    cases u with
    | nil => exact hescape _ _ rfl rfl
    | cons d u => exact hescape _ _ rfl rfl
  | case5 => cases h

theorem lexeme_of_neverEndsString (h : NeverEndsString v) :
    lexeme '"' v = .error (.openString, 0) := by
  cases hlength : stringLength? v with
  | some n =>
    rcases exists_isBody hlength with ⟨u, r, hu, hv⟩
    exact (h u r hu hv).elim
  | none => simp [lexeme, isSeparator, hlength]

theorem lexeme_of_neverEndsComment (h : NeverEndsComment v) :
    lexeme '(' (';' :: v) = .error (.openComment, v.length + 2) := by
  cases hlength : blockCommentLength? 1 v with
  | some n =>
    have hrest := (blockCommentLength?_eq_some_iff.mp hlength).2
    exact (h _ _ hrest (List.take_append_drop n v).symm).elim
  | none => simp [lexeme, isSeparator, Text.startsWith, hlength]

/-- A fault that one comes to is what reading fails for. -/
theorem HasFault.check_eq (h : HasFault t cause offset) :
    check 0 [] t = .error (cause, offset) := by
  cases h with
  | openString hcomes hends =>
    rw [hcomes.check_eq, check_error (lexeme_of_neverEndsString hends), Nat.add_zero]
  | openComment hcomes hends =>
    rw [hcomes.check_eq, check_error (lexeme_of_neverEndsComment hends), ← hcomes.add_length]
    rfl
  | @straySemicolon pos opened v hcomes hhead =>
    have hstray : lexeme ';' v = .error (.straySemicolon, 0) := by
      simp [lexeme, isSeparator, startsWith_singleton, hhead]
    rw [hcomes.check_eq, check_error hstray, Nat.add_zero]
  | unbalanced hcomes => rw [hcomes.check_eq, check_unbalanced]
  | openList hcomes => rw [hcomes.check_eq, check_nil_cons]

theorem hasFault_iff : HasFault t cause offset ↔ check 0 [] t = .error (cause, offset) := by
  constructor
  · exact HasFault.check_eq
  · intro h
    have hstart : ComesTo t 0 [] t := .refl
    rcases hstart.isMalformed_or_end with ⟨cause', offset', hfault⟩ | ⟨stop, hend⟩
    · have heq := hfault.check_eq
      rw [h] at heq
      cases heq
      exact hfault
    · rw [hend.check_eq, check_nil] at h
      cases h

/-- Reading fails for the fault that one comes to, which is told at its place. -/
theorem read_eq_error_iff {fault : Fault Malformed} : read t = .error fault ↔
    ∃ cause offset, HasFault t cause offset ∧ fault = Fault.ofOffset t cause offset := by
  have hcheck : (readFrom 0 [] [] t).map (fun _ => ()) = check 0 [] t := map_readFrom 0 [] [] t
  simp only [hasFault_iff, ← hcheck, read]
  cases readFrom 0 [] [] t with
  | ok ns => simp [Except.map, Except.mapError]
  | error e =>
    rcases e with ⟨cause, offset⟩
    simp only [Except.map, Except.mapError, Except.error.injEq, Prod.mk.injEq]
    constructor
    · rintro rfl
      exact ⟨cause, offset, ⟨rfl, rfl⟩, rfl⟩
    · rintro ⟨_, _, ⟨rfl, rfl⟩, rfl⟩
      rfl

/-- A text is read unless something is wrong with it. -/
theorem read_isOk_iff : (∃ ns, read t = .ok ns) ↔ ¬ IsMalformed t := by
  constructor
  · rintro ⟨ns, hread⟩ ⟨cause, offset, hfault⟩
    rw [read_eq_error_iff.mpr ⟨cause, offset, hfault, rfl⟩] at hread
    cases hread
  · intro hwell
    cases hread : read t with
    | ok ns => exact ⟨ns, rfl⟩
    | error fault =>
      rcases read_eq_error_iff.mp hread with ⟨cause, offset, hfault, -⟩
      exact (hwell ⟨cause, offset, hfault⟩).elim

end WasmPackage.SExpr
