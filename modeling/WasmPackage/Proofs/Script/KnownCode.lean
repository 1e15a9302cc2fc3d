import WasmPackage.Proofs.Script.Faces
import WasmPackage.Proofs.Script.Parts

/-!
# Reading known code

Where the code of a class, a function or a statement is known, the outliner reads it as what it is.
The names may be any words, those that it gives a meaning to included: such a word is a name where
a parenthesis follows.
-/

namespace WasmPackage.Script

/-! ## Words and marks -/

/-- A word of the code that no comment documents. -/
abbrev Cell.word (w : String) : Cell := ((.identifier, w), none)

/-- Punctuation of the code that no comment documents. -/
abbrev Cell.mark (w : String) : Cell := ((.punctuation, w), none)

theorem ne_of_isWord {w v : String} (hw : isWord w = true)
    (hv : v.toList.head?.any startsIdentifier = false) : w ≠ v := by
  rintro rfl
  unfold isWord at hw
  split at hw
  · cases hw
  · next c r hlist =>
    rw [hlist, List.head?_cons, Option.any_some] at hv
    rw [hv] at hw
    cases hw

theorem contains_eq_false_of_isWord {w : String} {marks : List String} (hw : isWord w = true)
    (hmarks : ∀ v ∈ marks, v.toList.head?.any startsIdentifier = false) :
    marks.contains w = false := by
  rw [List.contains_eq_mem, decide_eq_false_iff_not]
  intro hmem
  exact ne_of_isWord hw (hmarks w hmem) rfl

theorem trim_of_isWord {w : String} (hw : isWord w = true) : Text.trim w.toList = w.toList := by
  have hink : ∀ c ∈ w.toList, WasmPackage.isBlank c = false := by
    intro c hc
    by_contra hblank
    have hnot := continuesIdentifier_of_isBlank (by simpa using hblank)
    rw [continuesIdentifier_of_isWord hw c hc] at hnot
    cases hnot
  have hfirst {u : Text} (hu : ∀ c ∈ u, WasmPackage.isBlank c = false) :
      u.dropWhile WasmPackage.isBlank = u := by
    cases u with
    | nil => rfl
    | cons c u => simp [hu c]
  rw [Text.trim, Text.trimStart, hfirst hink, Text.trimEnd, hfirst (by simpa using hink),
    List.reverse_reverse]

namespace Source

variable {t : Text} {s : Source} {i j k last start stop keyword close next : Nat}
  {w v name type : String} {doc : Option Text} {modifiers : Modifiers} {cells inner : List Cell}

theorem is_eq_false_of_isWord (h : s.cell? i = some ((.identifier, w), doc)) (hw : isWord w = true)
    (hv : v.toList.head?.any startsIdentifier = false) : s.is v i = false := by
  rw [is_eq_of_cell? h]
  simp [ne_of_isWord hw hv]

theorem skip_of_closer? [Limits] (hs : Source.read t = .ok s) (h : s.closer? i = some j) :
    s.skip i = j + 1 := by
  have hlt := (lt_of_closer? hs h).1
  simp only [skip, h, Option.elim_some]
  omega

theorem skip_of_plain [Limits] (hs : Source.read t = .ok s) {cell : Cell}
    (h : s.cell? i = some cell) (hcell : isBracket cell.1 = false) : s.skip i = i + 1 := by
  simp [skip, closer?_eq_none hs h hcell]

theorem excerpt_of_cell? [Limits] (hs : Source.read t = .ok s)
    (h : s.cell? i = some ((.identifier, w), doc)) :
    s.excerpt (s.startAt i) (s.stopAt i) = w := by
  rcases Option.map_eq_some_iff.mp h with ⟨x, hx, hface⟩
  obtain ⟨htext, -⟩ := isPlaced_of_read hs
  have hword : x.text = w := (Prod.mk.inj (Prod.mk.inj hface).1).2
  rw [excerpt, startAt_eq hx, stopAt_eq hx, htext, slice_of_read hs hx, String.ofList_toList, hword]

theorem Shows.lt_size (h : s.Shows i cells) (hcells : cells ≠ []) : i < s.size := by
  cases cells with
  | nil => exact absurd rfl hcells
  | cons cell cells => exact lt_size_of_cell? (shows_cons_iff.mp h).1

theorem Shows.words_eq (h : s.Shows i cells) :
    s.words i (i + cells.length) = cells.map (fun cell => cell.1.2) := by
  obtain ⟨tokens, rest, hdrop, hfaces⟩ := h.drop_eq
  have hlength : cells.length = tokens.length := by simpa using (congrArg List.length hfaces).symm
  have htexts := congrArg (List.map Prod.snd) hfaces
  rw [List.map_map, List.map_map] at htexts
  rw [words, Array.toList_extract, List.extract_eq_take_drop, Nat.add_sub_cancel_left, hdrop,
    hlength, List.take_left]
  exact htexts

/-! ## The head of a member -/

/-- A modifier stands before a word that a parenthesis follows: the word is the name, even if it
could be a modifier itself. -/
theorem memberHead_of_cells (hw : memberModifiers.contains w = true) (hname : isWord name = true)
    (hmodifier : s.cell? i = some ((.identifier, w), doc))
    (hsecond : s.cell? (i + 1) = some (.word name)) (hopen : s.cell? (i + 2) = some (.mark "("))
    (hstop : i + 1 < stop) :
    s.memberHead stop i modifiers = .name (modifiers.push w) (i + 1) := by
  have hfollows : s.wordIn nameFollowers (i + 1) = false := by
    rw [wordIn_eq_of_cell? hsecond]
    exact contains_eq_false_of_isWord hname (by decide)
  have hblock : s.is "\x7b" (i + 1) = false := is_eq_false_of_isWord hsecond hname (by decide)
  have hcall : s.wordIn nameFollowers (i + 1 + 1) = true := by
    rw [wordIn_eq_of_cell? hopen]
    decide
  have hfirst : s.wordIn memberModifiers i = true := by rw [wordIn_eq_of_cell? hmodifier, hw]
  rw [memberHead, if_pos (by omega), if_pos (by rw [hfirst, hfollows]; rfl),
    if_neg (by simp [hblock]), word?_eq_of_cell? hmodifier, Option.getD_some, memberHead,
    if_pos hstop, if_neg (by simp [hcall])]

theorem member_of_cells (hw : memberModifiers.contains w = true) (hname : isWord name = true)
    (hmodifier : s.cell? i = some ((.identifier, w), doc))
    (hsecond : s.cell? (i + 1) = some (.word name)) (hopen : s.cell? (i + 2) = some (.mark "("))
    (hstop : i + 1 < stop) :
    s.member stop i =
      (some (s.memberAt stop i (Modifiers.push ⟨false, .method⟩ w) (i + 1) name (i + 1)).1,
        s.behindMember stop (i + 1)) := by
  have hhead : s.memberHead stop i ⟨false, .method⟩ =
      .name (Modifiers.push ⟨false, .method⟩ w) (i + 1) :=
    memberHead_of_cells hw hname hmodifier hsecond hopen hstop
  have hstar : s.is "*" (i + 1) = false := is_eq_false_of_isWord hsecond hname (by decide)
  have hfound : s.memberName? stop (i + 1) = some (name, i + 1) := by
    rw [memberName?, kind?_eq_of_cell? hsecond, word?_eq_of_cell? hsecond]
    rfl
  simp only [member, hhead, hstar, Bool.false_eq_true, if_false, hstop, if_true, hfound]
  rw [memberAt_snd]

/-! ## Parameters -/

theorem behindName_of_call (h : s.is "(" (last + 1) = true) : s.behindName last = last + 1 := by
  have hmark : s.wordIn ["?", "!"] (last + 1) = false := wordIn_eq_false h (by decide)
  have hangle : s.is "<" (last + 1) = false := is_eq_false h (by decide)
  have hmarks : s.skipMarks (last + 1) = last + 1 := by
    rw [skipMarks, if_pos (lt_size_of_is h), hmark]
    rfl
  rw [behindName, hmarks, behindTypeParameters, hangle]
  rfl

theorem behindParams_of_call [Limits] (hs : Source.read t = .ok s) (h : s.is "(" (last + 1) = true)
    (hclose : s.closer? (last + 1) = some k) : s.behindParams last = k + 1 := by
  rw [behindParams, behindName_of_call h, if_pos h, skip_of_closer? hs hclose]

/-- The marks of a parameter of one word, behind which the list goes on or ends. -/
theorem paramMarks_of_word [Limits] (hs : Source.read t = .ok s) {colon : Option Nat}
    (hw : isWord w = true) (h : s.cell? i = some (.word w)) (hlt : i < close)
    (hend : i + 1 = close ∨ s.is "," (i + 1) = true) :
    s.paramMarks close i colon none = ⟨i + 1, colon, none⟩ := by
  have hcomma : s.is "," i = false := is_eq_false_of_isWord h hw (by decide)
  have hcolon : s.is ":" i = false := is_eq_false_of_isWord h hw (by decide)
  have hequals : s.is "=" i = false := is_eq_false_of_isWord h hw (by decide)
  have hstop : ¬ (i + 1 < close ∧ s.is "," (i + 1) = false) := by
    rcases hend with hend | hend
    · omega
    · simp [hend]
  rw [paramMarks, if_pos ⟨hlt, hcomma⟩, closer?_eq_none hs h rfl]
  simp only [Option.isSome_none, Bool.false_eq_true, if_false, hcolon, hequals, Bool.and_false]
  rw [paramMarks, if_neg hstop]

/-- The first parameter of a list, a word. -/
theorem params_of_word [Limits] (hs : Source.read t = .ok s) (hclose : s.closer? i = some close)
    (hw : isWord w = true) (h : s.cell? (i + 1) = some (.word w)) (hlt : i + 1 < close)
    (hend : i + 2 = close ∨ s.is "," (i + 2) = true) :
    ∃ p rest, s.params i = p :: rest ∧ p.name = w ∧ p.type = none := by
  have hdots : s.is "..." (i + 1) = false := is_eq_false_of_isWord h hw (by decide)
  rw [params, hclose, Option.getD_some, paramsFrom, if_pos hlt,
    paramMarks_of_word hs hw h hlt hend]
  refine ⟨_, _, rfl, ?_, rfl⟩
  simp [param, hdots, word?_eq_of_cell? h]

/-- The first parameter of a list, a word with a type of one word. -/
theorem params_of_typed [Limits] (hs : Source.read t = .ok s) (hclose : s.closer? i = some close)
    (hw : isWord w = true) (htype : isWord type = true) (h : s.cell? (i + 1) = some (.word w))
    (hcolon : s.cell? (i + 2) = some (.mark ":")) (h' : s.cell? (i + 3) = some (.word type))
    (hlt : i + 3 < close) (hend : i + 4 = close ∨ s.is "," (i + 4) = true) :
    ∃ p rest, s.params i = p :: rest ∧ p.name = w ∧ p.type = some type := by
  have hdots : s.is "..." (i + 1) = false := is_eq_false_of_isWord h hw (by decide)
  have hcomma : s.is "," (i + 1) = false := is_eq_false_of_isWord h hw (by decide)
  have hcolon' : s.is ":" (i + 1) = false := is_eq_false_of_isWord h hw (by decide)
  have hequals : s.is "=" (i + 1) = false := is_eq_false_of_isWord h hw (by decide)
  have hmark : s.is ":" (i + 2) = true := (is_eq_of_cell? hcolon ":").trans (by decide)
  have hmark' : s.is "," (i + 2) = false := is_eq_false hmark (by decide)
  have hmarks : s.paramMarks close (i + 1) none none = ⟨i + 4, some (i + 2), none⟩ := by
    rw [paramMarks, if_pos ⟨by omega, hcomma⟩, closer?_eq_none hs h rfl]
    simp only [Option.isSome_none, Bool.false_eq_true, if_false, hcolon', hequals, Bool.and_false]
    rw [paramMarks, if_pos ⟨by omega, hmark'⟩, closer?_eq_none hs hcolon rfl]
    simp only [Option.isSome_none, Bool.false_eq_true, if_false, hmark, Option.isNone_none,
      Bool.and_self, if_true]
    exact paramMarks_of_word hs htype h' hlt hend
  have hslice : s.text.slice (s.startAt (i + 3)) (s.stopAt (i + 3)) = type.toList := by
    rw [← String.toList_ofList (l := s.text.slice _ _), ← excerpt, excerpt_of_cell? hs h']
  rw [params, hclose, Option.getD_some, paramsFrom, if_pos (by omega), hmarks]
  refine ⟨_, _, rfl, ?_, ?_⟩
  · simp [param, hdots, word?_eq_of_cell? h]
  · simp [param, hslice, trim_of_isWord htype]

/-! ## The end of a member -/

/-- A type of one word and a semicolon. -/
theorem typeNote_of_word [Limits] (hs : Source.read t = .ok s) (hcolon : s.is ":" i = true)
    (htype : isWord type = true) (h : s.cell? (i + 1) = some (.word type))
    (hend : s.is ";" (i + 2) = true) (hstop : i + 2 < stop) :
    ∃ note, s.typeNote stop i = (some note, i + 2) ∧ note.text = type := by
  have hless : s.is "<" (i + 1) = false := is_eq_false_of_isWord h htype (by decide)
  have hgreater : s.is ">" (i + 1) = false := is_eq_false_of_isWord h htype (by decide)
  have hsemicolon : s.is ";" (i + 1) = false := is_eq_false_of_isWord h htype (by decide)
  have hbrace : s.is "\x7b" (i + 1) = false := is_eq_false_of_isWord h htype (by decide)
  have hless' : s.is "<" (i + 2) = false := is_eq_false hend (by decide)
  have hgreater' : s.is ">" (i + 2) = false := is_eq_false hend (by decide)
  have hstops : s.typeStopsAt (i + 1) = false := by simp [typeStopsAt, hsemicolon, hbrace]
  have hstops' : s.typeStopsAt (i + 2) = true := by simp [typeStopsAt, hend]
  have htypeStop : s.typeStop stop (i + 1) 0 = i + 2 := by
    rw [typeStop, if_pos (by omega)]
    simp only [hless, hgreater, hstops, Bool.false_and, Bool.and_false, Bool.false_eq_true,
      if_false, skip_of_plain hs h rfl]
    rw [typeStop, if_pos hstop]
    simp [hless', hgreater', hstops']
  rw [typeNote, if_pos hcolon, htypeStop]
  simp only [Nat.lt_succ_self, if_true]
  exact ⟨_, rfl, excerpt_of_cell? hs h⟩

/-- What a member with parameters is. -/
theorem memberAt_of_call (hcall : s.is "(" (last + 1) = true) :
    (s.memberAt stop start modifiers i name last).1.kind = modifiers.kind ∧
      (s.memberAt stop start modifiers i name last).1.params = s.params (last + 1) ∧
      (s.memberAt stop start modifiers i name last).1.paramsStop.isSome = true := by
  have hname := behindName_of_call hcall
  rw [memberAt_paramsStop, hname, if_pos hcall]
  unfold behindName at hname
  simp [memberAt, hname, hcall]

/-- A type of one word with one word as its argument, and a semicolon. -/
theorem typeNote_of_generic [Limits] (hs : Source.read t = .ok s) (hcolon : s.is ":" i = true)
    (hw : isWord w = true) (hv : isWord v = true) (h : s.cell? (i + 1) = some (.word w))
    (hopen : s.is "<" (i + 2) = true) (h' : s.cell? (i + 3) = some (.word v))
    (hclose : s.is ">" (i + 4) = true) (hend : s.is ";" (i + 5) = true) (hstop : i + 5 < stop) :
    (s.typeNote stop i).2 = i + 5 := by
  have hless : s.is "<" (i + 1) = false := is_eq_false_of_isWord h hw (by decide)
  have hgreater : s.is ">" (i + 1) = false := is_eq_false_of_isWord h hw (by decide)
  have hsemicolon : s.is ";" (i + 1) = false := is_eq_false_of_isWord h hw (by decide)
  have hbrace : s.is "\x7b" (i + 1) = false := is_eq_false_of_isWord h hw (by decide)
  have hless' : s.is "<" (i + 3) = false := is_eq_false_of_isWord h' hv (by decide)
  have hgreater' : s.is ">" (i + 3) = false := is_eq_false_of_isWord h' hv (by decide)
  have hclose' : s.is "<" (i + 4) = false := is_eq_false hclose (by decide)
  have hend' : s.is "<" (i + 5) = false := is_eq_false hend (by decide)
  have hend'' : s.is ">" (i + 5) = false := is_eq_false hend (by decide)
  have hstops : s.typeStopsAt (i + 1) = false := by simp [typeStopsAt, hsemicolon, hbrace]
  have hstops' : s.typeStopsAt (i + 5) = true := by simp [typeStopsAt, hend]
  -- the semicolon ends the type since the angle brackets before it are closed
  have hlast : s.typeStop stop (i + 5) 0 = i + 5 := by
    rw [typeStop, if_pos hstop]
    simp [hend', hend'', hstops']
  have hargument : s.typeStop stop (i + 3) 1 = i + 5 := by
    rw [typeStop, if_pos (by omega)]
    simp only [hless', hgreater', Bool.false_and, Bool.false_eq_true, if_false,
      Nat.one_ne_zero, decide_false, skip_of_plain hs h' rfl]
    rw [typeStop, if_pos (by omega)]
    simpa [hclose, hclose'] using hlast
  have htypeStop : s.typeStop stop (i + 1) 0 = i + 5 := by
    rw [typeStop, if_pos (by omega)]
    simp only [hless, hgreater, hstops, Bool.false_and, Bool.and_false, Bool.false_eq_true,
      if_false, skip_of_plain hs h rfl]
    rw [typeStop, if_pos (by omega)]
    simpa [hopen] using hargument
  rw [typeNote, if_pos hcolon, htypeStop]
  simp

section

variable [Limits] (hs : Source.read t = .ok s) (hcall : s.is "(" (last + 1) = true)
  (hclose : s.closer? (last + 1) = some k)

include hs hcall hclose

/-- A member that ends with its type and a semicolon. -/
theorem memberType_of_note {note : Option TypeNote} (hnote : s.typeNote stop (k + 1) = (note, j))
    (hend : s.is ";" j = true) :
    s.memberType stop last = (note, j) ∧ s.behindMember stop last = j + 1 := by
  have hmember : s.memberType stop last = (note, j) := by
    rw [memberType, behindParams_of_call hs hcall hclose, hnote]
  have hbody : s.bodyAt stop last = j := by
    simp [bodyAt, behindName_of_call hcall, hcall, hmember]
  have hbrace : s.is "\x7b" j = false := is_eq_false hend (by decide)
  refine ⟨hmember, ?_⟩
  simp [behindMember, hbody, hbrace, hend]

/-- A member that is declared with a type of one word. -/
theorem memberType_of_declared (hcolon : s.is ":" (k + 1) = true) (htype : isWord type = true)
    (h : s.cell? (k + 2) = some (.word type)) (hend : s.is ";" (k + 3) = true)
    (hstop : k + 3 < stop) :
    (∃ note, s.memberType stop last = (some note, k + 3) ∧ note.text = type) ∧
      s.behindMember stop last = k + 4 := by
  obtain ⟨note, hnote, htext⟩ := typeNote_of_word hs hcolon htype h hend hstop
  obtain ⟨hmember, hbehind⟩ := memberType_of_note hs hcall hclose hnote hend
  exact ⟨⟨note, hmember, htext⟩, hbehind⟩

/-- A member that is defined by a body. -/
theorem bodyAt_of_defined (hopen : s.is "\x7b" (k + 1) = true)
    (hclose' : s.closer? (k + 1) = some j) :
    s.bodyAt stop last = k + 1 ∧ s.behindMember stop last = j + 1 := by
  have hcolon : s.is ":" (k + 1) = false := is_eq_false hopen (by decide)
  have hmember : s.memberType stop last = (none, k + 1) := by
    rw [memberType, behindParams_of_call hs hcall hclose, typeNote, hcolon]
    rfl
  have hbody : s.bodyAt stop last = k + 1 := by
    simp [bodyAt, behindName_of_call hcall, hcall, hmember]
  refine ⟨hbody, ?_⟩
  simp [behindMember, hbody, hopen, skip_of_closer? hs hclose']

end

/-! ## Members and classes -/

section

variable {α : Type} {as : List α} {code : α → List Cell}

theorem membersFrom_of_member {m : Member} (hlt : i < stop) (hsemicolon : s.is ";" i = false)
    (hmember : s.member stop i = (some m, next)) (hnext : i < next) :
    s.membersFrom stop i = m :: s.membersFrom stop next := by
  have hmax : max (i + 1) next = next := by omega
  rw [membersFrom, if_pos hlt, hsemicolon, hmember]
  simp [hmax]

theorem membersFrom_self : s.membersFrom stop stop = [] := by
  rw [membersFrom, if_neg (Nat.lt_irrefl stop)]

/-- Code whose parts are each read as one member is read as these members. -/
theorem membersFrom_of_cells {R : α → Member → Prop} (hnonempty : ∀ a ∈ as, code a ≠ [])
    (hmember : ∀ a ∈ as, ∀ j, s.Shows j (code a) → j + (code a).length ≤ stop →
      s.is ";" j = false ∧ ∃ m, s.member stop j = (some m, j + (code a).length) ∧ R a m)
    (h : s.Shows i (as.flatMap code)) (hstop : i + (as.flatMap code).length = stop) :
    ∃ ms, s.membersFrom stop i = ms ∧ List.Forall₂ R as ms := by
  induction as generalizing i with
  | nil =>
    rw [List.flatMap_nil, List.length_nil, Nat.add_zero] at hstop
    exact ⟨[], by rw [hstop, membersFrom_self], .nil⟩
  | cons a as ih =>
    rw [List.flatMap_cons, List.length_append] at hstop
    rw [List.flatMap_cons] at h
    have hlength := List.length_pos_iff.mpr (hnonempty a List.mem_cons_self)
    obtain ⟨hsemicolon, m, hfirst, hm⟩ :=
      hmember a List.mem_cons_self i h.append_left (by omega)
    obtain ⟨ms, hrest, hms⟩ := ih (fun a ha => hnonempty a (List.mem_cons_of_mem _ ha))
      (fun a ha => hmember a (List.mem_cons_of_mem _ ha)) h.append_right (by omega)
    refine ⟨m :: ms, ?_, .cons hm hms⟩
    rw [membersFrom_of_member (by omega) hsemicolon hfirst (by omega), hrest]

theorem itemsFrom_of_item {it : Item} {items : List Item} (hlt : i < s.size)
    (hitem : s.item i = .ok (it, next)) (hnext : i < next) (hrest : s.itemsFrom next = .ok items) :
    s.itemsFrom i = .ok (it :: items) := by
  have hmax : max (i + 1) next = next := by omega
  rw [itemsFrom, if_pos hlt, hitem]
  simp only [hmax, hrest]
  rfl

/-- Code whose parts are each read as one item is read as these items. -/
theorem itemsFrom_of_cells {R : α → Item → Prop} {rest : List Item}
    (hnonempty : ∀ a ∈ as, code a ≠ [])
    (hitem : ∀ a ∈ as, ∀ j, s.Shows j (code a) →
      ∃ it, s.item j = .ok (it, j + (code a).length) ∧ R a it)
    (h : s.Shows i (as.flatMap code))
    (hrest : s.itemsFrom (i + (as.flatMap code).length) = .ok rest) :
    ∃ its, s.itemsFrom i = .ok (its ++ rest) ∧ List.Forall₂ R as its := by
  induction as generalizing i with
  | nil => exact ⟨[], by simpa using hrest, .nil⟩
  | cons a as ih =>
    rw [List.flatMap_cons, List.length_append, ← Nat.add_assoc] at hrest
    rw [List.flatMap_cons] at h
    have hlength := List.length_pos_iff.mpr (hnonempty a List.mem_cons_self)
    obtain ⟨it, hfirst, hit⟩ := hitem a List.mem_cons_self i h.append_left
    obtain ⟨its, hbehind, hits⟩ := ih (fun a ha => hnonempty a (List.mem_cons_of_mem _ ha))
      (fun a ha => hitem a (List.mem_cons_of_mem _ ha)) h.append_right hrest
    exact ⟨it :: its, itemsFrom_of_item (h.append_left.lt_size (hnonempty a List.mem_cons_self))
      hfirst (by omega) hbehind, .cons hit hits⟩

end

/-! ## Items -/

theorem behindModifiers_of_other (h : s.wordIn declarationModifiers i = false) :
    s.behindModifiers i = i := by
  rw [behindModifiers, h]
  simp

theorem behindModifiers_of_modifier (hlt : i < s.size)
    (h : s.wordIn declarationModifiers i = true) :
    s.behindModifiers i = s.behindModifiers (i + 1) := by
  conv => lhs; rw [behindModifiers, if_pos hlt, if_pos h]

theorem behindModifiers_of_export (hexport : s.cell? i = some (.word "export"))
    (hdefault : s.cell? (i + 1) = some (.word "default")) (h : s.cell? (i + 2) = some (.word w))
    (hw : declarationModifiers.contains w = false) : s.behindModifiers i = i + 2 := by
  rw [behindModifiers_of_modifier (lt_size_of_cell? hexport)
      (by rw [wordIn_eq_of_cell? hexport]; decide),
    behindModifiers_of_modifier (lt_size_of_cell? hdefault)
      (by rw [wordIn_eq_of_cell? hdefault]; decide),
    behindModifiers_of_other (by rw [wordIn_eq_of_cell? h, hw])]

/-- An exported class with known members. -/
theorem item_of_class [Limits] (hs : Source.read t = .ok s)
    (h : s.Shows i (.word "export" :: .word "class" :: .word name :: .mark "\x7b" ::
      (inner ++ [.mark "\x7d"])))
    (hinner : Balanced (inner.map Prod.fst)) :
    ∃ c close, close = i + 4 + inner.length ∧ s.closer? (i + 3) = some close ∧
      s.item i = .ok (.classDecl c, close + 1) ∧ s.classDecl i (i + 1) = .ok (c, close + 1) ∧
      c.name = name ∧ c.bodyClose = s.startAt close ∧ c.members = s.membersFrom close (i + 4) := by
  obtain ⟨hexport, h⟩ := shows_cons_iff.mp h
  obtain ⟨hclass, h⟩ := shows_cons_iff.mp h
  obtain ⟨hword, h⟩ := shows_cons_iff.mp h
  have hclose := closer?_eq_some hs h (w := "\x7b") (by decide) hinner
  have hopen := (shows_cons_iff.mp h).1
  have hmodifiers : s.behindModifiers i = i + 1 := by
    rw [behindModifiers_of_modifier (lt_size_of_cell? hexport)
      (by rw [wordIn_eq_of_cell? hexport]; decide)]
    exact behindModifiers_of_other (by rw [wordIn_eq_of_cell? hclass]; decide)
  have hkeyword : s.is "class" (i + 1) = true := (is_eq_of_cell? hclass "class").trans (by decide)
  have hbrace : s.is "\x7b" (i + 1 + 2) = true := (is_eq_of_cell? hopen "\x7b").trans (by decide)
  have hfind : s.find? "\x7b" (i + 1 + 2) = some (i + 1 + 2) := by
    rw [find?, if_pos (lt_size_of_cell? hopen), if_pos hbrace]
  have hdecl : ∃ c, s.classDecl i (i + 1) = .ok (c, i + 4 + inner.length + 1) ∧ c.name = name ∧
      c.bodyClose = s.startAt (i + 4 + inner.length) ∧
      c.members = s.membersFrom (i + 4 + inner.length) (i + 4) := by
    have hplace : i + 1 + 1 + 1 + inner.length + 1 = i + 4 + inner.length := by omega
    rw [hplace] at hclose
    have hskip : s.skip (i + 1 + 2) = i + 4 + inner.length + 1 := skip_of_closer? hs hclose
    have hlast : s.closer? (i + 1 + 2) = some (i + 4 + inner.length) := hclose
    simp only [classDecl, hfind, hskip, hlast, Option.getD_some]
    refine ⟨_, rfl, ?_, rfl, rfl⟩
    exact Option.getD_eq_iff.mpr (.inl (word?_eq_of_cell? hword))
  obtain ⟨c, hdecl, hname, hbody, hmembers⟩ := hdecl
  have hmore : i + 1 + 1 < s.size := lt_size_of_cell? hword
  have hplace : i + 1 + 1 + 1 + inner.length + 1 = i + 4 + inner.length := by omega
  rw [hplace] at hclose
  refine ⟨c, _, rfl, hclose, ?_, hdecl, hname, hbody, hmembers⟩
  simp [item, hmodifiers, hkeyword, hmore, hdecl, Except.map]

/-- A function with a body or a semicolon behind its type. -/
theorem item_of_function [Limits] (hs : Source.read t = .ok s)
    (hmodifiers : s.behindModifiers i = keyword)
    (hkeyword : s.cell? keyword = some (.word "function")) (hname : isWord name = true)
    (hword : s.cell? (keyword + 1) = some (.word name))
    (hcall : s.is "(" (keyword + 2) = true) (hclose : s.closer? (keyword + 2) = some close)
    (hend : s.is "\x7b" (s.behindType close) = true ∨ s.is ";" (s.behindType close) = true) :
    ∃ f, s.item i = .ok (.function f, s.skip (s.behindType close)) ∧ f.name = name ∧
      (s.is "\x7b" (s.behindType close) = true → f.body.isSome = true) := by
  have hclass : s.is "class" keyword = false :=
    (is_eq_of_cell? hkeyword "class").trans (by decide)
  have hfunction : s.is "function" keyword = true :=
    (is_eq_of_cell? hkeyword "function").trans (by decide)
  have hasync : s.is "async" keyword = false :=
    (is_eq_of_cell? hkeyword "async").trans (by decide)
  have hstar : s.is "*" (keyword + 1) = false := is_eq_false_of_isWord hword hname (by decide)
  have hangle : s.is "<" (keyword + 2) = false := is_eq_false hcall (by decide)
  have hparams : s.behindTypeParameters (keyword + 1 + 1) = keyword + 2 := by
    rw [behindTypeParameters, if_neg (by simp [hangle])]
  have hskip : s.skip (keyword + 2) = close + 1 := skip_of_closer? hs hclose
  have hmore : keyword + 1 < s.size := lt_size_of_cell? hword
  have hdecl (exported : ExportKind) : ∃ f, s.functionDecl i keyword exported =
      .ok (f, s.skip (s.behindType close)) ∧ f.name = name ∧
        (s.is "\x7b" (s.behindType close) = true → f.body.isSome = true) := by
    have hbehind : (s.typeNote s.size (close + 1)).2 = s.behindType close := rfl
    simp only [functionDecl, hasync, Bool.false_eq_true, if_false, hstar,
      word?_eq_of_cell? hword, hparams, hcall, if_true, hskip, hbehind, Option.isSome_ite,
      Bool.or_eq_true, hend]
    exact ⟨_, rfl, rfl, fun hbrace => by simp [hbrace]⟩
  obtain ⟨f, hdecl, hrest⟩ := hdecl (.ofWords (s.words i keyword))
  refine ⟨f, ?_, hrest⟩
  simp [item, hmodifiers, hclass, hfunction, hmore, hdecl, Except.map]

theorem statementStop_of_plain [Limits] (hs : Source.read t = .ok s)
    (h : s.Shows i (cells ++ [.mark ";"]))
    (hplain : ∀ cell ∈ cells, isBracket cell.1 = false ∧ cell.1.2 ≠ ";") :
    s.statementStop i = i + cells.length + 1 := by
  induction cells generalizing i with
  | nil =>
    have hend := (shows_cons_iff.mp h).1
    have hmark : s.is ";" i = true := (is_eq_of_cell? hend ";").trans (by decide)
    rw [statementStop, if_pos (lt_size_of_cell? hend), closer?_eq_none hs hend rfl]
    simp [hmark]
  | cons cell cells ih =>
    obtain ⟨hfirst, hrest⟩ := shows_cons_iff.mp h
    obtain ⟨⟨hbracket, hsemicolon⟩, hplain⟩ := List.forall_mem_cons.mp hplain
    have hmark : s.is ";" i = false := by
      rw [is_eq_of_cell? hfirst]
      simp [hsemicolon]
    rw [statementStop, if_pos (lt_size_of_cell? hfirst), closer?_eq_none hs hfirst hbracket]
    simp only [Option.isSome_none, Bool.false_eq_true, if_false, hmark, ih hrest hplain,
      List.length_cons]
    omega

/-- A statement up to its semicolon. -/
theorem item_of_statement [Limits] (hs : Source.read t = .ok s)
    (h : s.Shows i (cells ++ [.mark ";"]))
    (hplain : ∀ cell ∈ cells, isBracket cell.1 = false ∧ cell.1.2 ≠ ";")
    (hmodifiers : s.behindModifiers i = keyword) (hword : s.cell? keyword = some (.word w))
    (hw : ["class", "function", "async"].contains w = false) :
    ∃ st, s.item i = .ok (.statement st, i + cells.length + 1) ∧
      st.words = (cells ++ [Cell.mark ";"]).map (fun cell => cell.1.2) := by
  have hstop := statementStop_of_plain hs h hplain
  simp only [List.contains_eq_mem, List.mem_cons, List.not_mem_nil, or_false,
    decide_eq_false_iff_not, not_or] at hw
  have hclass : s.is "class" keyword = false := by
    rw [is_eq_of_cell? hword]
    simp [hw.1]
  have hfunction : s.is "function" keyword = false := by
    rw [is_eq_of_cell? hword]
    simp [hw.2.1]
  have hasync : s.is "async" keyword = false := by
    rw [is_eq_of_cell? hword]
    simp [hw.2.2]
  have hwords := h.words_eq
  rw [List.length_append, List.length_singleton, ← Nat.add_assoc] at hwords
  refine ⟨⟨s.startAt i, s.stopAt (i + cells.length + 1 - 1), s.words i (i + cells.length + 1)⟩,
    ?_, hwords⟩
  simp [item, hmodifiers, hclass, hfunction, hasync, hstop]

end Source

end WasmPackage.Script
