import WasmPackage.Proofs.Script.Reading
import WasmPackage.Proofs.Text.Trimming
import WasmPackage.Script.DocComment

/-!
# Tags of documentation comments

The type of a tag stands in its comment, and so does the word that a result type is replaced at.
A comment in which the generator documents an output method has just two tags.
-/

namespace WasmPackage.Script

variable {pos n : Nat} {r u v : Text} {word : Text × TagKind} {tag : DocTag} {d : DocComment}

/-! ## Places -/

/-- The type of the tag stands in the text, which begins at this offset. -/
structure DocTag.StandsIn (pos : Nat) (r : Text) (tag : DocTag) : Prop where
  behind : pos ≤ tag.typeStart
  within : tag.typeStart + tag.type.length ≤ pos + r.length
  type : r.slice (tag.typeStart - pos) (tag.typeStart - pos + tag.type.length) = tag.type

/-- What stands in the text behind some characters stands in the whole. -/
theorem DocTag.StandsIn.of_drop {c : Char} (h : tag.StandsIn (pos + 1 + n) (r.drop n))
    (hn : n ≤ r.length) : tag.StandsIn pos (c :: r) := by
  obtain ⟨hbehind, hwithin, htype⟩ := h
  rw [Text.slice, Nat.add_sub_cancel_left, List.drop_drop] at htype
  refine ⟨by omega, ?_, ?_⟩
  · rw [List.length_drop] at hwithin
    rw [List.length_cons]
    omega
  · have hshift : tag.typeStart - pos = n + (tag.typeStart - (pos + 1 + n)) + 1 := by omega
    rw [Text.slice, Nat.add_sub_cancel_left, hshift, List.drop_succ_cons, htype]

theorem standsIn_of_tagWith? (h : tagWith? pos r word = some (tag, n)) :
    tag.StandsIn (pos + 1) r := by
  unfold tagWith? at h
  split at h
  · simp only at h
    split at h
    · next inner hopen =>
      split at h
      · next rest hclose =>
        have hplace : tag.typeStart = pos + 1 +
            (word.1.length + ((r.drop word.1.length).takeWhile isBlank).length + 1) ∧
            tag.type = inner.takeWhile (· ≠ '}') := by
          split at h <;> cases h <;> exact ⟨rfl, rfl⟩
        have hinner : r.drop
            (word.1.length + ((r.drop word.1.length).takeWhile isBlank).length + 1) = inner := by
          rw [← List.drop_drop, hopen, List.drop_succ_cons, List.drop_zero]
        have hopened := congrArg List.length hopen
        have hclosed := congrArg List.length hclose
        rw [List.length_drop, List.length_cons] at hopened hclosed
        constructor
        · omega
        · rw [hplace.1, hplace.2]
          omega
        · rw [hplace.1, hplace.2, Text.slice, Nat.add_sub_cancel_left, Nat.add_sub_cancel_left,
            hinner]
          exact List.prefix_iff_eq_take.mp (List.takeWhile_prefix _) |>.symm
      · cases h
    · cases h
  · cases h

theorem standsIn_of_mem_tagsFrom (h : tag ∈ tagsFrom pos r) : tag.StandsIn pos r := by
  fun_induction tagsFrom pos r with
  | case1 => cases h
  | case2 pos r tag' n hfound ih =>
    rcases List.exists_of_findSome?_eq_some hfound with ⟨word, -, hword⟩
    rcases List.mem_cons.mp h with rfl | h
    · exact .of_drop (n := 0) (standsIn_of_tagWith? hword) (Nat.zero_le _)
    · refine (ih h).of_drop ?_
      -- there are no tags behind the end of the text
      by_contra hover
      rw [List.drop_eq_nil_of_le (by omega), tagsFrom] at h
      cases h
  | case3 pos r hfound ih => exact .of_drop (n := 0) (ih h) (Nat.zero_le _)
  | case4 pos c r hc ih => exact .of_drop (n := 0) (ih h) (Nat.zero_le _)

theorem length_trim_le : (u.takeWhile isBlank).length + u.trim.length ≤ u.length := by
  obtain ⟨rest, -, hu⟩ := Text.exists_eq_trim u
  have hlength := congrArg List.length hu
  rw [List.length_append, List.length_append] at hlength
  omega

/-- A type is put for the word `void` in the type of a tag, behind the blanks at its front. -/
theorem exists_tag_of_voidSpan? {span : Nat × Nat} (h : d.voidSpan? = some span) :
    ∃ tag : DocTag, tag.StandsIn 0 d.text ∧ tag.type.trim = "void".toList ∧
      span = (d.start + tag.typeStart + (tag.type.takeWhile isBlank).length,
        d.start + tag.typeStart + (tag.type.takeWhile isBlank).length + 4) := by
  rcases Option.map_eq_some_iff.mp h with ⟨tag, htag, rfl⟩
  have hmem := List.mem_of_getLast? htag
  rw [List.mem_filter, Bool.and_eq_true, decide_eq_true_eq, decide_eq_true_eq] at hmem
  rcases hmem with ⟨htags, -, hvoid⟩
  refine ⟨tag, standsIn_of_mem_tagsFrom htags, ?_, rfl⟩
  rw [← hvoid, DocTag.trimmedType, String.toList_ofList]

/-- The word `void` that a type is put for stands in the comment. -/
theorem voidSpan?_within {span : Nat × Nat} (h : d.voidSpan? = some span) :
    d.start ≤ span.1 ∧ span.1 < span.2 ∧ span.2 ≤ d.stop := by
  rcases exists_tag_of_voidSpan? h with ⟨tag, hplace, hvoid, rfl⟩
  have hwithin := hplace.within
  have hlength : tag.type.trim.length = 4 := by
    rw [hvoid]
    rfl
  have htrim := length_trim_le (u := tag.type)
  simp only [DocComment.stop]
  omega

/-- A type is put for the word `void`. -/
theorem slice_of_voidSpan? {span : Nat × Nat} (h : d.voidSpan? = some span) :
    d.text.slice (span.1 - d.start) (span.2 - d.start) = "void".toList := by
  rcases exists_tag_of_voidSpan? h with ⟨tag, hplace, hvoid, rfl⟩
  have hslice := hplace.type
  rw [Nat.sub_zero, Text.slice, Nat.add_sub_cancel_left] at hslice
  generalize hlead : (tag.type.takeWhile isBlank).length = lead
  have hfront : "void".toList <+: tag.type.drop lead := by
    rw [← hvoid, Text.trim, ← hlead, drop_takeWhile]
    exact Text.trimEnd_prefix
  have hdrop : tag.type.drop lead <+: d.text.drop (tag.typeStart + lead) := by
    rw [← hslice, List.drop_take, List.drop_drop]
    exact List.take_prefix _ _
  have hword := List.prefix_iff_eq_take.mp (hfront.trans hdrop)
  have hstart : d.start + tag.typeStart + lead - d.start = tag.typeStart + lead := by omega
  have hlength : d.start + tag.typeStart + lead + 4 - d.start - (tag.typeStart + lead) =
      "void".toList.length := by
    have hfour : "void".toList.length = 4 := rfl
    omega
  simp only [Text.slice, hstart, hlength]
  exact hword.symm

/-! ## Tags in a text -/

theorem tagsFrom_append (hu : '@' ∉ u) : tagsFrom pos (u ++ r) = tagsFrom (pos + u.length) r := by
  induction u generalizing pos with
  | nil => rfl
  | cons c u ih =>
    rw [List.mem_cons, not_or] at hu
    rw [List.cons_append, tagsFrom, if_neg (Ne.symm hu.1), ih hu.2, List.length_cons]
    congr 1
    omega

/-- A run does not go on behind a character that does not belong to it. -/
theorem takeWhile_append_of_not {p : Char → Bool} {c : Char} (hc : p c = false) :
    (u ++ c :: v).takeWhile p = u.takeWhile p := by
  rw [List.takeWhile_append]
  split
  · next hall => rw [List.takeWhile_cons_of_neg (by simp [hc]), List.append_nil,
      (List.takeWhile_prefix p).eq_of_length hall]
  · rfl

/-- The characters of a text up to one that does not belong to its class. -/
theorem takeWhile_append_cons {p : Char → Bool} {c : Char} (hu : ∀ d ∈ u, p d = true)
    (hc : p c = false) : (u ++ c :: r).takeWhile p = u := by
  rw [takeWhile_append_of_not hc, List.takeWhile_eq_self_iff.mpr hu]

/-- The tag at the front of a text: its word, blanks, a type in braces, and a name if one stands
behind these. -/
theorem tagWith?_append (pos : Nat) (word : Text × TagKind) (r : Text) {gap : Text}
    (hgap : ∀ c ∈ gap, isBlank c = true) (hu : '}' ∉ u) :
    tagWith? pos (word.1 ++ (gap ++ '{' :: (u ++ '}' :: r))) word =
      let blanks := (r.takeWhile (fun c => c = ' ' || c = '\t')).length
      let name := (r.drop blanks).takeWhile (fun c => isWordChar c || c = '$')
      let typeAt := word.1.length + gap.length + 1
      if name.isEmpty then
        some (⟨word.2, u, pos + 1 + typeAt, none⟩, typeAt + u.length + 1)
      else
        some (⟨word.2, u, pos + 1 + typeAt, some (String.ofList name)⟩,
          typeAt + u.length + 1 + blanks + name.length) := by
  have hstart : Text.startsWith (word.1 ++ (gap ++ '{' :: (u ++ '}' :: r))) word.1 = true := by
    simp [Text.startsWith]
  have hblanks : (gap ++ '{' :: (u ++ '}' :: r)).takeWhile isBlank = gap :=
    takeWhile_append_cons hgap (by decide)
  have htype : (u ++ '}' :: r).takeWhile (fun c => decide (c ≠ '}')) = u := by
    refine takeWhile_append_cons ?_ (by decide)
    intro c hc
    rw [decide_eq_true_eq]
    rintro rfl
    exact hu hc
  have hbehind : (word.1 ++ (gap ++ '{' :: (u ++ '}' :: r))).drop (word.1.length + gap.length) =
      '{' :: (u ++ '}' :: r) := by
    rw [← List.append_assoc, ← List.length_append, List.drop_left]
  unfold tagWith?
  simp only [hstart, if_true, List.drop_left, hblanks, hbehind, htype]

theorem tagsFrom_cons (h : tagWords.findSome? (tagWith? pos r) = some (tag, n)) :
    tagsFrom pos ('@' :: r) = tag :: tagsFrom (pos + 1 + n) (r.drop n) := by
  rw [tagsFrom, if_pos rfl, h]

/-- The tag for a parameter `out`, in front of a line end. -/
theorem tagsFrom_param (pos : Nat) (r : Text) (hu : '}' ∉ u) : ∃ pos', tagsFrom pos
    ("@param \x7b".toList ++ (u ++ ("\x7d out\n".toList ++ r))) =
      ⟨.param, u, pos + 8, some "out"⟩ :: tagsFrom pos' ('\n' :: r) := by
  have hspace : ∀ c ∈ [' '], isBlank c = true := List.forall_mem_singleton.mpr rfl
  have htag := tagWith?_append pos ("param".toList, .param)
    (' ' :: 'o' :: 'u' :: 't' :: '\n' :: r) hspace hu
  have hchars : isWordChar 'o' = true ∧ isWordChar 'u' = true ∧ isWordChar 't' = true ∧
      isWordChar '\n' = false := by decide
  simp [hchars] at htag
  have hdrop : ("param \x7b".toList ++ (u ++ ("\x7d out\n".toList ++ r))).drop
      (7 + u.length + 1 + 1 + 3) = '\n' :: r := by
    have hsplit : "param \x7b".toList ++ (u ++ ("\x7d out\n".toList ++ r)) =
        ("param \x7b".toList ++ u ++ "\x7d out".toList) ++ '\n' :: r := by simp
    rw [hsplit]
    apply List.drop_left'
    simp
    omega
  have hfound : tagWords.findSome?
      (tagWith? pos ("param \x7b".toList ++ (u ++ ("\x7d out\n".toList ++ r)))) =
      some (⟨.param, u, pos + 8, some "out"⟩, 7 + u.length + 1 + 1 + 3) := by
    simp [tagWords, htag]
  have htags := tagsFrom_cons hfound
  rw [hdrop] at htags
  exact ⟨_, htags⟩

/-- The tag that says nothing is returned, in front of a line end. -/
theorem tagsFrom_returns (pos : Nat) (r : Text) :
    ∃ pos', tagsFrom pos ("@returns \x7bvoid\x7d\n".toList ++ r) =
      ⟨.returns, "void".toList, pos + 10, none⟩ :: tagsFrom pos' ('\n' :: r) := by
  have hspace : ∀ c ∈ [' '], isBlank c = true := List.forall_mem_singleton.mpr rfl
  have htag := tagWith?_append pos ("returns".toList, .returns) ('\n' :: r) (u := "void".toList)
    hspace (by decide)
  have hchar : isWordChar '\n' = false := by decide
  simp [hchar] at htag
  have hdrop : ("returns \x7bvoid\x7d\n".toList ++ r).drop 14 = '\n' :: r := by simp
  have hfound : tagWords.findSome? (tagWith? pos ("returns \x7bvoid\x7d\n".toList ++ r)) =
      some (⟨.returns, "void".toList, pos + 10, none⟩, 14) := by
    have hother (v : Text) :
        tagWith? pos ('r' :: v) (['p', 'a', 'r', 'a', 'm'], .param) = none := by
      simp [tagWith?, Text.startsWith, List.isPrefixOf]
    simp [tagWords, htag, hother]
  have htags := tagsFrom_cons hfound
  rw [hdrop] at htags
  exact ⟨_, htags⟩

end WasmPackage.Script
