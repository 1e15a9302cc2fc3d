import WasmPackage.Proofs.Script.DocTags

/-!
# Putting a type for another

Tags are found from the front of a comment on, each behind the one before, and a text in braces may
look like a tag itself.  Nevertheless another text can be put for the type of a tag and the comment
keeps its tags: a tag ends its type at the first closing brace, so the text in the braces is not
read for tags, and where a tag in front of the type begins and ends is decided before the at sign
of the type's own tag.
-/

namespace WasmPackage.Script

variable {pos pos' n : Nat} {r u v rest gap type : Text} {word : Text × TagKind} {tag : DocTag}
  {d : DocComment}

/-! ## The parts of a tag -/

/-- Behind its at sign, the text begins with a tag: a word, blanks, and a type in braces. -/
structure OpensTag (word : Text × TagKind) (gap type rest r : Text) : Prop where
  isWord : word ∈ tagWords
  blanks : ∀ c ∈ gap, isBlank c = true
  ends : '}' ∉ type
  text : r = word.1 ++ (gap ++ '{' :: (type ++ '}' :: rest))

/-- The name behind the braces of a tag, and the number of characters that it takes with the spaces
in front of it. -/
def nameBehind (rest : Text) : Option String × Nat :=
  let blanks := (rest.takeWhile (fun c => c = ' ' || c = '\t')).length
  let name := (rest.drop blanks).takeWhile (fun c => isWordChar c || c = '$')
  if name.isEmpty then (none, 0) else (some (String.ofList name), blanks + name.length)

/-- The tag that stands at an at sign, given its parts. -/
def tagAt (pos : Nat) (word : Text × TagKind) (gap type rest : Text) : DocTag :=
  ⟨word.2, type, pos + 1 + (word.1.length + gap.length + 1), (nameBehind rest).1⟩

theorem nameBehind_le : (nameBehind rest).2 ≤ rest.length := by
  have hblanks := (List.takeWhile_prefix (l := rest) (fun c => c = ' ' || c = '\t')).length_le
  have hname := (List.takeWhile_prefix (fun c => isWordChar c || c = '$')
    (l := rest.drop (rest.takeWhile (fun c => c = ' ' || c = '\t')).length)).length_le
  rw [List.length_drop] at hname
  unfold nameBehind
  simp only
  split
  · exact Nat.zero_le _
  · simp only
    omega

/-- A name ends in front of an at sign. -/
theorem nameBehind_append : nameBehind (u ++ '@' :: v) = nameBehind u := by
  have hblanks := takeWhile_append_of_not (p := fun c => c = ' ' || c = '\t') (c := '@') (u := u)
    (v := v) rfl
  have hle := (List.takeWhile_prefix (l := u) (fun c => c = ' ' || c = '\t')).length_le
  have hat : (isWordChar '@' || decide ('@' = '$')) = false := by decide
  simp only [nameBehind, hblanks, List.drop_append_of_le_length hle,
    takeWhile_append_of_not (p := fun c => isWordChar c || decide (c = '$')) hat]

theorem tagWith?_eq_none (h : r.startsWith word.1 = false) : tagWith? pos r word = none := by
  rw [tagWith?, if_neg (by simp [h])]

/-- At most one word of a tag stands at the front of a text. -/
theorem findSome?_of_opensTag (pos : Nat) (h : OpensTag word gap type rest r) :
    tagWords.findSome? (tagWith? pos r) = some (tagAt pos word gap type rest,
      word.1.length + gap.length + 1 + type.length + 1 + (nameBehind rest).2) := by
  have hfound : tagWith? pos r word = some (tagAt pos word gap type rest,
      word.1.length + gap.length + 1 + type.length + 1 + (nameBehind rest).2) := by
    rw [h.text, tagWith?_append pos word rest h.blanks h.ends]
    unfold tagAt nameBehind
    simp only
    split <;> simp only [Nat.add_zero, Nat.add_assoc]
  have hword := h.isWord
  simp only [tagWords, List.mem_cons, List.not_mem_nil, or_false] at hword
  rcases hword with rfl | rfl | rfl
  · rw [tagWords, List.findSome?_cons, hfound]
  · have hparam : tagWith? pos r ("param".toList, .param) = none :=
      tagWith?_eq_none (by simp [h.text, Text.startsWith, List.isPrefixOf])
    rw [tagWords, List.findSome?_cons, hparam, List.findSome?_cons, hfound]
  · have hparam : tagWith? pos r ("param".toList, .param) = none :=
      tagWith?_eq_none (by simp [h.text, Text.startsWith, List.isPrefixOf])
    -- the longer word does not stand here: behind the shorter one comes a blank or a brace
    have hlonger : tagWith? pos r ("returns".toList, .returns) = none := by
      apply tagWith?_eq_none
      cases gap with
      | nil => simp [h.text, Text.startsWith, List.isPrefixOf]
      | cons c gap =>
        have hc : c ≠ 's' := by
          rintro rfl
          exact absurd (h.blanks 's' List.mem_cons_self) (by decide)
        simp [h.text, Text.startsWith, List.isPrefixOf, hc.symm]
    rw [tagWords, List.findSome?_cons, hparam, List.findSome?_cons, hlonger, List.findSome?_cons,
      hfound]

theorem exists_opensTag (h : tagWords.findSome? (tagWith? pos r) = some (tag, n)) :
    ∃ word gap type rest, OpensTag word gap type rest r := by
  rcases List.exists_of_findSome?_eq_some h with ⟨word, hword, hfound⟩
  unfold tagWith? at hfound
  split at hfound
  · next hstart =>
    obtain ⟨behind, rfl⟩ := List.isPrefixOf_iff_prefix.mp hstart
    simp only at hfound
    split at hfound
    · next inner hopen =>
      split at hfound
      · next rest hclose =>
        rw [List.drop_left, ← List.drop_drop, List.drop_left, drop_takeWhile] at hopen
        rw [drop_takeWhile] at hclose
        refine ⟨word, behind.takeWhile isBlank, inner.takeWhile (· ≠ '}'), rest, hword,
          fun c hc => List.mem_takeWhile_imp hc, fun hbrace => ?_, ?_⟩
        · simpa using List.mem_takeWhile_imp hbrace
        · rw [← hclose, List.takeWhile_append_dropWhile, ← hopen, List.takeWhile_append_dropWhile]
      · cases hfound
    · cases hfound
  · cases hfound

theorem OpensTag.drop_eq (h : OpensTag word gap type rest r) :
    r.drop (word.1.length + gap.length + 1 + type.length + 1 + n) = rest.drop n := by
  have hlength : (word.1 ++ (gap ++ '{' :: (type ++ ['}']))).length =
      word.1.length + gap.length + 1 + type.length + 1 := by
    simp only [List.length_append, List.length_cons, List.length_nil]
    omega
  have htext : r = (word.1 ++ (gap ++ '{' :: (type ++ ['}']))) ++ rest := by
    rw [h.text]
    simp
  rw [← List.drop_drop, ← hlength, htext, List.drop_left]

/-- The tags from a tag on are this one and those behind its name. -/
theorem tagsFrom_of_opensTag (h : OpensTag word gap type rest r) :
    tagsFrom pos ('@' :: r) = tagAt pos word gap type rest ::
      tagsFrom (pos + 1 + (word.1.length + gap.length + 1 + type.length + 1 + (nameBehind rest).2))
        (rest.drop (nameBehind rest).2) := by
  rw [tagsFrom_cons (findSome?_of_opensTag pos h), h.drop_eq]

/-- A tag ends in front of the next at sign, whatever stands behind that. -/
theorem OpensTag.exists_append {front : Text} (h : OpensTag word gap type rest r)
    (hrest : rest.drop (nameBehind rest).2 = front ++ '@' :: v) : ∃ here,
    r = here ++ (front ++ '@' :: v) ∧
      here.length = word.1.length + gap.length + 1 + type.length + 1 + (nameBehind rest).2 ∧
      ∀ v', tagsFrom pos ('@' :: (here ++ (front ++ '@' :: v'))) =
        tagAt pos word gap type rest :: tagsFrom (pos + 1 + here.length) (front ++ '@' :: v') := by
  generalize hname : rest.take (nameBehind rest).2 = name
  have hlength : name.length = (nameBehind rest).2 := by
    rw [← hname, List.length_take, Nat.min_eq_left nameBehind_le]
  have hsplit : rest = (name ++ front) ++ '@' :: v := by
    rw [List.append_assoc, ← hrest, ← hname, List.take_append_drop]
  refine ⟨word.1 ++ (gap ++ '{' :: (type ++ '}' :: name)), ?_, ?_, ?_⟩
  · rw [h.text, hsplit]
    simp
  · simp only [List.length_append, List.length_cons, hlength]
    omega
  · intro v'
    have hsame : nameBehind ((name ++ front) ++ '@' :: v') = nameBehind rest := by
      rw [hsplit, nameBehind_append, nameBehind_append]
    have hopens : OpensTag word gap type ((name ++ front) ++ '@' :: v')
        ((word.1 ++ (gap ++ '{' :: (type ++ '}' :: name))) ++ (front ++ '@' :: v')) :=
      ⟨h.isWord, h.blanks, h.ends, by simp⟩
    rw [tagsFrom_of_opensTag hopens, hsame, ← hlength, List.append_assoc, List.drop_left, tagAt,
      ← List.append_assoc, hsame]
    congr 2
    simp only [List.length_append, List.length_cons]
    omega

/-- Where no tag stands, the tags are those behind the at sign. -/
theorem tagsFrom_of_forall_not_opensTag (h : ∀ word gap type rest, ¬OpensTag word gap type rest r) :
    tagsFrom pos ('@' :: r) = tagsFrom (pos + 1) r := by
  rw [tagsFrom, if_pos rfl]
  split
  · next hfound =>
    obtain ⟨word, gap, type, rest, hopens⟩ := exists_opensTag hfound
    exact absurd hopens (h word gap type rest)
  · rfl

/-- Does a tag stand at the front of a text?  It does not matter what stands behind an at sign, as
long as a brace is closed there. -/
theorem OpensTag.of_append (h : OpensTag word gap type rest (u ++ '@' :: v)) (hr : '}' ∈ r) :
    ∃ type rest, OpensTag word gap type rest (u ++ '@' :: r) := by
  have hword : '@' ∉ word.1 := by
    have hall : ∀ word ∈ tagWords, '@' ∉ word.1 := by decide
    exact hall word h.isWord
  have hgap : '@' ∉ gap := fun hat => absurd (h.blanks '@' hat) (by decide)
  -- the word, the blanks and the brace stand in front of the at sign
  have hfront : ∃ inner, u = word.1 ++ (gap ++ '{' :: inner) := by
    have htext : u ++ '@' :: v = (word.1 ++ (gap ++ ['{'])) ++ (type ++ '}' :: rest) := by
      rw [h.text]
      simp
    rcases List.append_eq_append_iff.mp htext with ⟨behind, hu, hv⟩ | ⟨inner, hu, -⟩
    · cases behind with
      | nil => exact ⟨[], by simpa using hu.symm⟩
      | cons c behind =>
        obtain rfl : '@' = c := (List.cons.inj hv).1
        have hat : '@' ∈ word.1 ++ (gap ++ ['{']) := by simp [hu]
        simp [hword, hgap] at hat
    · exact ⟨inner, by simpa using hu⟩
  rcases hfront with ⟨inner, rfl⟩
  obtain ⟨type, rest, hclose, hends⟩ :=
    List.eq_append_cons_of_mem (List.mem_append_right inner (List.mem_cons_of_mem '@' hr))
  exact ⟨type, rest, h.isWord, h.blanks, hends, by simp [hclose]⟩

/-! ## Tags without their places -/

/-- What a tag says, wherever it stands. -/
def DocTag.withoutPlace (tag : DocTag) : DocTag :=
  { tag with typeStart := 0 }

/-- The same tags are found in a text wherever the text begins. -/
theorem map_withoutPlace_tagsFrom :
    (tagsFrom pos r).map DocTag.withoutPlace = (tagsFrom pos' r).map DocTag.withoutPlace := by
  fun_induction tagsFrom pos r generalizing pos' with
  | case1 => rw [tagsFrom]
  | case2 pos r tag n hfound ih =>
    obtain ⟨word, gap, type, rest, hopens⟩ := exists_opensTag hfound
    have hhere := findSome?_of_opensTag pos hopens
    have hthere := findSome?_of_opensTag pos' hopens
    rw [hfound, Option.some.injEq, Prod.mk.injEq] at hhere
    rw [tagsFrom_cons hthere, List.map_cons, List.map_cons, ← hhere.2, hhere.1, ih]
    rfl
  | case3 pos r hfound ih =>
    rw [tagsFrom_of_forall_not_opensTag]
    · exact ih
    · intro word gap type rest hopens
      rw [findSome?_of_opensTag _ hopens] at hfound
      cases hfound
  | case4 pos c r hc ih =>
    rw [tagsFrom, if_neg hc]
    exact ih

/-! ## Another text in the braces of a tag -/

/-- A tag of a text has its type in braces behind an at sign.  With another type in its braces the
text has the same tags in front of it, the tag with this type, and behind it tags that say the
same. -/
theorem tagsFrom_retyped {before after : List DocTag}
    (h : tagsFrom pos r = before ++ tag :: after) :
    ∃ front inner behind, r = front ++ '@' :: (inner ++ (tag.type ++ '}' :: behind)) ∧
      tag.typeStart = pos + front.length + 1 + inner.length ∧ '}' ∉ tag.type ∧
      ∀ u, '}' ∉ u → ∃ after',
        tagsFrom pos (front ++ '@' :: (inner ++ (u ++ '}' :: behind))) =
          before ++ { tag with type := u } :: after' ∧
        after'.map DocTag.withoutPlace = after.map DocTag.withoutPlace := by
  fun_induction tagsFrom pos r generalizing before with
  | case1 => simp at h
  | case2 pos r tag' n hfound ih =>
    obtain ⟨word, gap, type, rest, hopens⟩ := exists_opensTag hfound
    rw [findSome?_of_opensTag _ hopens, Option.some.injEq, Prod.mk.injEq] at hfound
    rcases hfound with ⟨rfl, rfl⟩
    rw [hopens.drop_eq] at h ih
    cases before with
    | nil =>
      -- the type is that of the tag at the front, and the tags behind it only move
      rw [List.nil_append, List.cons.injEq] at h
      rcases h with ⟨rfl, rfl⟩
      refine ⟨[], word.1 ++ (gap ++ ['{']), rest, ?_, ?_, hopens.ends, ?_⟩
      · simp [hopens.text, tagAt]
      · simp only [tagAt, List.length_append, List.length_cons, List.length_nil]
        omega
      · intro u hu
        have hopens' : OpensTag word gap u rest (word.1 ++ (gap ++ ['{']) ++ (u ++ '}' :: rest)) :=
          ⟨hopens.isWord, hopens.blanks, hu, by simp⟩
        exact ⟨_, tagsFrom_of_opensTag hopens', map_withoutPlace_tagsFrom⟩
    | cons first before =>
      -- the tag at the front ends before the at sign of the type's own tag
      rw [List.cons_append, List.cons.injEq] at h
      rcases h with ⟨rfl, htail⟩
      obtain ⟨front, inner, behind, htext, hstart, hends, hretyped⟩ := ih htail
      obtain ⟨here, hr, hlength, hhere⟩ := hopens.exists_append htext
      rw [← hlength] at hstart hretyped
      refine ⟨'@' :: (here ++ front), inner, behind, ?_, ?_, hends, ?_⟩
      · rw [hr, List.cons_append, List.append_assoc]
      · rw [hstart, List.length_cons, List.length_append]
        omega
      · intro u hu
        rw [List.cons_append, List.append_assoc, hhere]
        obtain ⟨after', htags, hafter⟩ := hretyped u hu
        exact ⟨after', by rw [htags, List.cons_append], hafter⟩
  | case3 pos r hfound ih =>
    -- no tag stands at this at sign, and the other type does not make one
    obtain ⟨front, inner, behind, htext, hstart, hends, hretyped⟩ := ih h
    refine ⟨'@' :: front, inner, behind, by rw [htext, List.cons_append], ?_, hends, ?_⟩
    · rw [hstart, List.length_cons]
      omega
    · intro u hu
      rw [List.cons_append, tagsFrom_of_forall_not_opensTag]
      · exact hretyped u hu
      · intro word gap type rest hopens
        obtain ⟨type', rest', hopens'⟩ :=
          hopens.of_append (r := inner ++ (tag.type ++ '}' :: behind)) (by simp)
        rw [← htext] at hopens'
        rw [findSome?_of_opensTag _ hopens'] at hfound
        cases hfound
  | case4 pos c r hc ih =>
    obtain ⟨front, inner, behind, htext, hstart, hends, hretyped⟩ := ih h
    refine ⟨c :: front, inner, behind, by rw [htext, List.cons_append], ?_, hends, ?_⟩
    · rw [hstart, List.length_cons]
      omega
    · intro u hu
      rw [List.cons_append, tagsFrom, if_neg hc]
      exact hretyped u hu

/-- What tags say of their types, apart from their places. -/
theorem map_trimmedType_filter {p : DocTag → Bool} {tags tags' : List DocTag}
    (hp : ∀ tag, p tag.withoutPlace = p tag)
    (h : tags'.map DocTag.withoutPlace = tags.map DocTag.withoutPlace) :
    (tags'.filter p).map DocTag.trimmedType = (tags.filter p).map DocTag.trimmedType := by
  have hsame (tags : List DocTag) : (tags.filter p).map DocTag.trimmedType =
      ((tags.map DocTag.withoutPlace).filter p).map DocTag.trimmedType := by
    have hcomp : p ∘ DocTag.withoutPlace = p := funext hp
    rw [List.filter_map, List.map_map, hcomp]
    rfl
  rw [hsame tags', h, ← hsame tags]

/-! ## The type `void` -/

/-- The tag says that nothing is returned. -/
def DocTag.IsVoid (tag : DocTag) : Prop :=
  tag.kind = .returns ∧ tag.trimmedType = "void"

namespace DocComment

variable {span : Nat × Nat} {before after : List DocTag}

/-- The comment with another text at a span of the whole text. -/
def withTextAt (d : DocComment) (span : Nat × Nat) (u : Text) : DocComment :=
  { d with text := d.text.take (span.1 - d.start) ++ (u ++ d.text.drop (span.2 - d.start)) }

/-- The span is the place of the type of the tag, without the blanks around the type. -/
def IsTypePlace (d : DocComment) (tag : DocTag) (span : Nat × Nat) : Prop :=
  d.text.slice tag.typeStart (tag.typeStart + tag.type.length) = tag.type ∧
    ∃ gap rest, (∀ c ∈ gap, isBlank c = true) ∧ (∀ c ∈ rest, isBlank c = true) ∧
      tag.type = gap ++ (tag.type.trim ++ rest) ∧
      span.1 = d.start + tag.typeStart + gap.length ∧ span.2 = span.1 + tag.type.trim.length

theorem voidSpan?_eq_none_iff : d.voidSpan? = none ↔ "void" ∉ d.typesOfResult := by
  have hmem : "void" ∈ d.typesOfResult ↔ ∃ tag ∈ d.tags, tag.IsVoid := by
    simp [typesOfResult, DocTag.IsVoid, and_assoc]
  rw [voidSpan?, Option.map_eq_none_iff, List.getLast?_eq_none_iff, List.filter_eq_nil_iff, hmem]
  simp [DocTag.IsVoid]

/-- The span is the type of the last tag that says nothing is returned. -/
theorem exists_isVoid_of_voidSpan? (h : d.voidSpan? = some span) : ∃ before tag after,
    d.tags = before ++ tag :: after ∧ tag.IsVoid ∧ (∀ later ∈ after, ¬later.IsVoid) ∧
      d.IsTypePlace tag span := by
  rcases Option.map_eq_some_iff.mp h with ⟨tag, htag, rfl⟩
  rcases List.getLast?_eq_some_iff.mp htag with ⟨voids, hvoids⟩
  rcases List.filter_eq_append_iff.mp hvoids with ⟨first, rest, htags, -, hlast⟩
  rcases List.filter_eq_cons_iff.mp hlast with ⟨middle, after, rfl, -, hvoid, hafter⟩
  rw [Bool.and_eq_true, decide_eq_true_eq, decide_eq_true_eq] at hvoid
  have htags' : d.tags = (first ++ middle) ++ tag :: after := by rw [htags, List.append_assoc]
  refine ⟨first ++ middle, tag, after, htags', hvoid, ?_, ?_, ?_⟩
  · intro later hlater hisVoid
    exact List.filter_eq_nil_iff.mp hafter later hlater (by simp [hisVoid.1, hisVoid.2])
  · have hmem : tag ∈ tagsFrom 0 d.text := by
      change tag ∈ d.tags
      simp [htags']
    simpa using (standsIn_of_mem_tagsFrom hmem).type
  · obtain ⟨blanks, hblanks, htype⟩ := Text.exists_eq_trim tag.type
    have hlength : tag.type.trim.length = 4 := by
      have htext := congrArg String.toList hvoid.2
      rw [DocTag.trimmedType, String.toList_ofList] at htext
      rw [htext]
      rfl
    exact ⟨tag.type.takeWhile isBlank, blanks, fun c hc => List.mem_takeWhile_imp hc, hblanks,
      htype, rfl, by simp [hlength]⟩

/-- With another type put for that of a tag, the comment has the tags in front of it, the tag with
this type, and tags that say the same as those behind it. -/
theorem tags_withTextAt (htags : d.tags = before ++ tag :: after) (hplace : d.IsTypePlace tag span)
    (hne : u ≠ []) (htrim : u.trim = u) (hends : '}' ∉ u) : ∃ type after',
    (d.withTextAt span u).tags = before ++ { tag with type := type } :: after' ∧ type.trim = u ∧
      after'.map DocTag.withoutPlace = after.map DocTag.withoutPlace := by
  rcases hplace with ⟨-, gap, rest, hgap, hrest, htype, hstart, hstop⟩
  obtain ⟨front, inner, behind, htext, htypeStart, htypeEnds, hretyped⟩ := tagsFrom_retyped htags
  -- the span cuts the text in the type, behind the blanks and in front of the blanks
  have hcut : d.text = (front ++ '@' :: (inner ++ gap)) ++
      (tag.type.trim ++ (rest ++ '}' :: behind)) := by
    rw [htext]
    conv_lhs => rw [htype]
    simp
  have hlength : (front ++ '@' :: (inner ++ gap)).length = span.1 - d.start := by
    rw [List.length_append, List.length_cons, List.length_append]
    omega
  have hdrop : d.text.drop (span.2 - d.start) = rest ++ '}' :: behind := by
    have hbehind : span.2 - d.start =
        (front ++ '@' :: (inner ++ gap)).length + tag.type.trim.length := by
      omega
    rw [hbehind, ← List.drop_drop, hcut, List.drop_left, List.drop_left]
  have hreplaced : (d.withTextAt span u).text =
      front ++ '@' :: (inner ++ ((gap ++ (u ++ rest)) ++ '}' :: behind)) := by
    rw [withTextAt]
    simp only
    rw [hdrop, ← hlength, hcut, List.take_left]
    simp
  have htypeEnds' : '}' ∉ gap ++ (u ++ rest) := by
    rw [htype] at htypeEnds
    simp only [List.mem_append, not_or] at htypeEnds ⊢
    exact ⟨htypeEnds.1, hends, htypeEnds.2.2⟩
  obtain ⟨after', htags', hafter⟩ := hretyped _ htypeEnds'
  refine ⟨gap ++ (u ++ rest), after', ?_, Text.trim_append htrim hne hgap hrest, hafter⟩
  rw [tags, hreplaced, htags']

theorem typesOfParameter_withTextAt (htags : d.tags = before ++ tag :: after)
    (hkind : tag.kind = .returns) (hplace : d.IsTypePlace tag span)
    (hne : u ≠ []) (htrim : u.trim = u) (hends : '}' ∉ u) (name : String) :
    (d.withTextAt span u).typesOfParameter name = d.typesOfParameter name := by
  obtain ⟨type, after', htags', -, hafter⟩ := tags_withTextAt htags hplace hne htrim hends
  have hsame := map_trimmedType_filter
    (p := fun tag => decide (tag.kind = .param) && decide (tag.name = some name))
    (fun _ => rfl) hafter
  rw [typesOfParameter, typesOfParameter, htags, htags', List.filter_append, List.filter_append,
    List.filter_cons_of_neg (by simp [hkind]), List.filter_cons_of_neg (by simp [hkind]),
    List.map_append, List.map_append, hsame]

theorem typesOfResult_withTextAt (htags : d.tags = before ++ tag :: after) (hvoid : tag.IsVoid)
    (hlast : ∀ later ∈ after, ¬later.IsVoid) (hplace : d.IsTypePlace tag span)
    (hne : u ≠ []) (htrim : u.trim = u) (hends : '}' ∉ u) : ∃ front back,
    d.typesOfResult = front ++ "void" :: back ∧ "void" ∉ back ∧
      (d.withTextAt span u).typesOfResult = front ++ String.ofList u :: back := by
  obtain ⟨type, after', htags', htype, hafter⟩ := tags_withTextAt htags hplace hne htrim hends
  have hsame := map_trimmedType_filter (p := fun tag => decide (tag.kind = .returns))
    (fun _ => rfl) hafter
  refine ⟨(before.filter (fun t => t.kind = .returns)).map DocTag.trimmedType,
    (after.filter (fun t => t.kind = .returns)).map DocTag.trimmedType, ?_, ?_, ?_⟩
  · rw [typesOfResult, htags, List.filter_append, List.filter_cons_of_pos (by simp [hvoid.1]),
      List.map_append, List.map_cons, hvoid.2]
  · intro hmem
    rcases List.mem_map.mp hmem with ⟨later, hlater, htext⟩
    rw [List.mem_filter, decide_eq_true_eq] at hlater
    exact hlast later hlater.1 ⟨hlater.2, htext⟩
  · rw [typesOfResult, htags', List.filter_append, List.filter_cons_of_pos (by simp [hvoid.1]),
      List.map_append, List.map_cons, hsame, DocTag.trimmedType]
    simp only [htype]

/-- The span of the word `void` is the place of the type of the last tag that says nothing is
returned, and there is none exactly if no tag says so.  Whatever type is put for the word, be it one
that looks like a tag itself, the comment gives the same types for every parameter, and for the
result this type instead of the last `void`. -/
theorem voidSpan?_retyped (d : DocComment) :
    (d.voidSpan? = none ↔ "void" ∉ d.typesOfResult) ∧
    ∀ span, d.voidSpan? = some span →
      d.text.slice (span.1 - d.start) (span.2 - d.start) = "void".toList ∧
      (∃ before tag after, d.tags = before ++ tag :: after ∧ tag.IsVoid ∧
        (∀ later ∈ after, ¬later.IsVoid) ∧ d.IsTypePlace tag span) ∧
      ∀ u : Text, u ≠ [] → u.trim = u → '}' ∉ u →
        (∀ name, (d.withTextAt span u).typesOfParameter name = d.typesOfParameter name) ∧
        ∃ front back, d.typesOfResult = front ++ "void" :: back ∧ "void" ∉ back ∧
          (d.withTextAt span u).typesOfResult = front ++ String.ofList u :: back := by
  refine ⟨voidSpan?_eq_none_iff, fun span hspan => ?_⟩
  obtain ⟨before, tag, after, htags, hvoid, hlast, hplace⟩ := exists_isVoid_of_voidSpan? hspan
  refine ⟨slice_of_voidSpan? hspan, ⟨before, tag, after, htags, hvoid, hlast, hplace⟩, ?_⟩
  intro u hne htrim hends
  exact ⟨typesOfParameter_withTextAt htags hvoid.1 hplace hne htrim hends,
    typesOfResult_withTextAt htags hvoid hlast hplace hne htrim hends⟩

/-- The last of two tags takes a type over two lines that holds what looks like a tag. -/
theorem voidSpan?_retyped_tagInType :
    (⟨"@returns \x7bvoid\x7d a @return \x7b void \x7d b".toList, 3⟩ : DocComment).voidSpan? =
      some (31, 35) ∧
    ∃ front back,
      (⟨"@returns \x7bvoid\x7d a @return \x7b void \x7d b".toList, 3⟩ : DocComment).typesOfResult =
        front ++ "void" :: back ∧ "void" ∉ back ∧
      ((⟨"@returns \x7bvoid\x7d a @return \x7b void \x7d b".toList, 3⟩ : DocComment).withTextAt
        (31, 35) "c\n@param \x7bd".toList).typesOfResult =
        front ++ String.ofList "c\n@param \x7bd".toList :: back := by
  have hspace : ∀ c ∈ [' '], isBlank c = true := List.forall_mem_singleton.mpr rfl
  have hfirst : OpensTag ("returns".toList, .returns) [' '] "void".toList
      " a @return \x7b void \x7d b".toList
      "returns \x7bvoid\x7d a @return \x7b void \x7d b".toList :=
    ⟨by decide, hspace, by decide, rfl⟩
  have hlast : OpensTag ("return".toList, .returns) [' '] " void ".toList " b".toList
      "return \x7b void \x7d b".toList := ⟨by decide, hspace, by decide, rfl⟩
  have hnames : nameBehind " a @return \x7b void \x7d b".toList = (some "a", 2) ∧
      nameBehind " b".toList = (some "b", 2) := by decide
  -- behind the first tag and its name a blank stands in front of the last one
  have htags : tagsFrom 0 "@returns \x7bvoid\x7d a @return \x7b void \x7d b".toList =
      [⟨.returns, "void".toList, 10, some "a"⟩, ⟨.returns, " void ".toList, 27, some "b"⟩] := by
    refine (tagsFrom_of_opensTag hfirst).trans ?_
    rw [hnames.1]
    refine congrArg _ ((tagsFrom_append (u := [' ']) (by decide)).trans ?_)
    have hend (pos : Nat) : tagsFrom pos (" b".toList.drop 2) = [] := by
      rw [List.drop_eq_nil_of_le (by decide), tagsFrom]
    refine (tagsFrom_of_opensTag hlast).trans ?_
    rw [hnames.2, hend]
    rfl
  have hspan :
      (⟨"@returns \x7bvoid\x7d a @return \x7b void \x7d b".toList, 3⟩ : DocComment).voidSpan? =
      some (31, 35) := by
    rw [voidSpan?, tags, htags]
    decide
  obtain ⟨-, -, hretyped⟩ := (voidSpan?_retyped _).2 (31, 35) hspan
  exact ⟨hspan, (hretyped "c\n@param \x7bd".toList (by decide) (by decide) (by decide)).2⟩

end DocComment
end WasmPackage.Script
