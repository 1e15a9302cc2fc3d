import WasmPackage.Proofs.Script.Cuts
import WasmPackage.Proofs.Text.Spans

/-!
# Renaming words of a script

When words of a script are replaced by another word, all other tokens stay what they are.  The new
word must not let a regular expression stand behind it where the old one did not, and no word is
replaced behind a point.
-/

namespace WasmPackage.Script

variable {t : Text} {s : Source} {x y : Token} {refs tokens : List Token} {name : String}
  {a b k : Nat}

/-- The edit that puts a word in the place of a token. -/
def renameEdit (name : String) (x : Token) : Edit :=
  ⟨x.start, x.stop, name.toList⟩

/-- What a token reads as when the tokens of a list are renamed. -/
def renamedFace (refs : List Token) (name : String) (x : Token) : Face :=
  if x ∈ refs then (.identifier, name) else x.face

/-- A list of code tokens in which the first renamed word is `x`: what stands in front of it is as
before, and behind it are the other renamed words. -/
theorem map_renamedFace {front back : List Token} (hrefs : StandIn k b (x :: refs))
    (hcode : StandIn k b (front ++ x :: back)) :
    (front ++ x :: back).map (renamedFace (x :: refs) name) =
      front.map Token.face ++ (.identifier, name) :: back.map (renamedFace refs name) := by
  have hplace := (hrefs.within x List.mem_cons_self).2.1
  obtain ⟨-, hbehind, hbefore⟩ := List.pairwise_append.mp hcode.ordered
  have hfront : front.map (renamedFace (x :: refs) name) = front.map Token.face := by
    apply List.map_congr_left
    intro y hy
    refine if_neg ?_
    intro hmem
    have hlt := (hcode.within y (List.mem_append_left _ hy)).2.1
    have hle := hbefore y hy x List.mem_cons_self
    rcases List.mem_cons.mp hmem with rfl | hmem
    · omega
    · have := List.rel_of_pairwise_cons hrefs.ordered hmem
      omega
  have hback : back.map (renamedFace (x :: refs) name) = back.map (renamedFace refs name) := by
    apply List.map_congr_left
    intro y hy
    have hne : y ≠ x := by
      rintro rfl
      have := List.rel_of_pairwise_cons hbehind hy
      omega
    simp [renamedFace, hne]
  have hx : renamedFace (x :: refs) name x = (.identifier, name) := if_pos List.mem_cons_self
  rw [List.map_append, List.map_cons, hfront, hback, hx]

/-- A word begins with a character that a name begins with. -/
theorem head?_word {w : String} {v : Text} (hw : isWord w = true) :
    (w.toList ++ v).head?.any startsIdentifier = true := by
  unfold isWord at hw
  split at hw
  · cases hw
  · next c r htext =>
    rw [htext]
    exact (Bool.and_eq_true_iff.mp hw).1

namespace Source

/-- The token is a word that another one can take the place of. -/
structure IsReplaceable (s : Source) (name : String) (x : Token) : Prop where
  code : x ∈ s.code.toList
  word : isWord x.text = true
  kind : x.kind = .identifier
  behind : regexMayFollow (some x) = wordsBeforeRegex.contains name
  before : ∀ y ∈ s.codeBefore x.start, y.face ≠ (.punctuation, ".")

section

variable [Limits] (hs : Source.read t = .ok s)

include hs

theorem word_ends (hx : x ∈ s.code.toList) (hword : isWord x.text = true) :
    (t.drop x.stop).head?.any continuesIdentifier = false := by
  have hplace := (standIn_code hs).within x hx
  have hstretch := stretch_of_read hs (Nat.le_of_lt hplace.2.1) hplace.2.2 (isCut_of_code hs hx).1
    (isCut_of_code hs hx).2
  rw [slice_of_code hs hx] at hstretch
  exact hstretch.word_ends hword

/-- Behind a word the text goes on with the same character, when words behind that are renamed. -/
theorem head?_splice (hrefs : StandIn k b refs) (hk : k ≤ b)
    (hends : (t.drop k).head?.any continuesIdentifier = false)
    (hwords : ∀ x ∈ refs, s.IsReplaceable name x) :
    (Revision.splice (t.take b) k (refs.map (renameEdit name)) ++ t.drop b).head? =
      (t.drop k).head? := by
  cases refs with
  | nil =>
    rw [List.map_nil, Revision.splice, Text.drop_take_eq_slice, Text.slice_append_drop hk]
  | cons x refs =>
    have hplace := hrefs.within x List.mem_cons_self
    have hx := hwords x List.mem_cons_self
    have hlt : k < x.start := by
      refine Nat.lt_of_le_of_ne hplace.1 ?_
      rintro rfl
      -- two words would stand next to each other
      have hfirst := head?_word (v := t.drop x.stop) hx.word
      rw [← drop_start hs hx.code] at hfirst
      cases hhead : (t.drop x.start).head? with
      | none => simp [hhead] at hfirst
      | some c =>
        rw [hhead, Option.any_some] at hfirst hends
        rw [continuesIdentifier_of_startsIdentifier hfirst] at hends
        cases hends
    have hne : t.slice k x.start ≠ [] := by
      have hcode := (standIn_code hs).within x hx.code
      rw [← List.length_pos_iff, Text.length_slice (by omega)]
      omega
    have hstart : x.start ≤ b := by omega
    rw [List.map_cons, Revision.splice, renameEdit, Text.slice_take hstart, List.append_assoc,
      List.append_assoc, List.head?_append_of_ne_nil _ hne, ← Text.slice_append_drop hplace.1,
      List.head?_append_of_ne_nil _ hne]

/-- What stands in front of a renamed word reads as before. -/
theorem stretch_before_name (hname : isWord name = true) (hx : s.IsReplaceable name x)
    (hk : k ≤ x.start) (hcut : IsCut s.tokens k) (v : Text) :
    Stretch (name.toList ++ v) (regexMayFollow (s.codeBefore k)) (t.slice k x.start)
      (s.facesIn k x.start) (regexMayFollow (s.codeBefore x.start)) := by
  have hplace := (standIn_code hs).within x hx.code
  have hfront := stretch_of_read hs hk (by omega) hcut (isCut_of_code hs hx.code).1
  refine hfront.of_name ?_ (head?_word hname) ?_
  · rw [drop_start hs hx.code]
    exact head?_word hx.word
  · -- the token in front of the word is no point
    rintro f hf rfl
    have hpoint := getLast?_codeOf hf (by decide)
    rw [codeOf_facesIn hs, List.getLast?_map, Option.map_eq_some_iff] at hpoint
    obtain ⟨y, hy, hface⟩ := hpoint
    refine hx.before y ?_ hface
    rw [codeBefore_eq hs hk hcut, hy]
    rfl

/-- A part of a script with renamed words is a stretch of their new tokens and the old other
ones. -/
theorem stretch_renamed (hname : isWord name = true) (hrefs : StandIn k b refs)
    (hwords : ∀ x ∈ refs, s.IsReplaceable name x) (hk : k ≤ b) (hb : b ≤ t.length)
    (hcut : IsCut s.tokens k) (hcut' : IsCut s.tokens b) :
    ∃ faces, Stretch (t.drop b) (regexMayFollow (s.codeBefore k))
        (Revision.splice (t.take b) k (refs.map (renameEdit name))) faces
        (regexMayFollow (s.codeBefore b)) ∧
      codeOf faces = (s.codeIn k b).map (renamedFace refs name) := by
  -- on the words: what stands in front of the first one, the new word, and the rest
  induction refs generalizing k with
  | nil =>
    refine ⟨s.facesIn k b, ?_, ?_⟩
    · rw [List.map_nil, Revision.splice, Text.drop_take_eq_slice]
      exact stretch_of_read hs hk hb hcut hcut'
    · rw [codeOf_facesIn hs]
      apply List.map_congr_left
      intro y _
      simp [renamedFace]
  | cons x refs ih =>
    have hplace := hrefs.within x List.mem_cons_self
    have hx := hwords x List.mem_cons_self
    have hcuts := isCut_of_code hs hx.code
    have hbehind := hrefs.tail
    obtain ⟨faces, hrest, hcode⟩ := ih hbehind (fun y hy => hwords y (List.mem_cons_of_mem x hy))
      hplace.2.2 hcuts.2
    have hends := word_ends hs hx.code hx.word
    have hfront := stretch_before_name hs hname hx hplace.1 hcut
      (Revision.splice (t.take b) x.stop (refs.map (renameEdit name)) ++ t.drop b)
    have hword : Stretch (t.drop b) (regexMayFollow (s.codeBefore x.start)) (name.toList ++
        Revision.splice (t.take b) x.stop (refs.map (renameEdit name)))
        ((.identifier, name) :: faces) (regexMayFollow (s.codeBefore b)) := by
      refine .token (isLexeme_of_isWord hname _) ?_ ?_
      · rw [runsOn, head?_splice hs hbehind hplace.2.2 hends
          (fun y hy => hwords y (List.mem_cons_of_mem x hy))]
        exact hends
      · have hflag : regexBehind (regexMayFollow (s.codeBefore x.start)) ⟨.identifier, name, 0⟩ =
            regexMayFollow (s.codeBefore x.stop) := by
          rw [codeBefore_stop hs hx.code, hx.behind]
          rfl
        rwa [hflag]
    refine ⟨s.facesIn k x.start ++ (.identifier, name) :: faces, ?_, ?_⟩
    · have hstart : x.start ≤ b := by omega
      rw [List.map_cons, Revision.splice, renameEdit, Text.slice_take hstart, List.append_assoc]
      rw [← List.append_assoc] at hfront
      exact hfront.append hword
    · obtain ⟨front, back, hsplit⟩ := List.append_of_mem
        (mem_codeIn_iff.mpr ⟨hx.code, hplace.1, hplace.2.2⟩)
      obtain ⟨hbefore, -, -, hafter⟩ := codeIn_of_split hs hsplit
      have hstand : StandIn k b (front ++ x :: back) := hsplit ▸ standIn_codeIn hs
      rw [hsplit, map_renamedFace hrefs hstand, codeOf_append, codeOf_facesIn hs, hbefore,
        ← hafter, ← hcode]
      rfl

end

end Source

end WasmPackage.Script
