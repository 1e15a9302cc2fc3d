import WasmPackage.Proofs.Bindings.Variants
import WasmPackage.Proofs.Text.Runs

/-!
# What can be read back from the variants

Both variants carry the revised glue.  The split one is it without the statements that declare the
module.  From the inlined one the glue and the bytes of the module can both be read back: the
numbers are the last run of digits and commas in front of the loader's last marks, so that it does
not matter what the glue looks like.
-/

namespace WasmPackage.Bindings

open Script (Outline)

variable {bytes : Bytes} {body header t : Text} {internal importPath : String}

/-! ## Reading back -/

/-- What stands in front of the numbers in a loader. -/
def loaderFront (internal : String) : Text :=
  "\nexport async function init() \x7b\n  return ".toList ++ internal.toList ++
    "(new Uint8Array([".toList

/-- What stands behind the numbers in a loader. -/
def loaderBack : Text :=
  "]));\n\x7d\n".toList

/-- Is this a character of a list of numbers? -/
def isOfNumbers (c : Char) : Bool :=
  c.isDigit || c = ','

/-- The numbers at the end of a text. -/
def lastNumbers (t : Text) : Text :=
  (t.reverse.takeWhile isOfNumbers).reverse

/-- The glue and the bytes that an inlined variant was made of. -/
def readBack? (header : Text) (internal : String) (inlined : Text) : Option (Text × Bytes) :=
  let rest := inlined.take (inlined.length - loaderBack.length)
  let numbers := lastNumbers rest
  let front := rest.take (rest.length - numbers.length)
  let body := (front.take (front.length - (loaderFront internal).length)).drop header.length
  (bytesOf? numbers).map (fun bytes => (body, bytes))

theorem exists_loaderFront_eq (internal : String) : ∃ u, loaderFront internal = u ++ ['['] := by
  have hlast : "(new Uint8Array([".toList = "(new Uint8Array(".toList ++ ['['] := by decide
  refine ⟨"\nexport async function init() \x7b\n  return ".toList ++ internal.toList ++
    "(new Uint8Array(".toList, ?_⟩
  rw [List.append_assoc, ← hlast]
  rfl

theorem inlinedLoader_eq (internal : String) (bytes : Bytes) :
    inlinedLoader internal bytes = loaderFront internal ++ byteList bytes ++ loaderBack :=
  rfl

theorem forall_mem_intercalate {p : Char → Prop} {separator : Text} {words : List Text}
    (hseparator : ∀ c ∈ separator, p c) (hwords : ∀ w ∈ words, ∀ c ∈ w, p c) :
    ∀ c ∈ separator.intercalate words, p c := by
  induction words with
  | nil => simp [List.intercalate]
  | cons w words ih =>
    rw [List.forall_mem_cons] at hwords
    cases words with
    | nil => simpa using hwords.1
    | cons w' words =>
      rw [List.intercalate_cons_cons]
      simp only [List.forall_mem_append]
      exact ⟨⟨hwords.1, hseparator⟩, ih hwords.2⟩

/-- A list of bytes is digits and commas. -/
theorem isOfNumbers_byteList (bytes : Bytes) : ∀ c ∈ byteList bytes, isOfNumbers c = true := by
  rw [byteList, String.toList_intercalate, List.map_map]
  apply forall_mem_intercalate
  · exact List.forall_mem_singleton.mpr rfl
  · intro digits hdigits c hc
    obtain ⟨byte, -, rfl⟩ := List.mem_map.mp hdigits
    have hc' : c ∈ Nat.toDigits 10 byte.toNat := by rwa [← Nat.toList_repr]
    simp [isOfNumbers, Nat.isDigit_of_mem_toDigits (by decide) (by decide) hc']

/-- The numbers at the end of a text end with it, if something else stands in front of them. -/
theorem lastNumbers_append {front numbers : Text}
    (hfront : front.getLast?.any isOfNumbers = false)
    (hnumbers : ∀ c ∈ numbers, isOfNumbers c = true) :
    lastNumbers (front ++ numbers) = numbers := by
  have hback : numbers.reverse.takeWhile isOfNumbers = numbers.reverse :=
    List.takeWhile_eq_self_iff.mpr fun c hc => hnumbers c (List.mem_reverse.mp hc)
  have hstop : front.reverse.head?.any isOfNumbers = false := by
    rwa [List.head?_reverse]
  have hrun : (numbers.reverse ++ front.reverse).takeWhile isOfNumbers = numbers.reverse := by
    rw [← hback, takeWhile_append_of_head? hstop]
  rw [lastNumbers, List.reverse_append, hrun, List.reverse_reverse]

/-- Whatever the glue looks like, it is read back with the bytes. -/
theorem readBack?_inlined (hbytes : bytes ≠ []) (header body : Text) (internal : String) :
    readBack? header internal (header ++ body ++ inlinedLoader internal bytes) =
      some (body, bytes) := by
  have hbracket : (header ++ body ++ loaderFront internal).getLast?.any isOfNumbers = false := by
    obtain ⟨u, hu⟩ := exists_loaderFront_eq internal
    rw [hu, ← List.append_assoc, List.getLast?_concat]
    rfl
  have hnumbers := lastNumbers_append hbracket (isOfNumbers_byteList bytes)
  have hsplit : header ++ body ++ inlinedLoader internal bytes =
      header ++ body ++ loaderFront internal ++ byteList bytes ++ loaderBack := by
    simp only [inlinedLoader_eq, List.append_assoc]
  have hrest : (header ++ body ++ inlinedLoader internal bytes).take
      ((header ++ body ++ inlinedLoader internal bytes).length - loaderBack.length) =
      header ++ body ++ loaderFront internal ++ byteList bytes := by
    rw [hsplit, List.length_append, Nat.add_sub_cancel, List.take_left]
  rw [readBack?, hrest]
  simp only [hnumbers]
  rw [bytesOf?_byteList hbytes, Option.map_some, List.length_append, Nat.add_sub_cancel,
    List.take_left, List.length_append, Nat.add_sub_cancel, List.take_left, List.drop_left]

/-- An inlined variant was made of one glue and of bytes that can be read back. -/
theorem inlinedVariant_eq_ok {inlined : Text}
    (h : inlinedVariant body bytes header internal = .ok inlined) :
    inlined = header ++ body ++ inlinedLoader internal bytes ∧
      readBack? header internal inlined = some (body, bytes) := by
  unfold inlinedVariant at h
  split at h
  · cases h
  · next hbytes =>
    cases h
    exact ⟨rfl, readBack?_inlined (by simpa using hbytes) header body internal⟩

/-! ## Both variants -/

/-- The variants were made of one revised glue.  The inlined one goes on with a loader; from the
split one each statement that declares the module is gone, with no more than the blanks and a
newline of its lines. -/
structure ShareBody [Limits] (header : Text) (importPath internal : String) (bytes : Bytes)
    (variants : Variants) : Prop where
  inlined : variants.inlined = header ++ variants.body.text ++ inlinedLoader internal bytes
  readBack : readBack? header internal variants.inlined = some (variants.body.text, bytes)
  split : ∃ o, outlineOf glueArtifact variants.body.text = .ok o ∧ placeholders o ≠ [] ∧
    (∀ s ∈ placeholders o, s.start < s.stop ∧ s.stop ≤ variants.body.text.length ∧
      variants.body.text.GrowsOnLines s.start s.stop (grownSpan variants.body.text s)) ∧
    ((placeholders o).map (grownSpan variants.body.text)).Pairwise Apart ∧
    variants.split = header ++ importLine importPath ++
      variants.body.text.kept (inSpans ((placeholders o).map (grownSpan variants.body.text)))

/-- Both variants carry the glue as it was revised, and an inlined variant tells the glue and the
bytes that it was made of, whatever they are. -/
theorem glueVariants_shareBody [Limits] :
    (∀ (t : Text) (offsets : OffsetTable) (bytes : Bytes) (header : Text)
      (importPath internal : String) (variants : Variants),
      glueVariants t offsets bytes header importPath internal = .ok variants →
        reviseGlue t offsets internal = .ok variants.body ∧
          ShareBody header importPath internal bytes variants) ∧
    (∀ (header body : Text) (internal : String) (bytes : Bytes), bytes ≠ [] →
      ∃ inlined, inlinedVariant body bytes header internal = .ok inlined ∧
        readBack? header internal inlined = some (body, bytes)) ∧
    ∀ (header body body' inlined : Text) (internal : String) (bytes bytes' : Bytes),
      inlinedVariant body bytes header internal = .ok inlined →
      inlinedVariant body' bytes' header internal = .ok inlined →
        body = body' ∧ bytes = bytes' := by
  refine ⟨?_, ?_, ?_⟩
  · intro t offsets bytes header importPath internal variants h
    obtain ⟨hbody, hinlined, hsplit⟩ := glueVariants_eq_ok_iff.mp h
    obtain ⟨heq, hback⟩ := inlinedVariant_eq_ok hinlined
    obtain ⟨o, houtline, hfound, hplaces, hapart, hkept⟩ := splitVariant_eq_kept hsplit
    refine ⟨hbody, heq, hback, o, houtline, hfound, ?_, hapart, hkept⟩
    intro s hs
    exact ⟨(hplaces s hs).1, (hplaces s hs).2, Text.growsOnLines_lineSpan _ _ _⟩
  · intro header body internal bytes hbytes
    refine ⟨_, ?_, readBack?_inlined hbytes header body internal⟩
    rw [inlinedVariant, if_neg (by simpa using hbytes)]
  · intro header body body' inlined internal bytes bytes' h h'
    have hback := (inlinedVariant_eq_ok h).2
    have hback' := (inlinedVariant_eq_ok h').2
    rw [hback, Option.some.injEq, Prod.mk.injEq] at hback'
    exact hback'

/-- A glue with two variables to remove, which ends as a loader does. -/
def imitatingGlue : Text :=
  ["let wasm;", "class V\x7b", "get elements", "()\x7b\x7d", "/**@param", "\x7bV\x7dout",
    "@return\x7b", "void\x7d*/", "static ", "z(out)\x7b\x7d\x7d", "function ", "init()\x7b\x7d\n",
    " let wasm; \n", "async ", "function ", "f()\x7b\n", "  return ", "initModule",
    "(new Uint8", "Array([0,97", "]));\n\x7d\n"].flatMap String.toList

theorem glueVariants_shareBody_imitation :
    (∃ variants, glueVariants imitatingGlue ⟨[("V", 1)]⟩ [0, 97] [] "./a_bg" "initModule" =
        .ok variants ∧
      reviseGlue imitatingGlue ⟨[("V", 1)]⟩ "initModule" = .ok variants.body ∧
      ShareBody [] "./a_bg" "initModule" [0, 97] variants) ∧
    ∃ inlined, inlinedVariant imitatingGlue [0, 97] [] "initModule" = .ok inlined ∧
      readBack? [] "initModule" inlined = some (imitatingGlue, [0, 97]) ∧
      ∀ body bytes, inlinedVariant body bytes [] "initModule" = .ok inlined →
        imitatingGlue = body ∧ [0, 97] = bytes := by
  constructor
  · obtain ⟨variants, h⟩ : ∃ variants, glueVariants imitatingGlue ⟨[("V", 1)]⟩ [0, 97] [] "./a_bg"
        "initModule" = .ok variants := by
      apply exists_eq_ok_of_isOk
      simp only [glueVariants, reviseGlue, splitVariant, Revision.apply_eq_splice_insertionSort]
      decide +kernel
    exact ⟨variants, h, glueVariants_shareBody.1 _ _ _ _ _ _ _ h⟩
  · obtain ⟨inlined, h, hback⟩ :=
      glueVariants_shareBody.2.1 [] imitatingGlue "initModule" [0, 97] (by decide)
    exact ⟨inlined, h, hback, fun body bytes h' => glueVariants_shareBody.2.2 _ _ _ _ _ _ _ h h'⟩

end WasmPackage.Bindings
