import WasmPackage.Bindings.Variants
import WasmPackage.Proofs.Bindings.Edits

/-!
# What the variants of the glue hold

The loader of the inlined variant holds the bytes of the module as numbers that can be read back.
The split variant is the revised glue without the statements that declare the module.
-/

namespace WasmPackage.Bindings

open Script (Outline)

variable {bytes : Bytes} {body header t : Text} {internal importPath : String}
  {o : Outline}

/-! ## Lists of bytes -/

/-- The byte that decimal digits stand for. -/
def byteOf? (digits : Text) : Option UInt8 :=
  let n := Nat.ofDigitChars 10 digits 0
  if !digits.isEmpty && digits.all Char.isDigit && n < 256 then some (UInt8.ofNat n) else none

/-- The bytes that decimal numbers with commas between them stand for. -/
def bytesOf? (t : Text) : Option Bytes :=
  (t.splitOn ',').mapM byteOf?

theorem byteOf?_toString (byte : UInt8) : byteOf? (toString byte.toNat).toList = some byte := by
  have hall : (Nat.toDigits 10 byte.toNat).all Char.isDigit = true := by
    rw [List.all_eq_true]
    intro c hc
    exact Nat.isDigit_of_mem_toDigits (by decide) (by decide) hc
  have hbyte : byte.toNat < 256 := byte.toNat_lt
  simp [byteOf?, hall, Nat.ofDigitChars_ten_toDigits, hbyte, Nat.toDigits_ne_nil]

theorem mapM_byteOf?_toString (bytes : Bytes) :
    (bytes.map fun byte => (toString byte.toNat).toList).mapM byteOf? = some bytes := by
  induction bytes with
  | nil => rfl
  | cons byte bytes ih =>
    rw [List.map_cons, List.mapM_cons, byteOf?_toString, ih]
    rfl

/-- A list of bytes is read back as it was written. -/
theorem bytesOf?_byteList (h : bytes ≠ []) : bytesOf? (byteList bytes) = some bytes := by
  have hcomma : ∀ digits ∈ bytes.map (fun byte => (toString byte.toNat).toList),
      ',' ∉ digits := by
    intro digits hdigits hmem
    rcases List.mem_map.mp hdigits with ⟨byte, -, rfl⟩
    rw [show (toString byte.toNat).toList = Nat.toDigits 10 byte.toNat from Nat.toList_repr] at hmem
    exact absurd (Nat.isDigit_of_mem_toDigits (by decide) (by decide) hmem) (by decide)
  have hlist : byteList bytes =
      [','].intercalate (bytes.map fun byte => (toString byte.toNat).toList) := by
    rw [byteList, String.toList_intercalate, List.map_map]
    rfl
  rw [bytesOf?, hlist, List.splitOn_intercalate ',' hcomma (by simpa using h),
    mapM_byteOf?_toString]

/-! ## Variants -/

/-- A loader that calls the one of the glue with the bytes that some numbers stand for. -/
def loaderOf (internal : String) (numbers : Text) : Text :=
  "\nexport async function init() \x7b\n  return ".toList ++ internal.toList ++
    "(new Uint8Array([".toList ++ numbers ++ "]));\n\x7d\n".toList

/-- The inlined variant is the header, the glue, and a loader whose numbers stand for the bytes. -/
theorem inlinedVariant_ok {inlined : Text}
    (h : inlinedVariant body bytes header internal = .ok inlined) :
    ∃ numbers, bytesOf? numbers = some bytes ∧
      inlined = header ++ body ++ loaderOf internal numbers := by
  unfold inlinedVariant at h
  split at h
  · cases h
  · next hbytes =>
    cases h
    exact ⟨byteList bytes, bytesOf?_byteList (by simpa using hbytes), rfl⟩

/-- The statements that declare the module. -/
def placeholders (o : Outline) : List Script.Statement :=
  o.statementsOf ["let", "wasm", ";"]

/-- The text is the body without the statements that declare the module: each is gone with blanks
beside it, and nothing else is. -/
def IsWithoutPlaceholders [Limits] (body rest : Text) : Prop :=
  ∃ o spans, outlineOf glueArtifact body = .ok o ∧ placeholders o ≠ [] ∧
    List.Forall₂ (fun s span => body.GrowsByBlanks s.start s.stop span) (placeholders o) spans ∧
    spans.Pairwise Apart ∧ rest = body.kept (inSpans spans)

/-- The span that a statement is removed with. -/
def grownSpan (body : Text) (s : Script.Statement) : Nat × Nat :=
  body.lineSpan s.start s.stop

theorem isStep_splitVariant [Limits] (importPath : String) (header : Text)
    (houtline : Script.outline body = .ok o) :
    IsStep (placeholders o = []) RevisionError.IsMissing (Revision.ofText body)
      ((placeholders o).map (removalOf body))
      (fun b => header ++ importLine importPath ++ b.apply)
      (splitVariant body importPath header) := by
  unfold splitVariant
  rw [show outlineOf glueArtifact body = pure o from outlineOf_of_outline houtline, pure_bind]
  refine IsStep.congr (.guarded (.of_eq not_false ?_) .of_missing) (by simp [placeholders])
  rw [placeholders, deleteStatements_statementsOf houtline rfl (by simp)]
  cases record _ _ <;> rfl

/-- The split variant is the header, the line that imports the module, and the glue but for the
spans of the statements that declare it. -/
theorem splitVariant_eq_kept [Limits] {split : Text}
    (h : splitVariant body importPath header = .ok split) :
    ∃ o, outlineOf glueArtifact body = .ok o ∧ placeholders o ≠ [] ∧
      (∀ s ∈ placeholders o, s.start < s.stop ∧ s.stop ≤ body.length) ∧
      ((placeholders o).map (grownSpan body)).Pairwise Apart ∧
      split = header ++ importLine importPath ++
        body.kept (inSpans ((placeholders o).map (grownSpan body))) := by
  obtain ⟨o, houtlineOf, -⟩ := bind_ok_iff.mp h
  have houtline := outline_of_outlineOf houtlineOf
  obtain ⟨hfound, hsound, rfl⟩ :=
    ((isStep_splitVariant importPath header houtline).eq_ok_iff (Revision.isSound_ofText body)).mp h
  rw [Revision.ofText_add] at hsound ⊢
  have hspans : (((placeholders o).map (removalOf body)).map Edit.span).Pairwise Apart :=
    List.pairwise_map.mpr (hsound.apart.imp And.left)
  have hplaces : ∀ s ∈ placeholders o, s.start < s.stop ∧ s.stop ≤ body.length :=
    fun s hs => place_of_statementsOf houtline (by simp) hs
  have hgrown : ((placeholders o).map (removalOf body)).map Edit.span =
      (placeholders o).map (grownSpan body) := List.map_map
  refine ⟨o, houtlineOf, hfound, hplaces, hgrown ▸ hspans, ?_⟩
  rw [← hgrown]
  congr 1
  refine Revision.apply_eq_kept ?_ hspans
  intro e he
  have hlast := (hsound.within e he).2
  obtain ⟨s, hs, rfl⟩ := List.mem_map.mp he
  exact ⟨rfl, removalOf_ordered (hplaces s hs).1, hlast⟩

/-- The split variant is the header, the line that imports the module, and the glue without the
statements that declare it. -/
theorem splitVariant_ok [Limits] {split : Text}
    (h : splitVariant body importPath header = .ok split) :
    ∃ rest, IsWithoutPlaceholders body rest ∧ split = header ++ importLine importPath ++ rest := by
  obtain ⟨o, houtline, hfound, -, hspans, hsplit⟩ := splitVariant_eq_kept h
  refine ⟨_, ⟨o, (placeholders o).map (grownSpan body), houtline, hfound, ?_, hspans, rfl⟩, hsplit⟩
  rw [List.forall₂_map_right_iff]
  exact List.forall₂_same.mpr fun s _ => body.growsByBlanks_lineSpan s.start s.stop

/-- Both variants are made of the same revised glue. -/
theorem glueVariants_eq_ok_iff [Limits] {offsets : OffsetTable} {variants : Variants} :
    glueVariants t offsets bytes header importPath internal = .ok variants ↔
      reviseGlue t offsets internal = .ok variants.body ∧
      inlinedVariant variants.body.text bytes header internal = .ok variants.inlined ∧
      splitVariant variants.body.text importPath header = .ok variants.split := by
  unfold glueVariants
  constructor
  · intro h
    rcases bind_ok_iff.mp h with ⟨body, hbody, h⟩
    rcases bind_ok_iff.mp h with ⟨inlined, hinlined, h⟩
    rcases bind_ok_iff.mp h with ⟨split, hsplit, h⟩
    cases h
    exact ⟨hbody, hinlined, hsplit⟩
  · rintro ⟨hbody, hinlined, hsplit⟩
    exact bind_ok_iff.mpr ⟨_, hbody, bind_ok_iff.mpr ⟨_, hinlined,
      bind_ok_iff.mpr ⟨_, hsplit, rfl⟩⟩⟩

end WasmPackage.Bindings
