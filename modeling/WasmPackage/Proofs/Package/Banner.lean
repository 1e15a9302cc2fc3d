import WasmPackage.Proofs.Package.Success
import WasmPackage.Proofs.Script.Comments
import WasmPackage.Proofs.Script.Stretches

/-!
# The license comment of the shipped files

Four of the shipped files begin with a comment that shows what a package says about itself.  The
values are put into it as they are, so it is one comment exactly if none of them has the mark that
ends a comment in it.
-/

namespace WasmPackage

open WasmPackage.Action (Ends)
open WasmPackage.Bindings (importLine)
open WasmPackage.Script (Token commentEnd commentOf tokenize tokensFrom infix_append_iff_of_joint
  tokensFrom_comment tokensFrom_comment_ne tokensFrom_none_moved Face Stretch isLexeme_of_isWord
  isLexeme_of_isMark)

variable {m : Metadata} {copyright : Option CodeText} {header t v : Text} {x y : CodeText}

/-! ## The texts of codes -/

theorem CodeText.text?_eq_some_iff : x.text? = some t ↔ x = CodeText.ofText t := by
  constructor
  · intro h
    induction x generalizing t with
    | nil => cases h; rfl
    | cons code x ih =>
      obtain ⟨c, hc, u, hu, rfl⟩ : ∃ c, code.char? = some c ∧ ∃ u, CodeText.text? x = some u ∧
          c :: u = t := by
        simpa [text?, Option.bind_eq_some_iff] using h
      cases code with
      | half n => cases hc
      | char d =>
        cases hc
        rw [ih hu]
        rfl
  · rintro rfl
    exact text?_ofText t

/-- The mark that ends a comment stands in this value. -/
def EndsComment (v : CodeText) : Prop :=
  CodeText.ofText commentEnd <:+: v

instance (v : CodeText) : Decidable (EndsComment v) :=
  inferInstanceAs (Decidable (CodeText.ofText commentEnd <:+: v))

theorem endsComment_ofText_iff : EndsComment (.ofText t) ↔ commentEnd <:+: t := by
  constructor
  · rintro ⟨front, back, h⟩
    obtain ⟨u, back', rfl, hfront, -⟩ := List.map_eq_append_iff.mp h.symm
    obtain ⟨front', mark, rfl, -, hmark⟩ := List.map_eq_append_iff.mp hfront
    have hsame : mark = commentEnd :=
      List.map_injective_iff.mpr (fun _ _ h => Code.char.inj h) hmark
    exact ⟨front', back', by rw [hsame]⟩
  · intro h
    exact List.IsInfix.map _ h

theorem endsComment_append (h : x.getLast? ≠ some (.char '*') ∨ y.head? ≠ some (.char '/')) :
    EndsComment (x ++ y) ↔ EndsComment x ∨ EndsComment y := by
  apply infix_append_iff_of_joint
  intro hlast
  exact h.resolve_left (fun hne => hne hlast)

/-- A value between two texts that cannot be parts of the mark. -/
theorem endsComment_between {v : CodeText} (hx : x.getLast? ≠ some (.char '*'))
    (hy : y.head? ≠ some (.char '/')) :
    EndsComment (x ++ (v ++ y)) ↔ EndsComment x ∨ EndsComment v ∨ EndsComment y := by
  rw [endsComment_append (.inl hx), endsComment_append (.inr hy)]

/-- Lines end a comment if one of them does. -/
theorem endsComment_lines (lines : List CodeText) :
    EndsComment (lines.flatMap (· ++ [.char '\n'])) ↔ ∃ line ∈ lines, EndsComment line := by
  have hnewline : ¬ EndsComment [.char '\n'] := by decide
  induction lines with
  | nil => simp [EndsComment, CodeText.ofText, commentEnd]
  | cons line lines ih =>
    rw [List.flatMap_cons, endsComment_append (.inl (by simp)), endsComment_append (.inr (by simp))]
    simp [ih, hnewline]

/-! ## What the comment shows -/

/-- The value, unless it is empty. -/
def given (value : Option CodeText) : Option CodeText :=
  value.filter (fun t => !t.isEmpty)

/-- The values that the license comment shows. -/
def shownValues (m : Metadata) (copyright : Option CodeText) : List CodeText :=
  [m.name, m.version] ++ (given copyright <|> given m.author).toList ++ (given m.license).toList

/-- The lines of the license comment between its first and its last one. -/
def shownLines (m : Metadata) (copyright : Option CodeText) : List CodeText :=
  let plain := CodeText.ofString
  [plain " * @license " ++ m.name ++ plain " v" ++ m.version] ++
    ((given copyright <|> given m.author).map
      (fun h => plain " * Copyright (c) " ++ h ++ plain ".")).toList ++
    (match given m.license with
      | some license =>
        [plain " *",
          plain " * This source code is licensed under the " ++ license ++
            plain " license found in the",
          plain " * LICENSE file in the root directory of this source tree."]
      | none => [])

theorem headerLines_eq : headerLines m copyright =
    CodeText.ofString "/**" :: (shownLines m copyright ++ [CodeText.ofString " */"]) := by
  rw [← List.cons_append]
  rfl

/-- A line ends the comment exactly if a value in it does. -/
theorem exists_endsComment_shownLines :
    (∃ line ∈ shownLines m copyright, EndsComment line) ↔
      ∃ value ∈ shownValues m copyright, EndsComment value := by
  have hfixed : ¬ EndsComment (.ofString " * @license ") ∧ ¬ EndsComment (.ofString " v") ∧
      ¬ EndsComment (.ofString " * Copyright (c) ") ∧ ¬ EndsComment (.ofString ".") ∧
      ¬ EndsComment (.ofString " *") ∧
      ¬ EndsComment (.ofString " * This source code is licensed under the ") ∧
      ¬ EndsComment (.ofString " license found in the") ∧
      ¬ EndsComment (.ofString " * LICENSE file in the root directory of this source tree.") := by
    decide +kernel
  obtain ⟨hlicense, hv, hcopyright, hpoint, hstar, hsource, hfound, hfile⟩ := hfixed
  have hfirst : EndsComment
      (.ofString " * @license " ++ (m.name ++ (.ofString " v" ++ m.version))) ↔
      EndsComment m.name ∨ EndsComment m.version := by
    rw [endsComment_between (by decide) (by simp [CodeText.ofString, CodeText.ofText]),
      endsComment_append (.inl (by decide))]
    simp [hlicense, hv]
  have hholder (h : CodeText) : EndsComment
      (.ofString " * Copyright (c) " ++ (h ++ .ofString ".")) ↔ EndsComment h := by
    rw [endsComment_between (by decide) (by decide)]
    simp [hcopyright, hpoint]
  have hterms (l : CodeText) : EndsComment
      (.ofString " * This source code is licensed under the " ++
        (l ++ .ofString " license found in the")) ↔ EndsComment l := by
    rw [endsComment_between (by decide) (by decide)]
    simp [hsource, hfound]
  cases hlicensed : given m.license with
  | none => cases hheld : (given copyright <|> given m.author) <;>
      simp [shownLines, shownValues, hlicensed, hheld, hfirst, hholder, or_assoc]
  | some l => cases hheld : (given copyright <|> given m.author) <;>
      simp [shownLines, shownValues, hlicensed, hheld, hfirst, hholder, hterms, hstar, hfile,
        or_assoc]

/-- The codes between the opening of the license comment and its end. -/
def shownText (m : Metadata) (copyright : Option CodeText) : CodeText :=
  CodeText.ofString "*\n" ++
    ((shownLines m copyright).flatMap (· ++ [.char '\n']) ++ CodeText.ofString " ")

theorem endsComment_shownText : EndsComment (shownText m copyright) ↔
    ∃ value ∈ shownValues m copyright, EndsComment value := by
  have hfront : ¬ EndsComment (.ofString "*\n") := by decide
  have hback : ¬ EndsComment (.ofString " ") := by decide
  rw [shownText, endsComment_between (by decide) (by decide)]
  simp [hfront, hback, endsComment_lines, exists_endsComment_shownLines]

theorem licenseComment_eq : licenseComment m copyright =
    CodeText.ofString "/*" ++ (shownText m copyright ++ CodeText.ofString "*/\n") := by
  rw [licenseComment, headerLines_eq]
  simp [shownText, CodeText.ofString, CodeText.ofText]

/-- A license comment that can be written is an opening, what it shows, and an end. -/
theorem exists_eq_of_licenseComment (h : (licenseComment m copyright).text? = some header) :
    ∃ v, header = '/' :: '*' :: (v ++ ['*', '/', '\n']) ∧
      (commentEnd <:+: v ↔ ∃ value ∈ shownValues m copyright, EndsComment value) := by
  rw [CodeText.text?_eq_some_iff, licenseComment_eq, eq_comm] at h
  obtain ⟨u, rest, rfl, hu, hrest⟩ := List.map_eq_append_iff.mp h
  obtain ⟨v, w, rfl, hv, hw⟩ := List.map_eq_append_iff.mp hrest
  have hinjective := List.map_injective_iff.mpr (fun _ _ h => Code.char.inj h)
  have hopening : u = ['/', '*'] := hinjective hu
  have hend : w = ['*', '/', '\n'] := hinjective hw
  refine ⟨v, by rw [hopening, hend]; rfl, ?_⟩
  rw [← endsComment_ofText_iff, CodeText.ofText, hv, endsComment_shownText]

/-! ## The comment in front of a script -/

/-- The script `t` has its tokens behind a header that is one comment. -/
def IsBannered [Limits] (header t : Text) : Prop :=
  tokensFrom 0 none (header ++ t) =
    (tokensFrom header.length none t).map (commentOf header :: ·)

theorem isBannered_of_licenseComment [Limits] (h : (licenseComment m copyright).text? = some header)
    (hvalues : ∀ value ∈ shownValues m copyright, ¬ EndsComment value) : IsBannered header t := by
  obtain ⟨v, rfl, hends⟩ := exists_eq_of_licenseComment h
  have hfree : ¬ commentEnd <:+: v := by
    intro hv
    obtain ⟨value, hvalue, hend⟩ := hends.mp hv
    exact hvalues value hvalue hend
  have hlength : ('/' :: '*' :: (v ++ ['*', '/', '\n'])).length = v.length + 5 := by simp
  rw [IsBannered, hlength]
  exact tokensFrom_comment hfree t

theorem tokenize_licenseComment_iff [Limits] (h : (licenseComment m copyright).text? = some header)
    {tokens : List Token} (ht : tokenize t = .ok tokens) :
    tokenize (header ++ t) =
        .ok (commentOf header :: tokens.map (Token.moved header.length)) ↔
      ∀ value ∈ shownValues m copyright, ¬ EndsComment value := by
  constructor
  · intro hread value hvalue hend
    obtain ⟨v, rfl, hends⟩ := exists_eq_of_licenseComment h
    exact tokensFrom_comment_ne (hends.mpr ⟨value, hvalue, hend⟩) t
      (Script.tokensFrom_of_tokenize hread)
  · intro hvalues
    have hbannered := isBannered_of_licenseComment (t := t) h hvalues
    rw [IsBannered, tokensFrom_none_moved header.length,
      Script.tokensFrom_of_tokenize ht] at hbannered
    rw [tokenize, hbannered]
    rfl

/-! ## The import of the split glue -/

/-- Can the text stand between single quotes as it is? -/
def IsQuotable (t : Text) : Prop :=
  ∀ c ∈ t, c ≠ '\'' ∧ c ≠ '\\' ∧ c ≠ '\n'

theorem stringLength?_of_isQuotable (h : IsQuotable v) (r : Text) :
    Script.stringLength? '\'' (v ++ '\'' :: r) = some (v.length + 1) := by
  induction v with
  | nil => simp [Script.stringLength?]
  | cons c v ih =>
    obtain ⟨⟨hquote, hescape, hnewline⟩, hrest⟩ := List.forall_mem_cons.mp h
    simp [Script.stringLength?, hquote, hescape, hnewline, ih hrest]

/-- The code of the line that imports a module. -/
def importFaces (path : String) : List Face :=
  [(.identifier, "import"), (.punctuation, "*"), (.identifier, "as"), (.identifier, "wasm"),
    (.identifier, "from"), (.string, String.ofList ('\'' :: path.toList ++ ['\''])),
    (.punctuation, ";")]

/-- The line that imports a module from a plain path is an import and nothing else. -/
theorem stretch_importLine [Limits] {path : String} (h : IsQuotable path.toList) (t : Text) :
    Stretch t true (importLine path) (importFaces path) true := by
  have hblank : isBlank ' ' = true := by decide
  -- none of the words is one that an expression may follow
  have hword (flag : Bool) (w : String) (hw : Script.isWord w = true)
      (hbehind : Script.wordsBeforeRegex.contains w = false) (u : Text) {faces : List Face}
      {flag' : Bool} (hu : Stretch t false u faces flag') :
      Stretch t flag (w.toList ++ ' ' :: u) ((.identifier, w) :: faces) flag' := by
    refine .token (isLexeme_of_isWord hw flag) rfl (.blank hblank ?_)
    have hflag : Script.regexBehind flag ⟨.identifier, w, 0⟩ = false := hbehind
    rwa [hflag]
  have hstring : Script.IsLexeme false
      ⟨.string, String.ofList ('\'' :: path.toList ++ ['\'']), 0⟩ := by
    refine ⟨'\'', path.toList ++ ['\''], String.toList_ofList, by decide, ?_⟩
    have hlexes : Script.Lexes false '\'' (path.toList ++ ['\'']) .string _ :=
      .string (.inl rfl) (stringLength?_of_isQuotable h [])
    simpa using hlexes
  have hsplit : importLine path = "import".toList ++ ' ' :: ((String.ofList ['*']).toList ++ ' ' ::
      ("as".toList ++ ' ' :: ("wasm".toList ++ ' ' :: ("from".toList ++ ' ' ::
        ((String.ofList ('\'' :: path.toList ++ ['\''])).toList ++
          ((String.ofList [';']).toList ++ ['\n'])))))) := by
    change "import * as wasm from '".toList ++ path.toList ++ "';\n".toList = _
    simp
  rw [hsplit]
  refine hword true "import" (by decide) (by decide) _ ?_
  refine .token (isLexeme_of_isMark (by decide) (by decide) (by decide)) rfl (.blank hblank ?_)
  refine hword _ "as" (by decide) (by decide) _ ?_
  refine hword _ "wasm" (by decide) (by decide) _ ?_
  refine hword _ "from" (by decide) (by decide) _ ?_
  refine .token hstring rfl ?_
  refine .token (isLexeme_of_isMark (by decide) (by decide) (by decide)) rfl ?_
  exact .blank (by decide) .nil

/-! ## The shipped files -/

/-- The files of a package that begin with the license comment. -/
def Artifacts.bannered (a : Artifacts) : List Path :=
  [a.declarations, a.glue, a.splitGlue, a.internalDeclarations]

/-- After a run the license comment stands in front of what the files hold, and takes no part of
it.  The split glue goes on with an import, if the name of the module can be quoted. -/
structure ShowsBanner [Limits] (a : Artifacts) (header : Text) (s u : Session) : Prop where
  files : ∀ p ∈ a.bannered, ∃ rest,
    u.store.read s.directory p = .ok (header ++ rest).encode ∧ IsBannered header rest
  split : IsQuotable a.importPath.toList → ∃ rest front previous,
    u.store.read s.directory a.splitGlue =
        .ok (header ++ (importLine a.importPath ++ rest)).encode ∧
      front.map Token.face = importFaces a.importPath ∧
      tokensFrom 0 none (header ++ (importLine a.importPath ++ rest)) =
        (tokensFrom (header.length + (importLine a.importPath).length) previous rest).map
          (fun tokens => commentOf header :: (front ++ tokens))

/-- Where a header is one comment, the import behind it is read as an import. -/
theorem exists_front_of_isBannered [Limits] {path : String} (hpath : IsQuotable path.toList)
    {rest : Text} (h : IsBannered header (importLine path ++ rest)) :
    ∃ front previous, front.map Token.face = importFaces path ∧
      tokensFrom 0 none (header ++ (importLine path ++ rest)) =
        (tokensFrom (header.length + (importLine path).length) previous rest).map
          (fun tokens => commentOf header :: (front ++ tokens)) := by
  have hnone : Script.regexMayFollow none = true := rfl
  obtain ⟨front, previous, hfaces, -, hread⟩ :=
    (stretch_importLine hpath rest).tokensFrom_append hnone header.length
  refine ⟨front, previous, hfaces, ?_⟩
  rw [h, hread]
  cases tokensFrom (header.length + (importLine path).length) previous rest <;> rfl

variable {s u : Session} {c : Config} {search : ToolSearch} {report : RunReport} {g : Gathered}
  {declarations glue : Bindings.Revised}

theorem IsCoherent.showsBanner [Limits]
    (h : IsCoherent c search s u report g header declarations glue)
    (hvalues : ∀ value ∈ shownValues c.metadata (c.copyright.map .ofString),
      ¬ EndsComment value) : ShowsBanner g.artifacts header s u := by
  have hbannered (rest : Text) : IsBannered header rest :=
    isBannered_of_licenseComment h.writable hvalues
  obtain ⟨numbers, -, hglue⟩ := h.holdsGlue
  obtain ⟨rest, -, hsplit⟩ := h.holdsSplitGlue
  obtain ⟨internal, hinternal, hinternalRead⟩ := h.holdsInternalDeclarations
  rw [h.gathered.sources.internalDeclarations, Except.ok.injEq] at hinternal
  rw [← hinternal, ← Text.encode_append] at hinternalRead
  rw [List.append_assoc] at hglue hsplit
  constructor
  case files =>
    intro p hp
    simp only [Artifacts.bannered, List.mem_cons, List.not_mem_nil, or_false] at hp
    rcases hp with rfl | rfl | rfl | rfl
    · exact ⟨_, h.holdsDeclarations, hbannered _⟩
    · exact ⟨_, hglue, hbannered _⟩
    · exact ⟨_, hsplit, hbannered _⟩
    · exact ⟨_, hinternalRead, hbannered _⟩
  case split =>
    intro hpath
    obtain ⟨front, previous, hfaces, hread⟩ := exists_front_of_isBannered hpath (hbannered _)
    exact ⟨rest, front, previous, hsplit, hfaces, hread⟩

/-- The license comment is one comment in front of any script exactly if none of the values in it
has the mark that ends a comment.  In the files of a run it then is one comment as well. -/
theorem licenseComment_isOneComment [Limits] (m : Metadata) (copyright : Option CodeText) :
    (∀ header : Text, (licenseComment m copyright).text? = some header →
      ∀ (t : Text) (tokens : List Token), tokenize t = .ok tokens →
        (tokenize (header ++ t) =
            .ok (commentOf header :: tokens.map (Token.moved header.length)) ↔
          ∀ value ∈ shownValues m copyright, ¬ EndsComment value)) ∧
    ∀ (c : Config) (search : ToolSearch) (s u : Session) (report : RunReport),
      c.metadata = m → c.copyright.map .ofString = copyright →
      s.store.IsTree → search.KeepsView s →
      Ends (polishPackage c search false) s (.ok report) u →
      (∀ value ∈ shownValues m copyright, ¬ EndsComment value) →
      ∃ g header, IsGathered c search s g ∧ (licenseComment m copyright).text? = some header ∧
        ShowsBanner g.artifacts header s u := by
  refine ⟨fun header h t tokens ht => tokenize_licenseComment_iff h ht, ?_⟩
  rintro c search s u report rfl rfl htree htools h hvalues
  obtain ⟨prepared, outputs, g, header, declarations, variants, hprepared, rfl, hwritten⟩ :=
    exists_isPrepared_of_polishPackage htree htools h
  exact ⟨g, header, hprepared.gathered, hprepared.writable,
    (hprepared.isCoherent hwritten).showsBanner hvalues⟩

/-- The two characters of the mark may stand in two values, and a comment may be opened in one. -/
theorem licenseComment_isOneComment_small :
    (∃ header tokens,
      (licenseComment ⟨.ofString "a*", .ofString "/1", none, some (.ofString "/* MIT")⟩
        (some (.ofString "/"))).text? = some header ∧
      tokenize "let x = 'a';".toList = .ok tokens ∧
      tokenize (header ++ "let x = 'a';".toList) =
        .ok (commentOf header :: tokens.map (Token.moved header.length))) ∧
      ∃ report u, Ends (polishPackage smallConfig smallSearch false)
          (packageSession smallGlue smallDeclarations) (.ok report) u ∧
        ∃ g header, IsGathered smallConfig smallSearch
            (packageSession smallGlue smallDeclarations) g ∧
          (licenseComment smallConfig.metadata
            (smallConfig.copyright.map .ofString)).text? = some header ∧
          ShowsBanner g.artifacts header (packageSession smallGlue smallDeclarations) u := by
  constructor
  · obtain ⟨header, hheader⟩ := Option.isSome_iff_exists.mp
      (show (licenseComment ⟨.ofString "a*", .ofString "/1", none, some (.ofString "/* MIT")⟩
        (some (.ofString "/"))).text?.isSome = true by decide +kernel)
    obtain ⟨tokens, htokens⟩ : ∃ tokens, tokenize "let x = 'a';".toList = .ok tokens :=
      Bindings.exists_eq_ok_of_isOk (by decide +kernel)
    refine ⟨header, tokens, hheader, htokens, ?_⟩
    exact ((licenseComment_isOneComment _ _).1 header hheader _ tokens htokens).mpr
      (by decide +kernel)
  · obtain ⟨report, u, hends⟩ := exists_ends_polishPackage_small
    exact ⟨report, u, hends, (licenseComment_isOneComment _ _).2 _ _ _ _ _ rfl rfl
      (isTree_packageSession _ _) (keepsView_smallSearch _) hends (by decide +kernel)⟩

/-- A name with the mark in it ends the comment early; what follows in the name is code. -/
theorem licenseComment_endsInName :
    (licenseComment ⟨.ofString "a*/run()/*", .ofString "1", none, none⟩ none).text? =
        some "/**\n * @license a*/run()/* v1\n */\n".toList ∧
      tokenize [] = .ok [] ∧
      tokenize ("/**\n * @license a*/run()/* v1\n */\n".toList ++ []) =
        .ok [⟨.comment, "/**\n * @license a*/", 0⟩, ⟨.identifier, "run", 19⟩,
          ⟨.punctuation, "(", 22⟩, ⟨.punctuation, ")", 23⟩, ⟨.comment, "/* v1\n */", 24⟩] ∧
      tokenize ("/**\n * @license a*/run()/* v1\n */\n".toList ++ []) ≠
        .ok [commentOf "/**\n * @license a*/run()/* v1\n */\n".toList] := by
  decide +kernel

end WasmPackage
