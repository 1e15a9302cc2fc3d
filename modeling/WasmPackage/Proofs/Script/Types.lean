import WasmPackage.Proofs.Script.Bound
import WasmPackage.Proofs.Script.KnownCode

/-!
# Types and the walks over them

A type of the declarations is a name, perhaps with arguments in angle brackets, or an array, a union
or a type in parentheses.  The outliner walks over a type in three ways: to find where it ends, to
find where a parameter ends, and from one parameter to the next.  Each walk jumps over parentheses
and brackets, so it meets only the outermost code of the type.
-/

namespace WasmPackage.Script

/-- A word of the code. -/
abbrev Face.word (w : String) : Face := (.identifier, w)

/-- Punctuation of the code. -/
abbrev Face.mark (w : String) : Face := (.punctuation, w)

/-! ## Types -/

mutual

/-- A type, as it is written. -/
inductive TypeExpr
  | name (w : String)
  | generic (w : String) (args : TypeArgs)
  | array (t : TypeExpr)
  | union (t u : TypeExpr)
  | paren (t : TypeExpr)

/-- The arguments of a generic type: one or more. -/
inductive TypeArgs
  | one (t : TypeExpr)
  | cons (t : TypeExpr) (args : TypeArgs)

end

mutual

/-- The code of a type. -/
def TypeExpr.faces : TypeExpr → List Face
  | .name w => [.word w]
  | .generic w args => .word w :: .mark "<" :: (args.faces ++ [.mark ">"])
  | .array t => t.faces ++ [.mark "[", .mark "]"]
  | .union t u => t.faces ++ .mark "|" :: u.faces
  | .paren t => .mark "(" :: (t.faces ++ [.mark ")"])

/-- The code of some arguments. -/
def TypeArgs.faces : TypeArgs → List Face
  | .one t => t.faces
  | .cons t args => t.faces ++ .mark "," :: args.faces

end

mutual

/-- The code of a type that stands outside of parentheses and brackets. -/
def TypeExpr.outer : TypeExpr → List Face
  | .name w => [.word w]
  | .generic w args => .word w :: .mark "<" :: (args.outer ++ [.mark ">"])
  | .array t => t.outer
  | .union t u => t.outer ++ .mark "|" :: u.outer
  | .paren _ => []

/-- The code of some arguments that stands outside of parentheses and brackets. -/
def TypeArgs.outer : TypeArgs → List Face
  | .one t => t.outer
  | .cons t args => t.outer ++ .mark "," :: args.outer

end

/-- The commas of a type outside of parentheses and brackets: those between the arguments of the
generic types that do not stand in parentheses. -/
def TypeExpr.commas (t : TypeExpr) : Nat :=
  t.outer.count (.mark ",")

mutual

theorem TypeExpr.brace_notMem_faces : ∀ e : TypeExpr, Face.mark "\x7d" ∉ e.faces
  | .name w => by simp [TypeExpr.faces]
  | .generic w args => by
    have hargs := args.brace_notMem_faces
    simp [TypeExpr.faces, hargs]
  | .array e => by
    have he := e.brace_notMem_faces
    simp [TypeExpr.faces, he]
  | .union e e' => by
    have he := e.brace_notMem_faces
    have he' := e'.brace_notMem_faces
    simp [TypeExpr.faces, he, he']
  | .paren e => by
    have he := e.brace_notMem_faces
    simp [TypeExpr.faces, he]

theorem TypeArgs.brace_notMem_faces : ∀ args : TypeArgs, Face.mark "\x7d" ∉ args.faces
  | .one e => e.brace_notMem_faces
  | .cons e args => by
    have he := e.brace_notMem_faces
    have hargs := args.brace_notMem_faces
    simp [TypeArgs.faces, he, hargs]

end

/-! ## Outermost code -/

/-- The brackets in types. -/
def typeBrackets : List (String × String) :=
  [("(", ")"), ("[", "]")]

theorem mem_bracketPairs_of_mem {w w' : String} (h : (w, w') ∈ typeBrackets) :
    (w, w') ∈ bracketPairs := by
  simp only [typeBrackets, bracketPairs, List.mem_cons, List.not_mem_nil, or_false] at h ⊢
  exact h.imp_right .inl

/-- What of some code stands outside of its parentheses and brackets. -/
inductive Outermost : List Face → List Face → Prop
  | nil : Outermost [] []
  | plain {f : Face} {r o : List Face} : isBracket f = false → Outermost r o →
    Outermost (f :: r) (f :: o)
  | group {w w' : String} {inner r o : List Face} : (w, w') ∈ typeBrackets → Balanced inner →
    Outermost r o → Outermost (.mark w :: (inner ++ .mark w' :: r)) o

variable {faces faces' outer outer' : List Face} {f : Face} {w : String}

theorem Outermost.append (h : Outermost faces outer) (h' : Outermost faces' outer') :
    Outermost (faces ++ faces') (outer ++ outer') := by
  induction h with
  | nil => exact h'
  | plain hf _ ih => exact .plain hf ih
  | group hpair hinner _ ih =>
    rw [List.cons_append, List.append_assoc, List.cons_append]
    exact .group hpair hinner ih

/-- Code without brackets is outermost as a whole. -/
theorem Outermost.of_plain (h : ∀ f ∈ faces, isBracket f = false) : Outermost faces faces := by
  induction faces with
  | nil => exact .nil
  | cons f faces ih =>
    obtain ⟨hf, hfaces⟩ := List.forall_mem_cons.mp h
    exact .plain hf (ih hfaces)

theorem Outermost.balanced (h : Outermost faces outer) : Balanced faces := by
  induction h with
  | nil => exact .nil
  | plain hf _ ih => exact .plain hf ih
  | group hpair hinner _ ih => exact .group (mem_bracketPairs_of_mem hpair) hinner ih

/-- The marks in types outside of parentheses and brackets. -/
def typeMarks : List String :=
  ["<", ">", "|", ","]

/-- Is this a token of a type outside of its parentheses and brackets? -/
def IsTypeFace (f : Face) : Prop :=
  f.1 = .identifier ∨ ∃ w ∈ typeMarks, f = .mark w

theorem isTypeFace_word : IsTypeFace (.word w) :=
  .inl rfl

theorem isTypeFace_mark (hw : w ∈ typeMarks) : IsTypeFace (.mark w) :=
  .inr ⟨w, hw, rfl⟩

theorem IsTypeFace.isBracket_eq (h : IsTypeFace f) : isBracket f = false := by
  rcases h with hkind | ⟨w, hw, rfl⟩
  · simp [isBracket, hkind]
  · simp only [typeMarks, List.mem_cons, List.not_mem_nil, or_false] at hw
    rcases hw with rfl | rfl | rfl | rfl <;> decide

theorem IsTypeFace.ne_mark (h : IsTypeFace f) (hw : w ∉ typeMarks) : f ≠ .mark w := by
  rintro rfl
  rcases h with hkind | ⟨w', hw', hf⟩
  · cases hkind
  · cases hf
    exact hw hw'

mutual

theorem TypeExpr.outermost : ∀ t : TypeExpr, Outermost t.faces t.outer
  | .name w => .plain rfl .nil
  | .generic w args =>
    .plain rfl (.plain (by decide) (args.outermost.append (.plain (by decide) .nil)))
  | .array t => by
    have hbrackets : Outermost [Face.mark "[", .mark "]"] [] := .group (by decide) .nil .nil
    simpa only [TypeExpr.faces, TypeExpr.outer, List.append_nil] using t.outermost.append hbrackets
  | .union t u => t.outermost.append (.plain (by decide) u.outermost)
  | .paren t => .group (by decide) t.outermost.balanced .nil

theorem TypeArgs.outermost : ∀ args : TypeArgs, Outermost args.faces args.outer
  | .one t => t.outermost
  | .cons t args => t.outermost.append (.plain (by decide) args.outermost)

end

theorem TypeExpr.length_faces_pos : ∀ t : TypeExpr, 0 < t.faces.length
  | .name _ => by simp [TypeExpr.faces]
  | .generic _ _ => by simp [TypeExpr.faces]
  | .array _ => by simp [TypeExpr.faces]
  | .union _ _ => by
    simp only [TypeExpr.faces, List.length_append, List.length_cons]
    omega
  | .paren _ => by simp [TypeExpr.faces]

mutual

theorem TypeExpr.isTypeFace_outer : ∀ t : TypeExpr, ∀ f ∈ t.outer, IsTypeFace f
  | .name w => by
    simp only [TypeExpr.outer, List.forall_mem_singleton]
    exact isTypeFace_word
  | .generic w args => by
    simp only [TypeExpr.outer, List.forall_mem_cons, List.forall_mem_append]
    exact ⟨isTypeFace_word, isTypeFace_mark (by decide), args.isTypeFace_outer,
      isTypeFace_mark (by decide), List.forall_mem_nil _⟩
  | .array t => t.isTypeFace_outer
  | .union t u => by
    simp only [TypeExpr.outer, List.forall_mem_cons, List.forall_mem_append]
    exact ⟨t.isTypeFace_outer, isTypeFace_mark (by decide), u.isTypeFace_outer⟩
  | .paren _ => List.forall_mem_nil _

theorem TypeArgs.isTypeFace_outer : ∀ args : TypeArgs, ∀ f ∈ args.outer, IsTypeFace f
  | .one t => t.isTypeFace_outer
  | .cons t args => by
    simp only [TypeArgs.outer, List.forall_mem_cons, List.forall_mem_append]
    exact ⟨t.isTypeFace_outer, isTypeFace_mark (by decide), args.isTypeFace_outer⟩

end

/-! ## Code with these faces -/

namespace Source

variable {t : Text} {s : Source} {i j stop close : Nat} {inner : List Face}

/-- From index `i` on, the code has these faces, whatever comments stand between them. -/
def Reads (s : Source) (i : Nat) (faces : List Face) : Prop :=
  ∃ cells, cells.map Prod.fst = faces ∧ s.Shows i cells

theorem reads_nil : s.Reads i [] :=
  ⟨[], rfl, nofun⟩

theorem reads_cons_iff : s.Reads i (f :: faces) ↔
    (∃ doc, s.cell? i = some (f, doc)) ∧ s.Reads (i + 1) faces := by
  constructor
  · rintro ⟨cells, hcells, hshows⟩
    obtain ⟨⟨f', doc⟩, rest, rfl, rfl, hrest⟩ := List.map_eq_cons_iff.mp hcells
    obtain ⟨hfirst, hshows⟩ := shows_cons_iff.mp hshows
    exact ⟨⟨doc, hfirst⟩, rest, hrest, hshows⟩
  · rintro ⟨⟨doc, hfirst⟩, rest, rfl, hshows⟩
    exact ⟨(f, doc) :: rest, rfl, shows_cons_iff.mpr ⟨hfirst, hshows⟩⟩

theorem reads_append_iff :
    s.Reads i (faces ++ faces') ↔ s.Reads i faces ∧ s.Reads (i + faces.length) faces' := by
  induction faces generalizing i with
  | nil => simp [reads_nil]
  | cons f faces ih =>
    have hlength : i + 1 + faces.length = i + (f :: faces).length := by
      simp only [List.length_cons]
      omega
    rw [List.cons_append, reads_cons_iff, reads_cons_iff, ih, and_assoc, hlength]

theorem Reads.cell? (h : s.Reads i (f :: faces)) : ∃ doc, s.cell? i = some (f, doc) :=
  (reads_cons_iff.mp h).1

theorem Reads.tail (h : s.Reads i (f :: faces)) : s.Reads (i + 1) faces :=
  (reads_cons_iff.mp h).2

instance instDecidableReads (s : Source) : ∀ i faces, Decidable (s.Reads i faces)
  | _, [] => isTrue reads_nil
  | i, f :: faces =>
    have : Decidable (s.Reads (i + 1) faces) := instDecidableReads s (i + 1) faces
    decidable_of_iff ((s.cell? i).map Prod.fst = some f ∧ s.Reads (i + 1) faces) <| by
      rw [reads_cons_iff]
      simp

/-- Code does not go on behind a token that is not in it. -/
theorem le_of_reads (h : s.Reads i faces) {doc : Option Text}
    (hclose : s.cell? close = some (f, doc))
    (hf : f ∉ faces) (hle : i ≤ close) : i + faces.length ≤ close := by
  induction faces generalizing i with
  | nil => exact hle
  | cons f' faces ih =>
    obtain ⟨⟨doc', hfirst⟩, hrest⟩ := reads_cons_iff.mp h
    rw [List.mem_cons, not_or] at hf
    have hlt : i ≠ close := by
      rintro rfl
      rw [hfirst] at hclose
      cases hclose
      exact hf.1 rfl
    have hend := ih hrest hf.2 (by omega)
    rw [List.length_cons]
    omega

/-- Behind balanced code the bracket is closed that was opened before it. -/
theorem closer?_of_reads [Limits] {w w' : String} (hs : Source.read t = .ok s)
    (hpair : (w, w') ∈ bracketPairs) (hinner : Balanced inner)
    (h : s.Reads i (.mark w :: (inner ++ .mark w' :: faces))) :
    s.closer? i = some (i + inner.length + 1) := by
  obtain ⟨cells, hcells, hshows⟩ := h
  obtain ⟨⟨-, doc⟩, behind, rfl, rfl, hbehind⟩ := List.map_eq_cons_iff.mp hcells
  obtain ⟨inside, last, rfl, rfl, hlast⟩ := List.map_eq_append_iff.mp hbehind
  obtain ⟨⟨-, doc'⟩, rest, rfl, rfl, -⟩ := List.map_eq_cons_iff.mp hlast
  have hsplit : (Face.mark w, doc) :: (inside ++ (Face.mark w', doc') :: rest) =
      (Face.mark w, doc) :: (inside ++ [(Face.mark w', doc')]) ++ rest := by simp
  rw [hsplit] at hshows
  have hgroup := hshows.append_left
  simpa using closer?_eq_some hs hgroup hpair hinner

/-- A walk passes some code if it goes on behind each outermost token, and behind each bracket that
closes.  `next` says what it has found so far. -/
theorem walk_outermost [Limits] {σ β : Type} {W : σ → Nat → β} (next : σ → Face → σ)
    (hs : Source.read t = .ok s) (h : Outermost faces outer)
    (hplain : ∀ found i f doc, f ∈ outer → i < stop → s.cell? i = some (f, doc) →
      isBracket f = false → W found i = W (next found f) (i + 1))
    (hgroup : ∀ found i j w doc, w ∈ typeBrackets.map Prod.fst → i < stop →
      s.cell? i = some (.mark w, doc) → s.closer? i = some j → W found i = W found (j + 1))
    (found : σ) (hreads : s.Reads i faces) (hstop : i + faces.length ≤ stop) :
    W found i = W (outer.foldl next found) (i + faces.length) := by
  induction h generalizing i found with
  | nil => rfl
  | @plain f r o hf _ ih =>
    obtain ⟨⟨doc, hfirst⟩, hrest⟩ := reads_cons_iff.mp hreads
    rw [List.length_cons] at hstop
    rw [hplain found i f doc List.mem_cons_self (by omega) hfirst hf,
      ih (fun found i f doc hmem => hplain found i f doc (List.mem_cons_of_mem _ hmem)) _ hrest
        (by omega), List.foldl_cons, List.length_cons, Nat.add_assoc, Nat.add_comm 1]
  | @group w w' inner r o hpair hinner _ ih =>
    have hclose := closer?_of_reads hs (mem_bracketPairs_of_mem hpair) hinner hreads
    obtain ⟨⟨doc, hfirst⟩, hrest⟩ := reads_cons_iff.mp hreads
    obtain ⟨-, hrest⟩ := reads_append_iff.mp hrest
    obtain ⟨-, hrest⟩ := reads_cons_iff.mp hrest
    have hlength : i + 1 + inner.length + 1 = i + inner.length + 1 + 1 := by omega
    have hall : i + inner.length + 1 + 1 + r.length =
        i + (Face.mark w :: (inner ++ Face.mark w' :: r)).length := by
      simp only [List.length_cons, List.length_append]
      omega
    rw [hlength] at hrest
    rw [hgroup found i _ w doc (List.mem_map_of_mem hpair) (by omega) hfirst hclose,
      ih hplain found hrest (by omega), hall]

/-! ## Where a type ends -/

/-- The angle brackets that are open behind one more token. -/
def anglesBehind (angles : Nat) (f : Face) : Nat :=
  if f = .mark "<" then angles + 1 else if f = .mark ">" then angles - 1 else angles

mutual

/-- A type closes the angle brackets that it opens. -/
theorem foldl_anglesBehind_type : ∀ (t : TypeExpr) (angles : Nat),
    t.outer.foldl anglesBehind angles = angles
  | .name w, angles => by simp [TypeExpr.outer, anglesBehind]
  | .generic w args, angles => by
    have hargs := foldl_anglesBehind_args args (angles + 1)
    simp [TypeExpr.outer, anglesBehind, hargs]
  | .array t, angles => foldl_anglesBehind_type t angles
  | .union t u, angles => by
    have ht := foldl_anglesBehind_type t angles
    have hu := foldl_anglesBehind_type u angles
    simp [TypeExpr.outer, anglesBehind, ht, hu]
  | .paren _, _ => rfl

theorem foldl_anglesBehind_args : ∀ (args : TypeArgs) (angles : Nat),
    args.outer.foldl anglesBehind angles = angles
  | .one t, angles => foldl_anglesBehind_type t angles
  | .cons t args, angles => by
    have ht := foldl_anglesBehind_type t angles
    have hargs := foldl_anglesBehind_args args angles
    simp [TypeArgs.outer, anglesBehind, ht, hargs]

end

variable {doc : Option Text} {angles : Nat} {v : String}

theorem isWord_of_cell? [Limits] (hs : Source.read t = .ok s)
    (h : s.cell? i = some ((.identifier, w), doc)) : isWord w = true := by
  obtain ⟨x, hx, hface⟩ := Option.map_eq_some_iff.mp h
  obtain ⟨flag, hlexeme⟩ := isLexeme_of_read hs hx
  have hkind : x.kind = .identifier := congrArg (fun cell : Cell => cell.1.1) hface
  have htext : x.text = w := congrArg (fun cell : Cell => cell.1.2) hface
  exact htext ▸ hlexeme.isWord hkind

/-- A mark is told from every other token. -/
theorem is_eq_of_face [Limits] (hs : Source.read t = .ok s) (h : s.cell? i = some (f, doc))
    (hv : v.toList.head?.any startsIdentifier = false) : s.is v i = decide (f = .mark v) := by
  obtain ⟨kind, w⟩ := f
  rw [is_eq_of_cell? h]
  cases kind with
  | identifier =>
    have hword := isWord_of_cell? hs h
    simp [ne_of_isWord hword hv]
  | punctuation => simp
  | string | number | template | regex | comment => simp

theorem typeStop_of_typeFace [Limits] (hs : Source.read t = .ok s) (hf : IsTypeFace f)
    (hlt : i < stop) (h : s.cell? i = some (f, doc)) :
    s.typeStop stop i angles = s.typeStop stop (i + 1) (anglesBehind angles f) := by
  have hsemicolon : s.is ";" i = false := by
    rw [is_eq_of_face hs h (by decide), decide_eq_false (hf.ne_mark (by decide))]
  have hbrace : s.is "\x7b" i = false := by
    rw [is_eq_of_face hs h (by decide), decide_eq_false (hf.ne_mark (by decide))]
  have hstops : s.typeStopsAt i = false := by simp [typeStopsAt, hsemicolon, hbrace]
  rw [typeStop, if_pos hlt, is_eq_of_face hs h (by decide), is_eq_of_face hs h (by decide), hstops,
    skip_of_plain hs h hf.isBracket_eq]
  by_cases hless : f = .mark "<"
  · simp [hless, anglesBehind]
  · by_cases hgreater : f = .mark ">"
    · -- a bracket that closes none leaves none open
      cases angles <;> simp [hgreater, anglesBehind]
    · simp [hless, hgreater, anglesBehind]

theorem is_eq_of_opening (hw : w ∈ typeBrackets.map Prod.fst)
    (h : s.cell? i = some (.mark w, doc)) (hv : v ∉ typeBrackets.map Prod.fst) :
    s.is v i = false := by
  rw [is_eq_of_cell? h]
  have hne : w ≠ v := by
    rintro rfl
    exact hv hw
  simp [hne]

theorem typeStop_of_group [Limits] (hs : Source.read t = .ok s) (hw : w ∈ typeBrackets.map Prod.fst)
    (hlt : i < stop) (h : s.cell? i = some (.mark w, doc)) (hclose : s.closer? i = some j) :
    s.typeStop stop i angles = s.typeStop stop (j + 1) angles := by
  have hless : s.is "<" i = false := is_eq_of_opening hw h (by decide)
  have hgreater : s.is ">" i = false := is_eq_of_opening hw h (by decide)
  have hsemicolon : s.is ";" i = false := is_eq_of_opening hw h (by decide)
  have hbrace : s.is "\x7b" i = false := is_eq_of_opening hw h (by decide)
  have hstops : s.typeStopsAt i = false := by simp [typeStopsAt, hsemicolon, hbrace]
  rw [typeStop, if_pos hlt, skip_of_closer? hs hclose]
  simp [hless, hgreater, hstops]

/-- The end of a type is looked for behind the type. -/
theorem typeStop_of_type [Limits] (hs : Source.read t = .ok s) {e : TypeExpr}
    (h : s.Reads i e.faces) (hstop : i + e.faces.length ≤ stop) :
    s.typeStop stop i angles = s.typeStop stop (i + e.faces.length) angles := by
  have hwalk := walk_outermost (W := fun angles i => s.typeStop stop i angles) anglesBehind hs
    e.outermost
    (fun angles i f doc hf hlt hcell _ =>
      typeStop_of_typeFace hs (e.isTypeFace_outer f hf) hlt hcell)
    (fun angles i j w doc hw hlt hcell hclose => typeStop_of_group hs hw hlt hcell hclose)
    angles h hstop
  rwa [foldl_anglesBehind_type] at hwalk

/-- What is written from code token `i` up to code token `j`. -/
def written (s : Source) (i j : Nat) : String :=
  s.excerpt (s.startAt i) (s.stopAt (j - 1))

/-- A type between a colon and a semicolon is read as it is written. -/
theorem typeNote_of_type [Limits] (hs : Source.read t = .ok s) {e : TypeExpr}
    (hcolon : s.is ":" i = true) (h : s.Reads (i + 1) e.faces) (hj : j = i + 1 + e.faces.length)
    (hend : s.is ";" j = true) (hstop : j < stop) :
    s.typeNote stop i = (some ⟨s.written (i + 1) j, s.startAt (i + 1), s.stopAt (j - 1)⟩, j) := by
  have hless : s.is "<" j = false := is_eq_false hend (by decide)
  have hgreater : s.is ">" j = false := is_eq_false hend (by decide)
  have hstops : s.typeStopsAt j = true := by simp [typeStopsAt, hend]
  have hlast : s.typeStop stop j 0 = j := by
    rw [typeStop, if_pos hstop]
    simp [hless, hgreater, hstops]
  have htype : s.typeStop stop (i + 1) 0 = j := by
    rw [typeStop_of_type hs h (by omega), ← hj, hlast]
  have hpos := e.length_faces_pos
  rw [typeNote, if_pos hcolon, htype]
  simp only [show i + 1 < j by omega, if_true]
  rfl

/-! ## Where a parameter ends -/

variable {colon default : Option Nat}

theorem paramMarks_of_group [Limits] (hs : Source.read t = .ok s)
    (hw : w ∈ typeBrackets.map Prod.fst) (hlt : i < close) (h : s.cell? i = some (.mark w, doc))
    (hclose : s.closer? i = some j) :
    s.paramMarks close i colon default = s.paramMarks close (j + 1) colon default := by
  have hcomma : s.is "," i = false := is_eq_of_opening hw h (by decide)
  rw [paramMarks, if_pos ⟨hlt, hcomma⟩, hclose, skip_of_closer? hs hclose]
  simp

/-- A token that is none of the marks that the outliner looks for. -/
theorem paramMarks_of_plain [Limits] (hs : Source.read t = .ok s) (hlt : i < close)
    (h : s.cell? i = some (f, doc)) (hf : isBracket f = false) (hcomma : f ≠ .mark ",")
    (hcolon : colon.isNone = true → f ≠ .mark ":") (hequals : f ≠ .mark "=") :
    s.paramMarks close i colon default = s.paramMarks close (i + 1) colon default := by
  have hgoes : i < close ∧ s.is "," i = false := by
    rw [is_eq_of_face hs h (by decide), decide_eq_false hcomma]
    exact ⟨hlt, rfl⟩
  have hother : (colon.isNone && default.isNone && s.is ":" i) = false := by
    rw [is_eq_of_face hs h (by decide)]
    cases colon with
    | none => simp [hcolon rfl]
    | some k => rfl
  have hvalue : s.is "=" i = false := by
    rw [is_eq_of_face hs h (by decide), decide_eq_false hequals]
  rw [paramMarks, if_pos hgoes, closer?_eq_none hs h hf]
  simp [hother, hvalue]

/-- The first colon of a parameter stands before its type. -/
theorem paramMarks_of_colon [Limits] (hs : Source.read t = .ok s) (hlt : i < close)
    (h : s.cell? i = some (.mark ":", doc)) :
    s.paramMarks close i none none = s.paramMarks close (i + 1) (some i) none := by
  have hgoes : i < close ∧ s.is "," i = false := by
    rw [is_eq_of_face hs h (by decide)]
    exact ⟨hlt, by decide⟩
  have hcolon : s.is ":" i = true := by
    rw [is_eq_of_face hs h (by decide)]
    decide
  have hbracket : isBracket (.mark ":") = false := by decide
  rw [paramMarks, if_pos hgoes, closer?_eq_none hs h hbracket]
  simp [hcolon]

/-- Code without outer marks belongs to its parameter as a whole. -/
theorem paramMarks_of_outermost [Limits] (hs : Source.read t = .ok s)
    (houtermost : Outermost faces outer)
    (houter : ∀ f ∈ outer, f ≠ .mark "," ∧ (colon.isNone = true → f ≠ .mark ":") ∧ f ≠ .mark "=")
    (h : s.Reads i faces) (hstop : i + faces.length ≤ close) :
    s.paramMarks close i colon default =
      s.paramMarks close (i + faces.length) colon default := by
  refine walk_outermost (W := fun _ i => s.paramMarks close i colon default) (fun _ _ => ()) hs
    houtermost ?_ ?_ () h hstop
  · intro _ i f doc hf hlt hcell hbracket
    obtain ⟨hcomma, hcolon, hequals⟩ := houter f hf
    exact paramMarks_of_plain hs hlt hcell hbracket hcomma hcolon hequals
  · intro _ i j w doc hw hlt hcell hclose
    exact paramMarks_of_group hs hw hlt hcell hclose

end Source

end WasmPackage.Script
