import WasmPackage.Proofs.Bindings.Statements

/-!
# The last statement of a body

The scan finds where the last of some statements begins, unless the end of the statement before it
is hidden from it.  One lemma for each form says whether the scan sees its end; the main statement
follows by induction on the statements.
-/

namespace WasmPackage.Bindings

open Script (Balanced Face Token isBracket)

variable {faces code head body header name params : List Face} {k b : String}
  {s s' : StatementScan} {hidden : Bool} {x : StatementForm} {program : List StatementForm}
  {others : List (List Face × List Face)} {otherwise final : Option (List Face)}

/-! ## Coming to a statement -/

/-- The scan comes to a statement: behind an end that was hidden from it, or where it has seen one
begin. -/
structure StatementScan.Comes (s : StatementScan) (hidden : Bool) (first : String) : Prop where
  opened : s.opened = []
  previous : s.previous = if hidden then some (tokenOf (mark "\x7d")) else none
  first : if hidden then s.first ∉ declarationWords else s.first = first

theorem StatementScan.Comes.settled {first : String} (h : s.Comes hidden first) : s.Settled := by
  refine ⟨h.opened, ?_⟩
  rw [h.previous]
  cases hidden with
  | false => exact nofun
  | true =>
    rintro p ⟨⟩
    exact ⟨by decide, fun h => absurd h (by decide)⟩

/-- Behind an end that was hidden, or at a word that begins no declaration, the scan knows of no
declaration. -/
theorem StatementScan.Comes.first_not_mem {first : String} (h : s.Comes hidden first)
    (hfirst : first ∉ declarationWords) : s.first ∉ declarationWords := by
  have hcomes := h.first
  cases hidden with
  | false =>
    rw [if_neg (by simp)] at hcomes
    rwa [hcomes]
  | true => exact hcomes

/-- The scan takes the end of the code for no end, and goes on. -/
def MissesEnd (s : StatementScan) (faces : List Face) : Prop :=
  ∃ s', Passes s faces s' ∧ s'.start = s.start ∧ ∀ first, s'.Comes true first

/-- The end of a statement is seen by the scan, or it goes on to the next one in the belief that
this is still the same. -/
def StatementForm.IsScanned (s : StatementScan) (hidden : Bool) (x : StatementForm) : Prop :=
  if x.closes hidden then Closes s x.faces else MissesEnd s x.faces

theorem Passes.missesEnd (h : Passes s faces s') (hstart : s'.start = s.start)
    (h' : MissesEnd s' code) : MissesEnd s (faces ++ code) := by
  rcases h' with ⟨t, ht, hstart', hcomes⟩
  exact ⟨t, h.append ht, hstart'.trans hstart, hcomes⟩

theorem missesEnd_braces (hopened : s.opened = []) (hblock : s.block? = none)
    (hfirst : s.first ∉ declarationWords) (hbody : Balanced body) : MissesEnd s (braces body) :=
  ⟨s.behind "\x7b" "\x7d", passes_group braces_mem_bracketPairs hbody fun _ => hblock, rfl,
    fun _ => ⟨hopened, rfl, hfirst⟩⟩

/-! ## One statement -/

theorem isScanned_plain (hx : (StatementForm.plain code).IsWellFormed)
    (hs : s.Comes hidden (StatementForm.plain code).first) :
    (StatementForm.plain code).IsScanned s hidden := by
  rcases hx with ⟨hfree, hhead⟩
  have hfirst : s.first ∉ declarationWords := by
    apply hs.first_not_mem
    cases code with
    | nil => decide
    | cons f code =>
      intro hmem
      have hnot := hhead f rfl
      revert hmem hnot
      simp only [StatementForm.first, StatementForm.faces, List.cons_append, List.head?_cons,
        Option.map_some, Option.getD_some, declarationWords, List.mem_cons, List.not_mem_nil,
        or_false]
      tauto
  have hbrace : s.previous = none → ∀ f ∈ code.head?, f ≠ mark "\x7b" := by
    rintro - f hf rfl
    exact hhead _ hf (by simp)
  rcases exists_passes_outermost hfree hs.settled
    (fun f hf => ⟨hf, fun h => (hfirst h).elim⟩) hbrace with ⟨s', hpasses, hs', hstart, -⟩
  exact hpasses.closes hstart (closes_semicolon hs'.opened)

theorem isScanned_block (hbody : Balanced body)
    (hs : s.Comes hidden (StatementForm.block body).first) :
    (StatementForm.block body).IsScanned s hidden := by
  cases hidden with
  | false =>
    have hblock : s.block? = some "\x7b" := by
      simp [StatementScan.block?, hs.opened, hs.previous]
    exact closes_block hs.opened hblock (by decide) hbody
  | true =>
    have hblock : s.block? = none := by
      rw [hs.settled.block?_eq (by simp [hs.previous]), if_neg]
      simpa using hs.first
    exact missesEnd_braces hs.opened hblock hs.first hbody

/-- The blocks of a condition end behind the last one. -/
theorem closes_branches (hopened : s.opened = []) (hblock : s.block? = some b) (hdo : b ≠ "do")
    (hbody : Balanced body) (hothers : ∀ o ∈ others, Balanced o.1 ∧ Balanced o.2)
    (hotherwise : ∀ e ∈ otherwise, Balanced e) :
    Closes s (braces body ++ (others.flatMap StatementForm.otherFaces ++
      otherwise.elim [] (fun e => word "else" :: braces e))) := by
  have helse (b : String) : StatementScan.continues b "else" = true := rfl
  induction others generalizing s b body with
  | nil =>
    cases otherwise with
    | none => simpa using closes_block hopened hblock hdo hbody
    | some e =>
      have hlast : Closes (s.behindWord "else") (braces e) :=
        closes_block hopened (block?_behindWord hopened (by decide)) (by decide) (hotherwise e rfl)
      simpa using (passes_continued hopened hblock (helse b) hbody).closes rfl hlast
  | cons o others ih =>
    rw [List.forall_mem_cons] at hothers
    rcases hothers with ⟨⟨hhead, hblock'⟩, hothers⟩
    have hbehind : (s.behindWord "else").opened = [] := hopened
    have hrest := ih (s := (s.behindWord "else").behindHead "if") hbehind
      (block?_behindHead hbehind (by decide)) (by decide) hblock' hothers
    have hif := ((passes_word (s.behindWord "else") "if").append
      (passes_parens hbehind "if" hhead)).closes rfl hrest
    simpa [StatementForm.otherFaces] using
      (passes_continued hopened hblock (helse b) hbody).closes rfl hif

theorem passes_head (hopened : s.opened = []) (k : String) (hhead : Balanced head) :
    Passes s (word k :: parens head) (s.behindHead k) :=
  (passes_word s k).append (passes_parens hopened k hhead)

theorem isScanned_conditional
    (hx : (StatementForm.conditional head body others otherwise).IsWellFormed)
    (hopened : s.opened = []) :
    (StatementForm.conditional head body others otherwise).IsScanned s hidden := by
  rcases hx with ⟨hhead, hbody, hothers, hotherwise⟩
  exact (passes_head hopened "if" hhead).closes rfl
    (closes_branches hopened (block?_behindHead hopened (by decide)) (by decide) hbody hothers
      hotherwise)

theorem isScanned_headed (hx : (StatementForm.headed k head body).IsWellFormed)
    (hopened : s.opened = []) : (StatementForm.headed k head body).IsScanned s hidden := by
  rcases hx with ⟨hk, hhead, hbody⟩
  have hword : k ∈ headWords ∧ k ≠ "do" := by
    revert k
    decide
  exact (passes_head hopened k hhead).closes rfl
    (closes_block hopened (block?_behindHead hopened hword.1) hword.2 hbody)

theorem isScanned_repeated (hx : (StatementForm.repeated body head).IsWellFormed)
    (hopened : s.opened = []) : (StatementForm.repeated body head).IsScanned s hidden := by
  rcases hx with ⟨hbody, hhead⟩
  have hbehind : (s.behindWord "do").opened = [] := hopened
  have hcondition : Closes ((s.behindWord "do").behindWord "while") (parens head ++ [mark ";"]) :=
    (passes_parens hbehind "while" hhead).closes rfl (closes_semicolon hopened)
  have hwhile : StatementScan.continues "do" "while" = true := rfl
  have hdo := (passes_continued hbehind (block?_behindWord hopened (by decide)) hwhile
    hbody).closes rfl hcondition
  have hall := (passes_word s "do").closes rfl hdo
  simpa [StatementForm.IsScanned, StatementForm.closes, StatementForm.faces] using hall

/-- What stands behind the block of a `try` statement is scanned as its parts tell: a block for an
exception without a name is no block to the scan, but a last block is. -/
theorem isScanned_guarded {handler : Option (Option (List Face) × List Face)}
    (hx : (StatementForm.guarded body handler final).IsWellFormed) (hopened : s.opened = [])
    (hfirst : s.first ∉ declarationWords) :
    (StatementForm.guarded body handler final).IsScanned s hidden := by
  rcases hx with ⟨hbody, hhandler, hfinal, hsome⟩
  have htry : (s.behindWord "try").block? = some "try" := block?_behindWord hopened (by decide)
  have hexception : StatementScan.continues "try" "catch" = true := rfl
  have hend (b : String) : StatementScan.continues b "finally" = true := rfl
  have hbehind : (s.behindWord "try").opened = [] := hopened
  have hlast (t : StatementScan) (e : List Face) (ht : t.opened = []) (he : Balanced e) :
      Closes (t.behindWord "finally") (braces e) :=
    closes_block ht (block?_behindWord ht (by decide)) (by decide) he
  cases handler with
  | none =>
    cases final with
    | none => simp at hsome
    | some e =>
      have hall := (passes_word s "try").closes rfl
        ((passes_continued hbehind htry (hend "try") hbody).closes rfl
          (hlast (s.behindWord "try") e hopened (hfinal e rfl)))
      simpa [StatementForm.IsScanned, StatementForm.closes, StatementForm.faces] using hall
  | some h =>
    rcases h with ⟨binding, h⟩
    rcases hhandler _ rfl with ⟨hbinding, hh⟩
    have hcatch : Passes s (word "try" :: (braces body ++ [word "catch"]))
        (s.behindWord "catch") :=
      (passes_word s "try").append (passes_continued hbehind htry hexception hbody)
    cases binding with
    | some e =>
      have hnamed := hcatch.append (passes_parens hopened "catch" (hbinding e rfl))
      have hblock : (s.behindHead "catch").block? = some "catch" :=
        block?_behindHead hopened (by decide)
      cases final with
      | none =>
        have hall := hnamed.closes rfl (closes_block hopened hblock (by decide) hh)
        simpa [StatementForm.IsScanned, StatementForm.closes, StatementForm.faces,
          StatementForm.handlerFaces] using hall
      | some e =>
        have hbehind : (s.behindHead "catch").opened = [] := hopened
        have hall := hnamed.closes rfl
          ((passes_continued hbehind hblock (hend "catch") hh).closes rfl
            (hlast (s.behindHead "catch") e hopened (hfinal e rfl)))
        simpa [StatementForm.IsScanned, StatementForm.closes, StatementForm.faces,
          StatementForm.handlerFaces] using hall
    | none =>
      have hblock : (s.behindWord "catch").block? = none := by
        simp [StatementScan.block?, StatementScan.behindWord, hopened, tokenOf, blockWords, hfirst]
      cases final with
      | none =>
        have hall := hcatch.missesEnd rfl (missesEnd_braces hopened hblock hfirst hh)
        simpa [StatementForm.IsScanned, StatementForm.closes, StatementForm.faces,
          StatementForm.handlerFaces] using hall
      | some e =>
        have hgroup : Passes (s.behindWord "catch") (braces h)
            ((s.behindWord "catch").behind "\x7b" "\x7d") :=
          passes_group braces_mem_bracketPairs hh fun _ => hblock
        have hall := (hcatch.append hgroup).closes rfl
          ((passes_word _ "finally").closes rfl (hlast _ e hopened (hfinal e rfl)))
        simpa [StatementForm.IsScanned, StatementForm.closes, StatementForm.faces,
          StatementForm.handlerFaces] using hall

/-- The body behind the head of a declaration is a block if the statement began with its word. -/
theorem scans_declaration (hcode : Outermost (fun f => IsFree f ∧ f ≠ mark "\x7b") code)
    (hne : code ≠ []) (hs : s.Settled) (hbody : Balanced body) :
    if s.first ∈ declarationWords then Closes s (code ++ braces body)
    else MissesEnd s (code ++ braces body) := by
  rcases exists_passes_outermost hcode hs (fun f hf => ⟨hf.1, fun _ => hf.2⟩)
    (fun _ f hf => (hcode.head? hf).2) with ⟨s', hpasses, hs', hstart, hfirst, hprevious⟩
  have hblock := hs'.block?_eq (hprevious (Or.inr hne))
  rw [hfirst] at hblock
  split
  · next hmem =>
    rw [if_pos (by simpa using hmem)] at hblock
    have hdo : s.first ≠ "do" := by
      rintro heq
      rw [heq] at hmem
      exact absurd hmem (by decide)
    exact hpasses.closes hstart (closes_block hs'.opened hblock hdo hbody)
  · next hmem =>
    rw [if_neg (by simpa using hmem)] at hblock
    exact hpasses.missesEnd hstart (missesEnd_braces hs'.opened hblock (by rwa [hfirst]) hbody)

theorem isScanned_function {isAsync : Bool}
    (hx : (StatementForm.function isAsync name params body).IsWellFormed)
    (hs : s.Comes hidden (StatementForm.function isAsync name params body).first) :
    (StatementForm.function isAsync name params body).IsScanned s hidden := by
  rcases hx with ⟨hname, hparams, hbody⟩
  have hword (w : String) (hw : w ∉ formWords ∧ w ≠ ")") :
      isBracket (word w) = false ∧ IsFree (word w) ∧ word w ≠ mark "\x7b" := by
    simp [isBracket, IsFree, hw]
  have hrest : Outermost (fun f => IsFree f ∧ f ≠ mark "\x7b")
      (word "function" :: (name ++ parens params)) := by
    have hfunction := hword "function" (by decide)
    refine .plain hfunction.1 hfunction.2 (.append (.of_plain fun f hf => ?_)
      (outermost_parens (by decide) hparams))
    rcases hname f hf with ⟨hbracket, hfree⟩
    refine ⟨hbracket, hfree, ?_⟩
    rintro rfl
    exact absurd hbracket (by decide)
  have hfirst := hs.first
  cases isAsync with
  | false =>
    have hscans := scans_declaration hrest (by simp) hs.settled hbody
    cases hidden with
    | false =>
      rw [if_neg (by simp)] at hfirst
      rw [if_pos (by rw [hfirst]; exact List.mem_cons_self)] at hscans
      simpa [StatementForm.IsScanned, StatementForm.closes, StatementForm.faces] using hscans
    | true =>
      rw [if_neg hfirst] at hscans
      simpa [StatementForm.IsScanned, StatementForm.closes, StatementForm.faces] using hscans
  | true =>
    have hasync := hword "async" (by decide)
    have hscans := scans_declaration (.plain hasync.1 hasync.2 hrest) (by simp) hs.settled hbody
    have hnone : s.first ∉ declarationWords := hs.first_not_mem (by
      show "async" ∉ declarationWords
      decide)
    rw [if_neg hnone] at hscans
    simpa [StatementForm.IsScanned, StatementForm.closes, StatementForm.faces] using hscans

theorem isScanned_class (hx : (StatementForm.classDecl header body).IsWellFormed)
    (hbrace : (StatementForm.classDecl header body).BodyComesFirst)
    (hs : s.Comes hidden (StatementForm.classDecl header body).first) :
    (StatementForm.classDecl header body).IsScanned s hidden := by
  have hcode : Outermost (fun f => IsFree f ∧ f ≠ mark "\x7b") (word "class" :: header) :=
    .plain (by decide) (by decide) hbrace
  have hscans := scans_declaration hcode (by simp) hs.settled hx.2
  have hfirst := hs.first
  cases hidden with
  | false =>
    rw [if_neg (by simp)] at hfirst
    rw [if_pos (by rw [hfirst]; exact List.mem_of_getLast? rfl)] at hscans
    exact hscans
  | true =>
    rw [if_neg hfirst] at hscans
    exact hscans

/-! ## All statements -/

theorem isScanned_of_comes (hx : x.IsWellFormed) (hbrace : x.BodyComesFirst)
    (hs : s.Comes hidden x.first) : x.IsScanned s hidden := by
  cases x with
  | plain code => exact isScanned_plain hx hs
  | block body => exact isScanned_block hx hs
  | conditional head body others otherwise => exact isScanned_conditional hx hs.opened
  | headed k head body => exact isScanned_headed hx hs.opened
  | repeated body head => exact isScanned_repeated hx hs.opened
  | guarded body handler final =>
    have hfirst : s.first ∉ declarationWords := hs.first_not_mem (by
      show "try" ∉ declarationWords
      decide)
    exact isScanned_guarded hx hs.opened hfirst
  | function isAsync name params body => exact isScanned_function hx hs
  | classDecl header body => exact isScanned_class hx hbrace hs

theorem StatementForm.faces_ne_nil (x : StatementForm) : x.faces ≠ [] := by
  cases x with
  | plain code => simp [StatementForm.faces]
  | function isAsync name params body => simp [StatementForm.faces]
  | _ => exact List.cons_ne_nil _ _

theorem continuationWords_subset : continuationWords ⊆ formWords := by
  decide

/-- No statement begins with a word that continues another. -/
theorem StatementForm.IsWellFormed.first_not_mem (hx : x.IsWellFormed) {f : Face}
    (hf : f ∈ x.faces.head?) : f.2 ∉ continuationWords := by
  cases x with
  | plain code =>
    cases code with
    | nil =>
      cases hf
      decide
    | cons g code =>
      cases hf
      have hfree : IsFree f := hx.1.head? rfl
      exact fun hmem => hfree.2.2 (continuationWords_subset hmem)
  | headed k head body =>
    cases hf
    have hkeyword : ∀ k ∈ ["for", "while", "switch", "with"], k ∉ continuationWords := by
      decide
    exact hkeyword k hx.1
  | function isAsync name params body =>
    cases isAsync <;> cases hf <;> decide
  | _ =>
    cases hf
    decide

/-- The scan of a program finds its last statement unless the end before it is hidden: then the
statement that the scan is in has begun before. -/
theorem finalStatementFrom_eq_iff {rest : List StatementForm} {i : Nat}
    (hwf : ∀ y ∈ x :: rest, y.IsWellFormed) (hbrace : ∀ y ∈ x :: rest, y.BodyComesFirst)
    (hs : s.Comes hidden x.first) (hstart : if hidden then s.start < i else s.start = i) :
    finalStatementFrom s i (((x :: rest).flatMap StatementForm.faces).map tokenOf) =
        i + ((x :: rest).dropLast.flatMap StatementForm.faces).length ↔
      StatementForm.hidesEnd hidden (x :: rest).dropLast = false := by
  -- along the program the scan comes to each statement as the one before it lets it
  induction rest generalizing x s i hidden with
  | nil =>
    have hscanned := isScanned_of_comes (hwf x List.mem_cons_self) (hbrace x List.mem_cons_self) hs
    rw [StatementForm.IsScanned] at hscanned
    have hfinal : finalStatementFrom s i (x.faces.map tokenOf) = s.start := by
      split at hscanned
      · rcases hscanned i [] (by simp) with ⟨_, hend⟩
        simpa [foundBehind] using hend
      · rcases hscanned with ⟨s', hpasses, hstart', -⟩
        simpa [finalStatementFrom, hstart'] using hpasses i []
    rw [List.flatMap_singleton, hfinal]
    show s.start = i ↔ hidden = false
    cases hidden with
    | false => exact ⟨fun _ => rfl, fun _ => hstart⟩
    | true => exact ⟨fun heq => absurd heq (Nat.ne_of_lt hstart), fun h => by cases h⟩
  | cons y rest ih =>
    have hwf' : ∀ z ∈ y :: rest, z.IsWellFormed := fun z hz => hwf z (List.mem_cons_of_mem x hz)
    have hbrace' : ∀ z ∈ y :: rest, z.BodyComesFirst :=
      fun z hz => hbrace z (List.mem_cons_of_mem x hz)
    rcases List.exists_cons_of_ne_nil y.faces_ne_nil with ⟨f, r, hf⟩
    have hcode : ((x :: y :: rest).flatMap StatementForm.faces).map tokenOf =
        x.faces.map tokenOf ++ ((y :: rest).flatMap StatementForm.faces).map tokenOf := by
      rw [List.flatMap_cons, List.map_append]
    have hlength : i + ((x :: y :: rest).dropLast.flatMap StatementForm.faces).length =
        i + x.faces.length + ((y :: rest).dropLast.flatMap StatementForm.faces).length := by
      rw [List.dropLast_cons_of_ne_nil (List.cons_ne_nil y rest), List.flatMap_cons,
        List.length_append, Nat.add_assoc]
    have hhides : StatementForm.hidesEnd hidden (x :: y :: rest).dropLast =
        StatementForm.hidesEnd (!x.closes hidden) (y :: rest).dropLast := by
      rw [List.dropLast_cons_of_ne_nil (List.cons_ne_nil y rest), StatementForm.hidesEnd]
    have hscanned := isScanned_of_comes (hwf x List.mem_cons_self) (hbrace x List.mem_cons_self) hs
    rw [StatementForm.IsScanned] at hscanned
    rw [hcode, hlength, hhides]
    split at hscanned
    · next hcloses =>
      have hnext : ∀ t ∈ (((y :: rest).flatMap StatementForm.faces).map tokenOf).head?,
          t.text ∉ continuationWords := by
        intro t ht
        rw [List.flatMap_cons, hf, List.cons_append, List.map_cons, List.head?_cons] at ht
        cases ht
        have hmem : f ∈ y.faces.head? := by
          rw [hf]
          rfl
        exact (hwf' y List.mem_cons_self).first_not_mem hmem
      rcases hscanned i _ hnext with ⟨head, hend⟩
      have hbehind : foundBehind s.start (i + x.faces.length) head
          (((y :: rest).flatMap StatementForm.faces).map tokenOf) =
            finalStatementFrom ⟨i + x.faces.length, y.first, none, head, []⟩ (i + x.faces.length)
              (((y :: rest).flatMap StatementForm.faces).map tokenOf) := by
        rw [List.flatMap_cons, StatementForm.first, hf]
        rfl
      have hcomes : StatementScan.Comes ⟨i + x.faces.length, y.first, none, head, []⟩ false
          y.first := ⟨rfl, rfl, rfl⟩
      rw [hend, hbehind, hcloses]
      exact ih hwf' hbrace' hcomes rfl
    · next hmissed =>
      rcases hscanned with ⟨s', hpasses, hstart', hcomes⟩
      have hlt : s'.start < i + x.faces.length := by
        have hpositive : 0 < x.faces.length := List.length_pos_iff.mpr x.faces_ne_nil
        rw [hstart']
        split at hstart <;> omega
      rw [hpasses, Bool.eq_false_iff.mpr hmissed]
      exact ih hwf' hbrace' (hcomes y.first) hlt

/-- The last of some statements is found exactly if the end of the one before is not hidden from the
scan. -/
theorem lastStatement_eq_iff {tokens : List Token} (hne : program ≠ [])
    (hwf : ∀ x ∈ program, x.IsWellFormed) (hbrace : ∀ x ∈ program, x.BodyComesFirst)
    (htokens : tokens.map Token.face = program.flatMap StatementForm.faces) :
    lastStatement tokens = (program.dropLast.flatMap StatementForm.faces).length ↔
      StatementForm.hidesEnd false program.dropLast = false := by
  rcases List.exists_cons_of_ne_nil hne with ⟨x, rest, rfl⟩
  have hfirst : (tokens.head?.map (·.text)).getD "" = x.first := by
    have hhead : (tokens.map Token.face).head? =
        ((x :: rest).flatMap StatementForm.faces).head? := by
      rw [htokens]
    rcases List.exists_cons_of_ne_nil x.faces_ne_nil with ⟨f, r, hf⟩
    rw [List.flatMap_cons, hf, List.cons_append, List.head?_cons] at hhead
    cases tokens with
    | nil => cases hhead
    | cons t tokens =>
      cases hhead
      rw [StatementForm.first, hf]
      rfl
  have hcomes : StatementScan.Comes ⟨0, x.first, none, "", []⟩ false x.first := ⟨rfl, rfl, rfl⟩
  have hmain := finalStatementFrom_eq_iff (i := 0) hwf hbrace hcomes rfl
  have hplaces : lastStatement tokens = finalStatementFrom ⟨0, x.first, none, "", []⟩ 0
      (((x :: rest).flatMap StatementForm.faces).map tokenOf) := by
    rw [lastStatement, hfirst, finalStatementFrom_placeless, htokens]
    rfl
  rw [hplaces]
  simpa using hmain

/-- The branches of a condition are one statement, and the braces of an object end none. -/
theorem lastStatement_behind_condition :
    lastStatement ([word "if", mark "(", word "a", mark ")", mark "\x7b", word "b", mark ";",
        mark "\x7d", word "else", mark "\x7b", word "c", mark ";", mark "\x7d", word "return",
        mark "\x7b", word "x", mark "\x7d", mark ";"].map tokenOf) = 13 := by
  have hobject : Outermost IsFree (braces [word "x"]) :=
    .group braces_mem_bracketPairs (by decide) (.of_plain (by decide)) .nil
  have hcode : Outermost IsFree (word "return" :: braces [word "x"]) :=
    .plain (by decide) (by decide) hobject
  have hwf : ∀ x ∈ [StatementForm.conditional [word "a"] [word "b", mark ";"] []
      (some [word "c", mark ";"]), .plain (word "return" :: braces [word "x"])],
      x.IsWellFormed := by
    rintro x (_ | ⟨_, _ | ⟨_, ⟨⟩⟩⟩)
    · refine ⟨.of_plain (by decide), .of_plain (by decide), nofun, ?_⟩
      rintro e ⟨⟩
      exact .of_plain (by decide)
    · exact ⟨hcode, by decide⟩
  have hbrace : ∀ x ∈ [StatementForm.conditional [word "a"] [word "b", mark ";"] []
      (some [word "c", mark ";"]), .plain (word "return" :: braces [word "x"])],
      x.BodyComesFirst := by
    rintro x (_ | ⟨_, _ | ⟨_, ⟨⟩⟩⟩) <;> trivial
  exact (lastStatement_eq_iff (by simp) hwf hbrace rfl).mpr rfl

/-- A return statement behind the statement is not found to be the last, though both are well
formed. -/
def StatementForm.Obscures (x : StatementForm) : Prop :=
  x.IsWellFormed ∧ (StatementForm.plain [word "return", word "x"]).IsWellFormed ∧
    lastStatement
        (([x, .plain [word "return", word "x"]].flatMap StatementForm.faces).map tokenOf) ≠
      ([x].flatMap StatementForm.faces).length

/-- An exception that is caught without a name, an asynchronous function and a class whose head has
a brace of its own: behind each of them the last statement is not found. -/
theorem lastStatement_behind_hidden_end :
    (StatementForm.guarded [word "f", mark ";"] (some (none, [word "g", mark ";"]))
      none).Obscures ∧
    (StatementForm.function true [word "f"] [] []).Obscures ∧
    (StatementForm.classDecl ([word "A", word "extends"] ++ (braces [] ++ [mark ".", word "B"]))
      []).Obscures := by
  have hreturn : (StatementForm.plain [word "return", word "x"]).IsWellFormed :=
    ⟨.of_plain (by decide), by decide⟩
  refine ⟨?_, ?_, ?_⟩
  · refine ⟨⟨.of_plain (by decide), ?_, nofun, Or.inl rfl⟩, hreturn, by decide⟩
    rintro h ⟨⟩
    exact ⟨nofun, .of_plain (by decide)⟩
  · exact ⟨⟨by decide, .nil, .nil⟩, hreturn, by decide⟩
  · have hmember : Outermost IsFree [mark ".", word "B"] := .of_plain (by decide)
    have hobject : Outermost IsFree (braces []) :=
      .group braces_mem_bracketPairs (by decide) .nil .nil
    have hheader : Outermost IsFree [word "A", word "extends"] := .of_plain (by decide)
    exact ⟨⟨hheader.append (hobject.append hmember), .nil⟩, hreturn, by decide⟩

end WasmPackage.Bindings
