import WasmPackage.Bindings.LastStatement
import WasmPackage.Proofs.Script.Faces

/-!
# Statements of a body

The forms of statements that a body consists of, and what the scan for the last statement does on
each of them.  Inside brackets nothing ends; outside of them the scan goes on over plain code, and
an end is seen at a semicolon or behind a block that the next word does not continue.
-/

namespace WasmPackage.Bindings

open Script (Balanced Face Token bracketPairs closers isBracket)

/-! ## Code -/

/-- A word of the code. -/
abbrev word (w : String) : Face := (.identifier, w)

/-- Punctuation of the code. -/
abbrev mark (w : String) : Face := (.punctuation, w)

/-- Code in parentheses. -/
def parens (code : List Face) : List Face :=
  mark "(" :: (code ++ [mark ")"])

/-- Code in braces. -/
def braces (code : List Face) : List Face :=
  mark "\x7b" :: (code ++ [mark "\x7d"])

/-- The words by which the statements with blocks are known. -/
def formWords : List String :=
  ["if", "else", "for", "while", "switch", "with", "do", "try", "catch", "finally"]

/-- The token neither ends a statement, nor closes a parenthesis, nor is a word of a form. -/
def IsFree (f : Face) : Prop :=
  f ≠ mark ";" ∧ f.2 ≠ ")" ∧ f.2 ∉ formWords

instance (f : Face) : Decidable (IsFree f) :=
  inferInstanceAs (Decidable (_ ∧ _ ∧ _))

/-- The code is balanced, and outside of its brackets all tokens are as told; the outermost opening
brackets count as outside. -/
inductive Outermost (P : Face → Prop) : List Face → Prop
  | nil : Outermost P []
  | plain {f : Face} {r : List Face} : isBracket f = false → P f → Outermost P r →
    Outermost P (f :: r)
  | group {w w' : String} {inner r : List Face} : (w, w') ∈ bracketPairs → P (mark w) →
    Balanced inner → Outermost P r → Outermost P (mark w :: (inner ++ mark w' :: r))

section

variable {P : Face → Prop} {faces faces' code : List Face} {f : Face}

theorem Outermost.append (h : Outermost P faces) (h' : Outermost P faces') :
    Outermost P (faces ++ faces') := by
  induction h with
  | nil => exact h'
  | plain hf hP _ ih => exact .plain hf hP ih
  | group hpair hP hinner _ ih =>
    rw [List.cons_append, List.append_assoc, List.cons_append]
    exact .group hpair hP hinner ih

theorem Outermost.of_plain (h : ∀ f ∈ faces, isBracket f = false ∧ P f) : Outermost P faces := by
  induction faces with
  | nil => exact .nil
  | cons f faces ih =>
    rw [List.forall_mem_cons] at h
    exact .plain h.1.1 h.1.2 (ih h.2)

theorem Outermost.head? (h : Outermost P faces) (hf : f ∈ faces.head?) : P f := by
  cases h with
  | nil => cases hf
  | plain _ hP _ =>
    cases hf
    exact hP
  | group _ hP _ _ =>
    cases hf
    exact hP

theorem outermost_parens (hP : P (mark "(")) (h : Balanced code) : Outermost P (parens code) := by
  have hpair : ("(", ")") ∈ bracketPairs := by decide
  exact .group hpair hP h .nil

end

/-! ## Forms -/

/-- A statement, by the code between its words and brackets. -/
inductive StatementForm
  /-- An expression or a declaration in front of its semicolon. -/
  | plain (code : List Face)
  | block (body : List Face)
  /-- What is done on a condition, on others that are looked at behind it, and otherwise. -/
  | conditional (head body : List Face) (others : List (List Face × List Face))
    (otherwise : Option (List Face))
  /-- A loop, or another block behind a word and a head. -/
  | headed (keyword : String) (head body : List Face)
  /-- A loop whose condition stands behind its body. -/
  | repeated (body head : List Face)
  /-- A block whose exceptions are caught, perhaps without a name for them, or that has an end. -/
  | guarded (body : List Face) (handler : Option (Option (List Face) × List Face))
    (final : Option (List Face))
  | function (isAsync : Bool) (name params body : List Face)
  | classDecl (header body : List Face)

namespace StatementForm

/-- What is done on a further condition. -/
def otherFaces (o : List Face × List Face) : List Face :=
  word "else" :: word "if" :: (parens o.1 ++ braces o.2)

/-- What is done for an exception. -/
def handlerFaces (h : Option (List Face) × List Face) : List Face :=
  word "catch" :: (h.1.elim [] parens ++ braces h.2)

/-- The code of a statement. -/
def faces : StatementForm → List Face
  | plain code => code ++ [mark ";"]
  | block body => braces body
  | conditional head body others otherwise =>
    word "if" :: (parens head ++ (braces body ++ (others.flatMap otherFaces ++
      otherwise.elim [] (fun e => word "else" :: braces e))))
  | headed keyword head body => word keyword :: (parens head ++ braces body)
  | repeated body head =>
    word "do" :: (braces body ++ word "while" :: (parens head ++ [mark ";"]))
  | guarded body handler final =>
    word "try" :: (braces body ++ (handler.elim [] handlerFaces ++
      final.elim [] (fun e => word "finally" :: braces e)))
  | function isAsync name params body =>
    (if isAsync then [word "async"] else []) ++
      word "function" :: (name ++ parens params ++ braces body)
  | classDecl header body => word "class" :: (header ++ braces body)

/-- The code has the form of its statement. -/
def IsWellFormed : StatementForm → Prop
  | plain code => Outermost IsFree code ∧
    ∀ f ∈ code.head?, f.2 ∉ ["\x7b", "function", "async", "class"]
  | block body => Balanced body
  | conditional head body others otherwise => Balanced head ∧ Balanced body ∧
    (∀ o ∈ others, Balanced o.1 ∧ Balanced o.2) ∧ ∀ e ∈ otherwise, Balanced e
  | headed keyword head body => keyword ∈ ["for", "while", "switch", "with"] ∧ Balanced head ∧
    Balanced body
  | repeated body head => Balanced body ∧ Balanced head
  | guarded body handler final => Balanced body ∧
    (∀ h ∈ handler, (∀ e ∈ h.1, Balanced e) ∧ Balanced h.2) ∧ (∀ e ∈ final, Balanced e) ∧
    (handler.isSome ∨ final.isSome)
  | function _ name params body => (∀ f ∈ name, isBracket f = false ∧ IsFree f) ∧
    Balanced params ∧ Balanced body
  | classDecl header body => Outermost IsFree header ∧ Balanced body

/-- In the head of a class no brace stands outside of other brackets, so that the body has the first
one. -/
def BodyComesFirst : StatementForm → Prop
  | classDecl header _ => Outermost (fun f => IsFree f ∧ f ≠ mark "\x7b") header
  | _ => True

/-- The first token of a statement, as a text. -/
def first (s : StatementForm) : String :=
  (s.faces.head?.map (·.2)).getD ""

/-- Is the end of the statement seen by the scan, if the end of the one before was hidden from it or
not?  A caught exception without a name is no block to the scan, nor is the body of an asynchronous
function; and what counts by its first word does not count behind a hidden end. -/
def closes (hidden : Bool) : StatementForm → Bool
  | plain _ => true
  | block _ => !hidden
  | conditional _ _ _ _ => true
  | headed _ _ _ => true
  | repeated _ _ => true
  | guarded _ handler final => final.isSome || handler.any (fun h => h.1.isSome)
  | function isAsync _ _ _ => !isAsync && !hidden
  | classDecl _ _ => !hidden

/-- Is the end of the last of some statements hidden from the scan, which comes to them behind an
end that was hidden from it or not? -/
def hidesEnd (hidden : Bool) : List StatementForm → Bool
  | [] => hidden
  | s :: r => hidesEnd (!s.closes hidden) r

end StatementForm

/-! ## Steps of the scan -/

variable {P : Face → Prop} {faces faces' inner body head code : List Face} {f : Face}
  {w w' k b : String} {s s' : StatementScan} {i : Nat} {rest tokens : List Token}

/-- A token of the code; where it stands makes no difference to the scan. -/
def tokenOf (f : Face) : Token :=
  ⟨f.1, f.2, 0⟩

/-- The scan with the place of the token before forgotten. -/
def StatementScan.placeless (s : StatementScan) : StatementScan :=
  { s with previous := s.previous.map (fun t => tokenOf t.face) }

theorem block?_placeless (s : StatementScan) : s.placeless.block? = s.block? := by
  unfold StatementScan.block? StatementScan.placeless
  cases s.previous <;> rfl

theorem push_placeless (s : StatementScan) (t : Token) (next : Option Token) :
    s.placeless.push (tokenOf t.face) (next.map (fun t => tokenOf t.face)) =
      ((s.push t next).1.placeless, (s.push t next).2) := by
  have hprevious : (s.placeless.previous.map (·.text)).getD "" =
      (s.previous.map (·.text)).getD "" := by
    unfold StatementScan.placeless
    cases s.previous <;> rfl
  have hnext (block : String) : (next.map (fun t => tokenOf t.face)).any
      (fun n => StatementScan.continues block n.text) =
        next.any (fun n => StatementScan.continues block n.text) := by
    cases next <;> rfl
  have hopened : s.placeless.opened = s.opened := rfl
  have hkind : (tokenOf t.face).kind = t.kind := rfl
  have htext : (tokenOf t.face).text = t.text := rfl
  unfold StatementScan.push
  simp only [block?_placeless, hprevious, hnext, hopened, hkind, htext]
  split_ifs <;> rfl

theorem finalStatementFrom_placeless (s : StatementScan) (i : Nat) (tokens : List Token) :
    finalStatementFrom s i tokens =
      finalStatementFrom s.placeless i ((tokens.map Token.face).map tokenOf) := by
  induction tokens generalizing s i with
  | nil => rfl
  | cons t tokens ih =>
    rw [List.map_cons, List.map_cons]
    unfold finalStatementFrom
    have hnext : ((tokens.map Token.face).map tokenOf).head? =
        tokens.head?.map (fun t => tokenOf t.face) := by
      cases tokens <;> rfl
    rw [hnext, push_placeless]
    rcases s.push t tokens.head? with ⟨s', ends⟩
    cases ends with
    | false => exact ih s' _
    | true =>
      cases tokens with
      | nil => rfl
      | cons next tokens => exact ih _ _

theorem push_plain (hbracket : isBracket f = false) (hsemicolon : f ≠ mark ";")
    (s : StatementScan) (next : Option Token) :
    s.push (tokenOf f) next = ({ s with previous := some (tokenOf f) }, false) := by
  rcases f with ⟨kind, text⟩
  unfold StatementScan.push
  by_cases hkind : kind = .punctuation
  · subst hkind
    simp only [isBracket, closers, bracketPairs, List.map_cons, List.map_nil, List.cons_append,
      List.nil_append, List.contains_eq_mem, List.mem_cons, List.not_mem_nil, or_false,
      decide_true, Bool.true_and, decide_eq_false_iff_not, not_or] at hbracket
    rcases hbracket with ⟨hparens, hlist, hbrace, hparens', hlist', hbrace'⟩
    have hother : text ≠ ";" := fun h => hsemicolon (by rw [h])
    simp [tokenOf, hparens, hlist, hbrace, hother, hparens', hlist', hbrace']
  · simp [tokenOf, hkind]

/-- The scan inside of an opening bracket. -/
def StatementScan.inside (s : StatementScan) (w : String) : StatementScan :=
  { s with
    previous := some (tokenOf (mark w))
    head := if w = "(" && s.opened.isEmpty then (s.previous.map (·.text)).getD "" else s.head
    opened := (if w = "\x7b" then s.block? else none) :: s.opened }

theorem push_opening (hpair : (w, w') ∈ bracketPairs) (s : StatementScan) (next : Option Token) :
    s.push (tokenOf (mark w)) next = (s.inside w, false) := by
  simp only [bracketPairs, List.mem_cons, Prod.mk.injEq, List.not_mem_nil, or_false] at hpair
  rcases hpair with ⟨rfl, -⟩ | ⟨rfl, -⟩ | ⟨rfl, -⟩ <;>
    simp [StatementScan.push, StatementScan.inside, tokenOf]

theorem braces_mem_bracketPairs : ("\x7b", "\x7d") ∈ bracketPairs := by
  decide

theorem parens_mem_bracketPairs : ("(", ")") ∈ bracketPairs := by
  decide

theorem push_closing (hpair : (w, w') ∈ bracketPairs) (hblock : ∀ b, s.opened ≠ [some b])
    (next : Option Token) :
    s.push (tokenOf (mark w')) next =
      ({ s with previous := some (tokenOf (mark w')), opened := s.opened.tail }, false) := by
  simp only [bracketPairs, List.mem_cons, Prod.mk.injEq, List.not_mem_nil, or_false] at hpair
  rcases hpair with ⟨-, rfl⟩ | ⟨-, rfl⟩ | ⟨-, rfl⟩
  · simp [StatementScan.push, tokenOf]
  · simp [StatementScan.push, tokenOf]
  · cases hopened : s.opened with
    | nil => simp [StatementScan.push, tokenOf, hopened]
    | cons x stack =>
      cases stack with
      | nil =>
        cases x with
        | none => simp [StatementScan.push, tokenOf, hopened]
        | some b => exact (hblock b hopened).elim
      | cons y stack => simp [StatementScan.push, tokenOf, hopened]

/-! ## Passing over code -/

/-- The scan goes on over the code, whatever follows, and no end is seen in it. -/
def Passes (s : StatementScan) (faces : List Face) (s' : StatementScan) : Prop :=
  ∀ i rest, finalStatementFrom s i (faces.map tokenOf ++ rest) =
    finalStatementFrom s' (i + faces.length) rest

theorem Passes.nil (s : StatementScan) : Passes s [] s :=
  fun _ _ => rfl

theorem Passes.append {s'' : StatementScan} (h : Passes s faces s') (h' : Passes s' faces' s'') :
    Passes s (faces ++ faces') s'' := by
  intro i rest
  rw [List.map_append, List.append_assoc, h, h', List.length_append, Nat.add_assoc]

theorem Passes.of_push (h : ∀ next, s.push (tokenOf f) next = (s', false)) : Passes s [f] s' := by
  intro i rest
  rw [List.map_singleton, List.singleton_append]
  conv_lhs => unfold finalStatementFrom
  rw [h]
  rfl

theorem passes_plain (hbracket : isBracket f = false) (hsemicolon : f ≠ mark ";")
    (s : StatementScan) : Passes s [f] { s with previous := some (tokenOf f) } :=
  .of_push (push_plain hbracket hsemicolon s)

theorem passes_word (s : StatementScan) (w : String) :
    Passes s [word w] { s with previous := some (tokenOf (word w)) } :=
  passes_plain (by simp [isBracket]) (by simp) s

/-- The scan behind brackets. -/
def StatementScan.behind (s : StatementScan) (w w' : String) : StatementScan :=
  { s.inside w with previous := some (tokenOf (mark w')), opened := s.opened }

theorem passes_group_of_passes (hpair : (w, w') ∈ bracketPairs)
    (hinner : ∀ s : StatementScan, s.opened ≠ [] →
      ∃ p, Passes s inner { s with previous := p })
    (hblock : w = "\x7b" → s.block? = none) :
    Passes s (mark w :: (inner ++ [mark w'])) (s.behind w w') := by
  have hnone : ∀ b, (s.inside w).opened ≠ [some b] := by
    intro b hopened
    simp only [StatementScan.inside, List.cons.injEq] at hopened
    split at hopened
    · next hw =>
      rw [hblock hw] at hopened
      cases hopened.1
    · cases hopened.1
  rcases hinner (s.inside w) (by simp [StatementScan.inside]) with ⟨p, hp⟩
  have hclosing : Passes { s.inside w with previous := p } [mark w'] (s.behind w w') :=
    .of_push fun next => push_closing hpair hnone next
  exact (Passes.of_push (push_opening hpair s)).append (hp.append hclosing)

/-- Nothing ends inside of brackets. -/
theorem exists_passes_balanced (h : Balanced inner) (hopened : s.opened ≠ []) :
    ∃ p, Passes s inner { s with previous := p } := by
  induction h generalizing s with
  | nil => exact ⟨s.previous, .nil s⟩
  | @plain f r hf _ ih =>
    by_cases hsemicolon : f = mark ";"
    · subst hsemicolon
      have hpush (next : Option Token) : s.push (tokenOf (mark ";")) next =
          ({ s with previous := some (tokenOf (mark ";")) }, false) := by
        simp [StatementScan.push, tokenOf, hopened]
      rcases @ih { s with previous := some (tokenOf (mark ";")) } hopened with ⟨p, hp⟩
      exact ⟨p, (Passes.of_push hpush).append hp⟩
    · rcases @ih { s with previous := some (tokenOf f) } hopened with ⟨p, hp⟩
      exact ⟨p, (passes_plain hf hsemicolon s).append hp⟩
  | @group w w' inner r hpair _ _ ihinner ih =>
    have hblock : s.block? = none := by
      cases hstack : s.opened with
      | nil => exact (hopened hstack).elim
      | cons x stack => simp [StatementScan.block?, hstack]
    have hhead : (s.inside w).head = s.head := by
      simp [StatementScan.inside, hopened]
    have hgroup : Passes s (mark w :: (inner ++ [mark w'])) (s.behind w w') :=
      passes_group_of_passes hpair (fun s' hs' => ihinner hs') fun _ => hblock
    rcases @ih (s.behind w w') hopened with ⟨p, hp⟩
    refine ⟨p, ?_⟩
    have hall := hgroup.append hp
    have hstate : { s.behind w w' with previous := p } = { s with previous := p } := by
      simp only [StatementScan.behind, hhead]
      rfl
    rw [hstate] at hall
    simpa using hall

theorem passes_group (hpair : (w, w') ∈ bracketPairs) (h : Balanced inner)
    (hblock : w = "\x7b" → s.block? = none) :
    Passes s (mark w :: (inner ++ [mark w'])) (s.behind w w') :=
  passes_group_of_passes hpair (fun _ hs => exists_passes_balanced h hs) hblock

/-- Before the scan stands no word of a form, and none in front of the parenthesis that has just
been closed. -/
structure StatementScan.Settled (s : StatementScan) : Prop where
  opened : s.opened = []
  previous : ∀ p ∈ s.previous, p.text ∉ formWords ∧ (p.text = ")" → s.head ∉ formWords)

theorem blockWords_subset : blockWords ⊆ formWords := by
  decide

theorem headWords_subset : headWords ⊆ formWords := by
  decide

/-- Behind something, a brace opens a block there only if a word of a declaration came first. -/
theorem StatementScan.Settled.block?_eq (h : s.Settled) (hprevious : s.previous ≠ none) :
    s.block? = if declarationWords.contains s.first then some s.first else none := by
  rcases Option.ne_none_iff_exists'.mp hprevious with ⟨p, hp⟩
  rcases h.previous p hp with ⟨hword, hhead⟩
  have hblock : p.text ∉ blockWords := fun hmem => hword (blockWords_subset hmem)
  have hclosed : ¬(p.text = ")" ∧ s.head ∈ headWords) :=
    fun h => hhead h.1 (headWords_subset h.2)
  simp [StatementScan.block?, h.opened, hp, hblock, hclosed]

/-- The scan goes on over code without words of forms. -/
theorem exists_passes_outermost (h : Outermost P faces) (hs : s.Settled)
    (hfree : ∀ f, P f → IsFree f ∧ (s.first ∈ declarationWords → f ≠ mark "\x7b"))
    (hfirst : s.previous = none → ∀ f ∈ faces.head?, f ≠ mark "\x7b") :
    ∃ s', Passes s faces s' ∧ s'.Settled ∧ s'.start = s.start ∧ s'.first = s.first ∧
      (s.previous ≠ none ∨ faces ≠ [] → s'.previous ≠ none) := by
  induction h generalizing s with
  | nil => exact ⟨s, .nil s, hs, rfl, rfl, fun h => h.resolve_right (by simp)⟩
  | @plain f r hbracket hP _ ih =>
    rcases hfree f hP with ⟨⟨hsemicolon, hparens, hword⟩, -⟩
    have hsettled : StatementScan.Settled { s with previous := some (tokenOf f) } := by
      refine ⟨hs.opened, ?_⟩
      rintro p ⟨⟩
      exact ⟨hword, fun h => (hparens h).elim⟩
    have hsome : ({ s with previous := some (tokenOf f) } : StatementScan).previous ≠ none := by
      simp
    rcases ih hsettled hfree (fun hnone => absurd hnone hsome) with
      ⟨s', hpasses, hs', hstart, hfirst', hprevious⟩
    exact ⟨s', (passes_plain hbracket hsemicolon s).append hpasses, hs', hstart, hfirst',
      fun _ => hprevious (Or.inl hsome)⟩
  | @group w w' inner r hpair hP hinner _ ih =>
    have hblock : w = "\x7b" → s.block? = none := by
      rintro rfl
      -- a brace opens a block at the start of a statement, or where its first word says so
      by_cases hprevious : s.previous = none
      · exact (hfirst hprevious _ rfl rfl).elim
      · rw [hs.block?_eq hprevious, if_neg]
        simpa using fun h => (hfree _ hP).2 h rfl
    have hhead : (s.inside "(").head ∉ formWords := by
      have hinside : (s.inside "(").head = (s.previous.map (·.text)).getD "" := by
        simp [StatementScan.inside, hs.opened]
      rw [hinside]
      cases hprevious : s.previous with
      | none => decide
      | some p => exact (hs.previous p hprevious).1
    have hsettled : (s.behind w w').Settled := by
      refine ⟨hs.opened, ?_⟩
      rintro p ⟨⟩
      simp only [bracketPairs, List.mem_cons, Prod.mk.injEq, List.not_mem_nil, or_false] at hpair
      rcases hpair with ⟨rfl, rfl⟩ | ⟨rfl, rfl⟩ | ⟨rfl, rfl⟩
      · exact ⟨by decide, fun _ => hhead⟩
      · exact ⟨by decide, fun h => absurd h (by decide)⟩
      · exact ⟨by decide, fun h => absurd h (by decide)⟩
    have hbehind : (s.behind w w').previous ≠ none := by simp [StatementScan.behind]
    rcases ih hsettled hfree (fun hnone => absurd hnone hbehind) with
      ⟨s', hpasses, hs', hstart, hfirst', hprevious⟩
    have hall := (passes_group hpair hinner hblock).append hpasses
    exact ⟨s', by simpa using hall, hs', hstart, hfirst', fun _ => hprevious (Or.inl hbehind)⟩

/-! ## Ends of statements -/

/-- What is found behind the end of a statement: the statement that begins there, or none. -/
def foundBehind (start i : Nat) (head : String) : List Token → Nat
  | [] => start
  | next :: r => finalStatementFrom ⟨i, next.text, none, head, []⟩ i (next :: r)

/-- The scan sees an end behind the code, unless a word follows that continues it. -/
def Closes (s : StatementScan) (faces : List Face) : Prop :=
  ∀ i rest, (∀ t ∈ rest.head?, t.text ∉ continuationWords) →
    ∃ head, finalStatementFrom s i (faces.map tokenOf ++ rest) =
      foundBehind s.start (i + faces.length) head rest

theorem Passes.closes (h : Passes s faces s') (hstart : s'.start = s.start)
    (h' : Closes s' faces') : Closes s (faces ++ faces') := by
  intro i rest hrest
  rcases h' (i + faces.length) rest hrest with ⟨head, hhead⟩
  refine ⟨head, ?_⟩
  rw [List.map_append, List.append_assoc, h, hhead, hstart, List.length_append, Nat.add_assoc]

theorem closes_of_push (s' : StatementScan) (hopened : s'.opened = []) (hstart : s'.start = s.start)
    (h : ∀ next : Option Token, (∀ t ∈ next, t.text ∉ continuationWords) →
      s.push (tokenOf f) next = (s', true)) : Closes s [f] := by
  intro i rest hrest
  refine ⟨s'.head, ?_⟩
  rw [List.map_singleton, List.singleton_append]
  conv_lhs => unfold finalStatementFrom
  rw [h rest.head? hrest]
  cases rest with
  | nil => exact hstart
  | cons next r =>
    simp only [foundBehind, List.length_singleton, hopened]

theorem closes_semicolon (hopened : s.opened = []) : Closes s [mark ";"] :=
  closes_of_push { s with previous := some (tokenOf (mark ";")) } hopened rfl fun _ _ => by
    simp [StatementScan.push, tokenOf, hopened]

/-- The scan inside of a block. -/
theorem exists_passes_block (hopened : s.opened = []) (hblock : s.block? = some b)
    (h : Balanced body) : ∃ p, Passes s (mark "\x7b" :: body)
      { s with previous := p, opened := [some b] } := by
  have hopening : s.inside "\x7b" =
      { s with previous := some (tokenOf (mark "\x7b")), opened := [some b] } := by
    simp [StatementScan.inside, hblock, hopened]
  rcases @exists_passes_balanced body (s.inside "\x7b") h (by simp [StatementScan.inside])
    with ⟨p, hp⟩
  refine ⟨p, ?_⟩
  have hall := (Passes.of_push (push_opening braces_mem_bracketPairs s)).append hp
  rw [hopening] at hall
  exact hall

theorem push_blockEnd (hopened : s.opened = [some b]) (next : Option Token) :
    s.push (tokenOf (mark "\x7d")) next =
      ({ s with previous := some (tokenOf (mark "\x7d")), opened := [] },
        !next.any (fun n => StatementScan.continues b n.text)) := by
  simp [StatementScan.push, tokenOf, hopened]

theorem closes_block (hopened : s.opened = []) (hblock : s.block? = some b) (hdo : b ≠ "do")
    (h : Balanced body) : Closes s (braces body) := by
  rcases exists_passes_block hopened hblock h with ⟨p, hp⟩
  refine hp.closes rfl
    (closes_of_push { s with previous := some (tokenOf (mark "\x7d")), opened := [] } rfl rfl ?_)
  intro next hnext
  have hcontinues : next.any (fun n => StatementScan.continues b n.text) = false := by
    cases next with
    | none => rfl
    | some n => simp [StatementScan.continues, hdo, hnext n rfl]
  rw [push_blockEnd rfl, hcontinues]
  rfl

/-- The scan behind a word. -/
def StatementScan.behindWord (s : StatementScan) (k : String) : StatementScan :=
  { s with previous := some (tokenOf (word k)) }

/-- A block that the next word continues. -/
theorem passes_continued (hopened : s.opened = []) (hblock : s.block? = some b)
    (hcontinues : StatementScan.continues b w = true) (h : Balanced body) :
    Passes s (braces body ++ [word w]) (s.behindWord w) := by
  rcases exists_passes_block hopened hblock h with ⟨p, hp⟩
  have hend : Passes { s with previous := p, opened := [some b] } [mark "\x7d", word w]
      (s.behindWord w) := by
    intro i rest
    have hword := passes_word { s with previous := some (tokenOf (mark "\x7d")), opened := [] } w
    have hpush : StatementScan.push { s with previous := p, opened := [some b] }
        (tokenOf (mark "\x7d")) (some (tokenOf (word w))) =
          ({ s with previous := some (tokenOf (mark "\x7d")), opened := [] }, false) := by
      rw [push_blockEnd rfl]
      simp [tokenOf, hcontinues]
    have hbehind : s.behindWord w =
        { s with previous := some (tokenOf (word w)), opened := [] } := by
      rw [← hopened]
      rfl
    rw [hbehind]
    conv_lhs => unfold finalStatementFrom
    simp only [List.map_cons, List.map_nil, List.cons_append, List.nil_append, List.head?_cons,
      hpush]
    exact hword (i + 1) rest
  have hall := hp.append hend
  simpa [braces] using hall

/-- The scan behind a word and its head in parentheses. -/
def StatementScan.behindHead (s : StatementScan) (k : String) : StatementScan :=
  { s with previous := some (tokenOf (mark ")")), head := k }

theorem passes_parens (hopened : s.opened = []) (k : String) (h : Balanced head) :
    Passes (s.behindWord k) (parens head) (s.behindHead k) := by
  have hgroup : Passes (s.behindWord k) (parens head) ((s.behindWord k).behind "(" ")") :=
    passes_group parens_mem_bracketPairs h nofun
  have hstate : (s.behindWord k).behind "(" ")" = s.behindHead k := by
    simp [StatementScan.behind, StatementScan.inside, StatementScan.behindWord,
      StatementScan.behindHead, hopened, tokenOf]
  rw [hstate] at hgroup
  exact hgroup

theorem block?_behindHead (hopened : s.opened = []) (hk : k ∈ headWords) :
    (s.behindHead k).block? = some k := by
  simp [StatementScan.block?, StatementScan.behindHead, hopened, tokenOf, hk]

theorem block?_behindWord (hopened : s.opened = []) (hk : k ∈ blockWords) :
    (s.behindWord k).block? = some k := by
  simp [StatementScan.block?, StatementScan.behindWord, hopened, tokenOf, hk]

end WasmPackage.Bindings
