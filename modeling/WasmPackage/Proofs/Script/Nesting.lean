import WasmPackage.Proofs.Script.Walks

/-!
# Members in their classes

The members of a class stand one behind another between its braces, each with its name, parameters,
type and body inside it and its comment before it.  The walk over type parameters may leave the
class; members are nested just where it does not, or where a colon leads back.
-/

namespace WasmPackage.Script

/-! ## Nested parts -/

/-- The parts of a member stand in it, and its comment before it. -/
structure Member.IsNested (m : Member) : Prop where
  name : m.start ≤ m.nameStart ∧ m.nameStart < m.nameStop ∧ m.nameStop ≤ m.stop
  params : ∀ p ∈ m.paramsStop, m.nameStop ≤ p ∧ p ≤ m.stop
  type : ∀ n ∈ m.returnType, m.nameStop ≤ n.start ∧ n.start < n.stop ∧ n.stop ≤ m.stop
  body : ∀ b ∈ m.body, m.nameStop ≤ b.1 ∧ b.1 < b.2 ∧ b.2 ≤ m.stop
  doc : ∀ d ∈ m.doc, d.stop ≤ m.start

/-- The members of a class stand one behind another between its braces.  A comment stands behind the
member before. -/
structure ClassShape.IsNested (c : ClassShape) : Prop where
  inside : ∀ m ∈ c.members, c.bodyOpen < m.start ∧ m.stop ≤ c.bodyClose ∧
    ∀ d ∈ m.doc, c.bodyOpen < d.start
  ordered : c.members.Pairwise (fun a b => a.stop ≤ b.start ∧ ∀ d ∈ b.doc, a.stop ≤ d.start)
  parts : ∀ m ∈ c.members, m.IsNested

/-! ## Comments -/

theorem StandIn.tail {start stop : Nat} {x : Token} {tokens : List Token}
    (h : StandIn start stop (x :: tokens)) : StandIn x.stop stop tokens := by
  rcases List.pairwise_cons.mp h.ordered with ⟨hfirst, hordered⟩
  refine ⟨?_, hordered⟩
  intro y hy
  have := h.within y (List.mem_cons_of_mem _ hy)
  exact ⟨hfirst y hy, this.2⟩

/-- A comment stands between the code token before it and the one that it documents. -/
theorem documented_places (pending : Option DocComment) {lower start stop : Nat}
    {tokens : List Token} (h : StandIn start stop tokens) (hlower : lower ≤ start)
    (hpending : ∀ d ∈ pending, lower ≤ d.start ∧ d.stop ≤ start) :
    (documented pending tokens).Pairwise (fun a b => ∀ d ∈ b.2, a.1.stop ≤ d.start) ∧
      ∀ p ∈ documented pending tokens, ∀ d ∈ p.2, lower ≤ d.start ∧ d.stop ≤ p.1.start := by
  induction tokens generalizing lower start pending with
  | nil => exact ⟨List.Pairwise.nil, List.forall_mem_nil _⟩
  | cons x tokens ih =>
    have hx := h.within x List.mem_cons_self
    have htail := h.tail
    rw [documented]
    split
    · split
      · refine ih _ htail (by omega) ?_
        rintro d hd
        cases hd
        refine ⟨by simp only; omega, ?_⟩
        simp [DocComment.stop, Token.stop, String.length_toList]
      · refine ih _ htail (by omega) ?_
        intro d hd
        have := hpending d hd
        omega
    · rcases ih none htail (Nat.le_refl _) (by simp) with ⟨hordered, hbounds⟩
      refine ⟨List.pairwise_cons.mpr ⟨?_, hordered⟩, ?_⟩
      · intro p hp d hd
        exact (hbounds p hp d hd).1
      · intro p hp d hd
        rcases List.mem_cons.mp hp with rfl | hp
        · have := hpending d hd
          simp only
          omega
        · have := hbounds p hp d hd
          omega

namespace Source

variable {t : Text} {s : Source} {i j k left last close first start : Nat} {name : String}
  {modifiers : Modifiers} {isCallable : Bool} {m : Member} {next : Nat}

/-! ## Indices of a member -/

/-- The index behind the name of a member, with its marks and type parameters. -/
def behindName (s : Source) (last : Nat) : Nat :=
  s.behindTypeParameters (s.skipMarks (last + 1))

/-- The index behind the parameters of a member, if it has any. -/
def behindParams (s : Source) (last : Nat) : Nat :=
  if s.is "(" (s.behindName last) then s.skip (s.behindName last) else s.behindName last

/-- The type of a member and the index behind it. -/
def memberType (s : Source) (stop last : Nat) : Option TypeNote × Nat :=
  s.typeNote stop (s.behindParams last)

/-- The index behind the type and the initial value of a member, where its body may begin. -/
def bodyAt (s : Source) (stop last : Nat) : Nat :=
  if !s.is "(" (s.behindName last) && s.is "=" (s.memberType stop last).2 then
    s.initialValueStop stop (s.memberType stop last).2
  else (s.memberType stop last).2

/-- The index behind a member. -/
def behindMember (s : Source) (stop last : Nat) : Nat :=
  if s.is "\x7b" (s.bodyAt stop last) then s.skip (s.bodyAt stop last)
  else if s.is ";" (s.bodyAt stop last) then s.bodyAt stop last + 1
  else s.bodyAt stop last

theorem memberAt_snd : (s.memberAt close start modifiers first name last).2 =
    s.behindMember close last := by
  simp only [memberAt, Option.isSome_ite]
  rfl

theorem memberAt_stop : (s.memberAt close start modifiers first name last).1.stop =
    s.stopAt (s.behindMember close last - 1) := by
  simp only [memberAt, Option.isSome_ite]
  rfl

theorem memberAt_paramsStop : (s.memberAt close start modifiers first name last).1.paramsStop =
    if s.is "(" (s.behindName last) then some (s.stopAt (s.behindParams last - 1)) else none :=
  rfl

theorem memberAt_body : (s.memberAt close start modifiers first name last).1.body =
    if s.is "\x7b" (s.bodyAt close last) then
      some (s.startAt (s.bodyAt close last),
        s.stopAt ((s.closer? (s.bodyAt close last)).getD (s.bodyAt close last)))
    else none :=
  rfl

theorem lt_behindName (s : Source) (last : Nat) : last < s.behindName last := by
  have hmarks := s.le_skipMarks (i := last + 1)
  have hparams := s.le_behindTypeParameters (i := s.skipMarks (last + 1))
  unfold behindName
  omega

theorem behindName_le_size (hlast : last < s.size) : s.behindName last ≤ s.size := by
  have hend : s.wordIn ["?", "!"] s.size = false := by simp [wordIn, word?, size]
  have hmarks : s.skipMarks (last + 1) ≤ s.size := skipMarks_le hend hlast
  unfold behindName behindTypeParameters
  split
  · exact typeParamsStop_le hmarks
  · exact hmarks

/-- The body of a member would begin behind its name and in the code, even if the member runs out of
its class. -/
theorem bodyAt_within [Limits] (hs : Source.read t = .ok s) (hlast : last < close)
    (hclose : close ≤ s.size) :
    last < s.bodyAt close last ∧ s.bodyAt close last ≤ s.size := by
  have hname := s.lt_behindName last
  have hname' : s.behindName last ≤ s.size := behindName_le_size (by omega)
  have hparams : s.behindName last ≤ s.behindParams last ∧ s.behindParams last ≤ s.size := by
    unfold behindParams
    split
    · next hcall =>
      exact ⟨Nat.le_of_lt (s.lt_skip _), skip_le_size hs (lt_size_of_is hcall)⟩
    · exact ⟨Nat.le_refl _, hname'⟩
  have htype : last < (s.memberType close last).2 ∧ (s.memberType close last).2 ≤ s.size := by
    unfold memberType
    rcases s.typeNote_cases (s.behindParams last) close with ⟨-, hnote⟩ | ⟨-, hle, hle', -⟩
    · rw [hnote]
      simp only
      omega
    · omega
  unfold bodyAt
  split
  · have hle : (s.memberType close last).2 ≤
        s.initialValueStop close (s.memberType close last).2 :=
      s.le_initialValueStop
    have hle' := initialValueStop_le_size hs hclose htype.2
    omega
  · exact htype

theorem lt_behindMember [Limits] (hs : Source.read t = .ok s) (hlast : last < close)
    (hclose : close ≤ s.size) : last < s.behindMember close last := by
  have hbody := (bodyAt_within hs hlast hclose).1
  have hskip := s.lt_skip (s.bodyAt close last)
  unfold behindMember
  split
  · omega
  · split <;> omega

/-- Do the type parameters behind the name of a member end behind the class, without a colon? -/
def RunsOut (s : Source) (bodyClose : Nat) (m : Member) : Prop :=
  ∃ k < s.size, s.stopAt k = m.nameStop ∧ bodyClose < s.startAt (s.behindName k) ∧
    s.is ":" (s.behindName k) = false

/-! ## Comments -/

/-- A comment that documents a code token stands before it and behind the code tokens before. -/
theorem of_doc? [Limits] (hs : Source.read t = .ok s) {d : DocComment} (hd : s.doc? i = some d) :
    d.stop ≤ s.startAt i ∧ ∀ j < i, s.stopAt j ≤ d.start := by
  rcases read_eq_ok hs with ⟨-, htokens, hcode, hdocs, -⟩
  have hstand := standIn_tokensFrom (tokensFrom_of_tokenize htokens)
  rcases documented_places none hstand (Nat.le_refl _) nofun with ⟨hordered, hbounds⟩
  have hdoc : (documented none s.tokens)[i]?.map Prod.snd = some (some d) := by
    rw [← List.getElem?_map, ← hdocs, Array.getElem?_toList]
    exact Option.join_eq_some_iff.mp hd
  rcases Option.map_eq_some_iff.mp hdoc with ⟨⟨x, d'⟩, hi, rfl⟩
  have htoken {j : Nat} {p : Token × Option DocComment}
      (hj : (documented none s.tokens)[j]? = some p) : s.code[j]? = some p.1 := by
    rw [← Array.getElem?_toList, hcode, List.getElem?_map, hj]
    rfl
  refine ⟨?_, ?_⟩
  · have := (hbounds _ (List.mem_of_getElem? hi) d rfl).2
    simpa [startAt, htoken hi] using this
  · intro j hj
    rcases List.getElem?_eq_some_iff.mp hi with ⟨hsize, hi⟩
    have hjsize := Nat.lt_trans hj hsize
    have := List.pairwise_iff_getElem.mp hordered j i hjsize hsize hj d (by rw [hi]; rfl)
    simpa [stopAt, htoken (List.getElem?_eq_getElem hjsize)] using this

/-! ## Members -/

section

variable [Limits] (hs : Source.read t = .ok s) (hclose : s.closer? left = some close)
  (hbrace : s.is "\x7d" close = true)

include hs hclose hbrace

/-- The parameters and the type of a member stand behind its name and in the class. -/
theorem memberType_within (hleft : left < last) (hlast : last < close)
    (hends : s.behindName last ≤ close ∨ s.is ":" (s.behindName last) = true) :
    last < (s.memberType close last).2 ∧ (s.memberType close last).2 ≤ close ∧
      (s.is "(" (s.behindName last) = true →
        last < s.behindParams last - 1 ∧ s.behindParams last ≤ (s.memberType close last).2) ∧
      ∀ n ∈ (s.memberType close last).1, ∃ a b, last < a ∧ a ≤ b ∧
        b < (s.memberType close last).2 ∧ n.start = s.startAt a ∧ n.stop = s.stopAt b := by
  have hname := s.lt_behindName last
  have hcases := s.typeNote_cases (s.behindParams last) close
  rw [← memberType] at hcases
  rcases Nat.lt_or_ge close (s.behindName last) with hover | hin
  · -- the walk has left the class, and comes back at the colon
    have hcolon := hends.resolve_left (by omega)
    have hcall := is_eq_false (v := "(") hcolon (by decide)
    have hparams : s.behindParams last = s.behindName last := by simp [behindParams, hcall]
    rw [hparams] at hcases
    rcases hcases with ⟨hnot, -⟩ | ⟨-, hle, hstop, hnote⟩
    · rw [hnot] at hcolon
      cases hcolon
    · refine ⟨by omega, hstop, by simp [hcall], ?_⟩
      intro n hn
      have := (hnote n hn).1
      omega
  · have hparams : last < s.behindParams last ∧ s.behindParams last ≤ close ∧
        (s.is "(" (s.behindName last) = true → last < s.behindParams last - 1) := by
      unfold behindParams
      cases hcall : s.is "(" (s.behindName last) with
      | false => exact ⟨hname, hin, nofun⟩
      | true =>
        have hlt : s.behindName last < close := by
          rcases Nat.eq_or_lt_of_le hin with heq | hlt
          · rw [heq, is_eq_false hbrace (by decide)] at hcall
            cases hcall
          · exact hlt
        have hnext := s.lt_skip (s.behindName last)
        have hskip := skip_le_of_closer? hs hclose (by omega) hlt
        simp only [if_true]
        omega
    rcases hparams with ⟨hbehind, hle, hcall⟩
    rcases hcases with ⟨-, hnote⟩ | ⟨hcolon, hle', hstop, hnote⟩
    · rw [hnote]
      exact ⟨hbehind, hle, fun h => ⟨hcall h, Nat.le_refl _⟩, nofun⟩
    · have hne : s.behindParams last ≠ close := by
        rintro heq
        rw [heq, is_eq_false hbrace (by decide)] at hcolon
        cases hcolon
      refine ⟨by omega, hstop, fun h => ⟨hcall h, by omega⟩, ?_⟩
      intro n hn
      rcases hnote n hn with ⟨hlt, hfirst, hlast'⟩
      exact ⟨s.behindParams last + 1, (s.memberType close last).2 - 1, by omega, by omega,
        by omega, hfirst, hlast'⟩

/-- What comes behind the type of a member stands in the class too. -/
theorem behindMember_within (hleft : left < (s.memberType close last).2)
    (htype : (s.memberType close last).2 ≤ close) :
    (s.memberType close last).2 ≤ s.bodyAt close last ∧
      s.bodyAt close last ≤ s.behindMember close last ∧ s.behindMember close last ≤ close ∧
      (s.is "\x7b" (s.bodyAt close last) = true → ∃ k, s.closer? (s.bodyAt close last) = some k ∧
        s.bodyAt close last < k ∧ k < s.behindMember close last) := by
  have hj : (s.memberType close last).2 ≤ s.bodyAt close last ∧ s.bodyAt close last ≤ close := by
    unfold bodyAt
    split
    · exact ⟨le_initialValueStop, initialValueStop_le hs hclose hleft htype⟩
    · exact ⟨Nat.le_refl _, htype⟩
  unfold behindMember
  generalize s.bodyAt close last = j at hj ⊢
  have hinside {w : String} (hne : "\x7d" ≠ w) (hw : s.is w j = true) : j < close := by
    rcases Nat.eq_or_lt_of_le hj.2 with heq | hlt
    · rw [heq, is_eq_false hbrace hne] at hw
      cases hw
    · exact hlt
  refine ⟨hj.1, ?_⟩
  cases hbody : s.is "\x7b" j with
  | true =>
    rcases closer?_of_is hs (v := "\x7d") (by decide) hbody with ⟨k, hk, -⟩
    have hlt := (lt_of_closer? hs hk).1
    have hskip := skip_le_of_closer? hs hclose (by omega) (hinside (by decide) hbody)
    have hnext : s.skip j = k + 1 := by
      simp only [skip, hk, Option.elim_some]
      omega
    simp only [if_true]
    exact ⟨by omega, hskip, fun _ => ⟨k, hk, hlt, by omega⟩⟩
  | false =>
    cases hend : s.is ";" j with
    | true =>
      refine ⟨by simp, hinside (by decide) hend, ?_⟩
      intro hopens
      cases hopens
    | false =>
      refine ⟨by simp, by simpa using hj.2, ?_⟩
      intro hopens
      cases hopens

omit hbrace in
theorem runsOut_memberAt_iff (hin : last < close) :
    s.RunsOut (s.startAt close) (s.memberAt close start modifiers first name last).1 ↔
      close < s.behindName last ∧ s.is ":" (s.behindName last) = false := by
  have hplaced := (isPlaced_of_read hs).2
  have hsize := (lt_of_closer? hs hclose).2
  constructor
  · rintro ⟨k, hk, hstop, hover, hcolon⟩
    have hlast : k = last := hplaced.eq_of_stopAt_eq hk (by omega) hstop
    subst hlast
    refine ⟨?_, hcolon⟩
    by_contra hle
    have := hplaced.startAt_mono (Nat.le_of_not_lt hle)
    omega
  · rintro ⟨hover, hcolon⟩
    exact ⟨last, by omega, rfl, hplaced.startAt_lt_startAt hsize hover, hcolon⟩

/-- A member that does not run out stands in the class with all its parts. -/
theorem memberAt_within (hstart : left < start) (hfirst : start ≤ first) (hlast : first ≤ last)
    (hin : last < close)
    (hends : ¬ s.RunsOut (s.startAt close) (s.memberAt close start modifiers first name last).1) :
    last < s.behindMember close last ∧ s.behindMember close last ≤ close ∧
      (s.memberAt close start modifiers first name last).1.IsNested := by
  have hplaced := (isPlaced_of_read hs).2
  have hsize := (lt_of_closer? hs hclose).2
  rw [runsOut_memberAt_iff hs hclose hin, not_and, Bool.not_eq_false] at hends
  have hname : s.behindName last ≤ close ∨ s.is ":" (s.behindName last) = true :=
    (Nat.lt_or_ge close (s.behindName last)).symm.imp_right hends
  rcases memberType_within hs hclose hbrace (by omega) hin hname with
    ⟨hnote, hnote', hcall, htype⟩
  rcases behindMember_within hs hclose hbrace (by omega) hnote' with ⟨hj, hnext, hnext', hbody⟩
  refine ⟨by omega, hnext', ?name, ?params, ?type, ?body, ?doc⟩
  case name =>
    rw [memberAt_stop]
    exact ⟨hplaced.startAt_mono hfirst, hplaced.startAt_lt_stopAt (by omega) hlast,
      hplaced.stopAt_mono (by omega)⟩
  case params =>
    rw [memberAt_stop, memberAt_paramsStop]
    intro p hp
    cases hcallable : s.is "(" (s.behindName last) with
    | false => simp [hcallable] at hp
    | true =>
      simp only [hcallable, if_true, Option.mem_some_iff] at hp
      subst hp
      have := hcall hcallable
      exact ⟨hplaced.stopAt_mono (by omega), hplaced.stopAt_mono (by omega)⟩
  case type =>
    rw [memberAt_stop]
    intro n hn
    rcases htype n hn with ⟨a, b, ha, hab, hb, hfirst', hlast'⟩
    rw [hfirst', hlast']
    exact ⟨hplaced.stopAt_le_startAt (by omega) ha, hplaced.startAt_lt_stopAt (by omega) hab,
      hplaced.stopAt_mono (by omega)⟩
  case body =>
    rw [memberAt_stop, memberAt_body]
    intro b hb
    cases hopens : s.is "\x7b" (s.bodyAt close last) with
    | false => simp [hopens] at hb
    | true =>
      rcases hbody hopens with ⟨k, hk, hjk, hkn⟩
      simp only [hopens, if_true, Option.mem_some_iff, hk, Option.getD_some] at hb
      subst hb
      exact ⟨hplaced.stopAt_le_startAt (by omega) (by omega),
        hplaced.startAt_lt_stopAt (by omega) (by omega), hplaced.stopAt_mono (by omega)⟩
  case doc =>
    intro d hd
    exact (of_doc? hs hd).1

omit hbrace in
/-- A member that runs out does not stand in the class, or its parameters do not stand in it. -/
theorem not_nested_of_lt_behindName (hover : close < s.behindName last)
    (hcolon : s.is ":" (s.behindName last) = false) :
    ¬ ((s.memberAt close start modifiers first name last).1.stop ≤ s.startAt close ∧
      (s.memberAt close start modifiers first name last).1.IsNested) := by
  rintro ⟨hstop, hnested⟩
  have hplaced := (isPlaced_of_read hs).2
  have hsize := (lt_of_closer? hs hclose).2
  have hclose' := hplaced.startAt_lt_stopAt hsize (Nat.le_refl close)
  cases hcall : s.is "(" (s.behindName last) with
  | true =>
    -- the parameters stand behind the class
    have hparams := (hnested.params (s.stopAt (s.behindParams last - 1))
      (by simp [memberAt_paramsStop, hcall])).2
    have hlt : s.behindName last < s.behindParams last := by
      simp only [behindParams, hcall, if_true]
      exact s.lt_skip _
    have hmono : s.stopAt close ≤ s.stopAt (s.behindParams last - 1) :=
      hplaced.stopAt_mono (by omega)
    omega
  | false =>
    have hnote : (s.memberType close last).2 = s.behindName last := by
      simp [memberType, behindParams, hcall, typeNote, hcolon]
    have hbody : s.bodyAt close last = s.behindName last := by
      have hvalue : s.initialValueStop close (s.behindName last) = s.behindName last := by
        rw [initialValueStop, if_neg (by omega)]
      simp [bodyAt, hnote, hvalue]
    have hnext : s.behindName last ≤ s.behindMember close last := by
      have hskip := s.lt_skip (s.behindName last)
      unfold behindMember
      rw [hbody]
      split
      · omega
      · split <;> omega
    have hmono : s.stopAt close ≤ s.stopAt (s.behindMember close last - 1) :=
      hplaced.stopAt_mono (by omega)
    rw [memberAt_stop] at hstop
    omega

omit hbrace in
/-- A member that is found has its name inside the class. -/
theorem of_member (hleft : left < start) (hstart : start < close)
    (h : s.member close start = (some m, next)) :
    ∃ modifiers first name last, start ≤ first ∧ first ≤ last ∧ last < close ∧
      s.memberAt close start modifiers first name last = (m, next) := by
  unfold member at h
  cases hhead : s.memberHead close start ⟨false, .method⟩ with
  | staticBlock i =>
    rw [hhead] at h
    cases h
  | name modifiers i =>
    have hi := le_of_memberHead_name hhead (Nat.le_of_lt hstart)
    rw [hhead] at h
    simp only at h
    have hfirst : start ≤ (if s.is "*" i then i + 1 else i) := by split <;> omega
    generalize (if s.is "*" i then i + 1 else i) = first at h hfirst
    split at h
    case isTrue hin =>
      cases hname : s.memberName? close first with
      | none =>
        rw [hname] at h
        cases h
      | some p =>
        rcases p with ⟨name, last⟩
        rw [hname] at h
        have hlast := of_memberName? hs hclose (by omega) hin hname
        simp only [Prod.mk.injEq, Option.some.injEq] at h
        exact ⟨modifiers, first, name, last, hfirst, hlast.1, hlast.2, Prod.ext h.1 h.2⟩
    case isFalse => cases h

omit hbrace in
theorem mem_membersFrom (hleft : left < i) (h : m ∈ s.membersFrom close i) :
    ∃ start modifiers first name last, i ≤ start ∧ start ≤ first ∧ first ≤ last ∧ last < close ∧
      m = (s.memberAt close start modifiers first name last).1 := by
  fun_induction membersFrom s close i with
  | case1 i hi hempty ih =>
    rcases ih (by omega) h with ⟨start, modifiers, first, name, last, hstart, hmember⟩
    exact ⟨start, modifiers, first, name, last, by omega, hmember⟩
  | case2 i hi hempty found next hmember ih =>
    rcases List.mem_append.mp h with hfound | hrest
    · rw [Option.mem_toList] at hfound
      rw [hfound] at hmember
      rcases of_member hs hclose hleft hi hmember with
        ⟨modifiers, first, name, last, hfirst, hlast, hin, heq⟩
      exact ⟨i, modifiers, first, name, last, Nat.le_refl i, hfirst, hlast, hin, by rw [heq]⟩
    · rcases ih (by omega) hrest with ⟨start, modifiers, first, name, last, hstart, hmember⟩
      exact ⟨start, modifiers, first, name, last, by omega, hmember⟩
  | case3 => cases h

/-- Members that do not run out stand one behind another, with their comments between them. -/
theorem membersFrom_ordered (hleft : left < i)
    (hends : ∀ m ∈ s.membersFrom close i, ¬ s.RunsOut (s.startAt close) m) :
    (s.membersFrom close i).Pairwise
      (fun a b => a.stop ≤ b.start ∧ ∀ d ∈ b.doc, a.stop ≤ d.start) := by
  fun_induction membersFrom s close i with
  | case1 i hi hempty ih => exact ih (by omega) hends
  | case2 i hi hempty found next hmember ih =>
    have hrest := ih (by omega) (fun m hm => hends m (List.mem_append_right _ hm))
    cases found with
    | none => exact hrest
    | some first =>
      refine List.pairwise_cons.mpr ⟨?_, hrest⟩
      intro m hm
      rcases of_member hs hclose hleft hi hmember with
        ⟨modifiers, index, name, last, hfirst, hlast, hin, heq⟩
      have hfound : (s.memberAt close i modifiers index name last).1 = first := by rw [heq]
      have hnext : s.behindMember close last = next := by rw [← memberAt_snd, heq]
      have hstop : first.stop = s.stopAt (next - 1) := by rw [← hfound, memberAt_stop, hnext]
      have hnot := hends first List.mem_cons_self
      rw [← hfound] at hnot
      have hlt := (memberAt_within hs hclose hbrace hleft hfirst hlast hin hnot).1
      have hplaced := (isPlaced_of_read hs).2
      have hsize := (lt_of_closer? hs hclose).2
      rcases mem_membersFrom hs hclose (by omega) hm with
        ⟨start, _, index', _, last', hstart, hfirst', hlast', hin', rfl⟩
      rw [hstop]
      refine ⟨hplaced.stopAt_le_startAt (by omega) (by omega), ?_⟩
      intro d hd
      exact (of_doc? hs hd).2 (next - 1) (by omega)
  | case3 => exact List.Pairwise.nil

end

/-- The members of a class are nested in it just if none of them runs out. -/
theorem isNested_classDecl_iff [Limits] (hs : Source.read t = .ok s) {keyword : Nat}
    {c : ClassShape} (h : s.classDecl start keyword = .ok (c, next)) :
    c.IsNested ↔ ∀ m ∈ c.members, ¬ s.RunsOut c.bodyClose m := by
  have hplaced := (isPlaced_of_read hs).2
  rcases classDecl_eq_ok hs h with ⟨left, close, -, hclose, hbrace, -, rfl⟩
  have hleft := (lt_of_closer? hs hclose)
  constructor
  · intro hnested m hm hruns
    rcases mem_membersFrom hs hclose (Nat.lt_succ_self left) hm with
      ⟨start', modifiers, first, name, last, hstart, hfirst, hlast, hin, rfl⟩
    rcases (runsOut_memberAt_iff hs hclose hin).mp hruns with ⟨hover, hcolon⟩
    exact not_nested_of_lt_behindName hs hclose hover hcolon
      ⟨(hnested.inside _ hm).2.1, hnested.parts _ hm⟩
  · intro hends
    refine ⟨?inside, membersFrom_ordered hs hclose hbrace (Nat.lt_succ_self left) hends, ?parts⟩
    case inside =>
      intro m hm
      have hnot := hends m hm
      rcases mem_membersFrom hs hclose (Nat.lt_succ_self left) hm with
        ⟨start', modifiers, first, name, last, hstart, hfirst, hlast, hin, rfl⟩
      rcases memberAt_within hs hclose hbrace hstart hfirst hlast hin hnot with ⟨hlt, hle, -⟩
      refine ⟨hplaced.startAt_lt_startAt (by omega) hstart, ?_, ?_⟩
      · rw [memberAt_stop]
        exact hplaced.stopAt_le_startAt (by omega) (by omega)
      · intro d hd
        have hbefore := (of_doc? hs hd).2 left hstart
        have := hplaced.startAt_lt_stopAt (i := left) (by omega) (Nat.le_refl left)
        simp only
        omega
    case parts =>
      intro m hm
      have hnot := hends m hm
      rcases mem_membersFrom hs hclose (Nat.lt_succ_self left) hm with
        ⟨start', modifiers, first, name, last, hstart, hfirst, hlast, hin, rfl⟩
      exact (memberAt_within hs hclose hbrace hstart hfirst hlast hin hnot).2.2

end Source

end WasmPackage.Script
