import WasmPackage.Bindings.OffsetTable
import WasmPackage.Proofs.Bindings.Recording

/-!
# Runs of extensions

An offset table is extended again and again, and some of the calls fail.  What every call keeps is
that names are identifiers, come once, and have positive counts; and that the entries that were
there stay in front, with their counts.  Whether a call fails is told by its entries, so it does not
matter whether entries come in one call or in two.
-/

namespace WasmPackage.OffsetTable

open Bindings (bind_ok_iff foldlM_keeps)

variable {t u w : OffsetTable} {entry : String × Value String} {a b entries : Table String}
  {name : String} {m n count : Nat}

/-! ## Entries -/

/-- The entry is valid: its name is an identifier, and its count a positive integer. -/
def Gives (entry : String × Value String) (count : Nat) : Prop :=
  Text.isIdentifier entry.1.toList = true ∧ 0 < count ∧ entry.2 = .int count

/-- The name is no identifier, or the count no positive integer. -/
def IsInvalid (entry : String × Value String) : Prop :=
  Text.isIdentifier entry.1.toList = false ∨ ∀ count : Nat, 0 < count → entry.2 ≠ .int count

/-- The entry gives another count to a name that the table has. -/
def Contradicts (t : OffsetTable) (entry : String × Value String) : Prop :=
  ∃ count, t.get? entry.1 = some count ∧ entry.2 ≠ .int count

/-- Each name comes once. -/
def HasDistinctNames (entries : Table String) : Prop :=
  (entries.map (·.1)).Nodup

/-- The entries give no name two values. -/
def AreConsistent (entries : Table String) : Prop :=
  ∀ e ∈ entries, ∀ e' ∈ entries, e.1 = e'.1 → e.2 = e'.2

/-- Names that both tables have, have the same values in them. -/
def Agree (a b : Table String) : Prop :=
  ∀ e ∈ a, ∀ e' ∈ b, e.1 = e'.1 → e.2 = e'.2

/-- The entries of one table, and behind them those of another whose names it does not have. -/
def union (a b : Table String) : Table String :=
  a ++ b.filter (fun e => (a.lookup e.1).isNone)

theorem isInvalid_iff : IsInvalid entry ↔ ∀ count, ¬Gives entry count := by
  unfold IsInvalid Gives
  constructor
  · rintro (hname | hcount) count ⟨hname', hpos, hvalue⟩
    · rw [hname] at hname'
      cases hname'
    · exact hcount count hpos hvalue
  · intro h
    by_cases hname : Text.isIdentifier entry.1.toList = true
    · exact Or.inr fun count hpos hvalue => h count ⟨hname, hpos, hvalue⟩
    · exact Or.inl (by simpa using hname)

theorem Gives.unique (h : Gives entry m) (h' : Gives entry n) : m = n := by
  have hvalue := h.2.2.symm.trans h'.2.2
  rwa [Value.int.injEq, Int.natCast_inj] at hvalue

theorem validCount_eq_ok_iff [Limits] {value : Value String} :
    validCount name value = .ok count ↔ Gives (name, value) count := by
  unfold validCount Gives
  by_cases hname : Text.isIdentifier name.toList = true
  · cases value with
    | int i =>
      by_cases hpos : 0 < i
      · have hcount : i.toNat = count ↔ 0 < count ∧ i = count := by omega
        simpa [hname, hpos] using hcount
      · have hcount : ¬(0 < count ∧ i = count) := by omega
        simpa [hname, hpos] using hcount
    | _ => simp [hname]
  · simp [hname]

/-! ## One entry more -/

/-- A valid entry is added behind the others, or is there already. -/
theorem add_eq_ok_iff [Limits] : t.add entry = .ok u ↔ ∃ count, Gives entry count ∧
    (t.get? entry.1 = none ∧ u = ⟨t.entries ++ [(entry.1, count)]⟩ ∨
      t.get? entry.1 = some count ∧ u = t) := by
  unfold add
  rw [bind_ok_iff]
  simp only [validCount_eq_ok_iff]
  apply exists_congr
  intro count
  apply and_congr_right
  intro _
  cases t.get? entry.1 with
  | none => simp [pure, Except.pure, eq_comm]
  | some m =>
    by_cases hm : m = count
    · simp [hm, pure, Except.pure, eq_comm]
    · simp [hm]

/-- An entry that is added gives its name a count, and changes no other. -/
theorem get?_add_iff [Limits] (h : t.add entry = .ok u) : u.get? name = some count ↔
    t.get? name = some count ∨ entry.1 = name ∧ Gives entry count := by
  rcases add_eq_ok_iff.mp h with ⟨n, hgives, ⟨hnone, rfl⟩ | ⟨hsome, rfl⟩⟩
  · have hcount : n = count ↔ Gives entry count :=
      ⟨fun hn => hn ▸ hgives, hgives.unique⟩
    have hlookup : get? ⟨t.entries ++ [(entry.1, n)]⟩ name =
        (t.get? name).or ([(entry.1, n)].lookup name) := List.lookup_append
    rw [hlookup, ← hcount]
    by_cases hname : entry.1 = name
    · subst hname
      simp [hnone]
    · have hother : (name == entry.1) = false := beq_eq_false_iff_ne.mpr (Ne.symm hname)
      simp [List.lookup_cons, hother, hname]
  · constructor
    · exact Or.inl
    · rintro (hname | ⟨rfl, hgives'⟩)
      · exact hname
      · rwa [hgives'.unique hgives]

/-- What stops an entry from being added: it is invalid, or contradicts the table. -/
theorem add_isOk_iff [Limits] :
    (∃ u, t.add entry = .ok u) ↔ ¬IsInvalid entry ∧ ¬t.Contradicts entry := by
  simp only [add_eq_ok_iff, isInvalid_iff, Contradicts]
  push Not
  constructor
  · rintro ⟨u, count, hgives, hname⟩
    refine ⟨⟨count, hgives⟩, ?_⟩
    rintro m hm
    rcases hname with ⟨hnone, -⟩ | ⟨hsome, -⟩
    · cases hnone.symm.trans hm
    · cases hsome.symm.trans hm
      exact hgives.2.2
  · rintro ⟨⟨count, hgives⟩, hsame⟩
    cases hname : t.get? entry.1 with
    | none => exact ⟨_, count, hgives, Or.inl ⟨rfl, rfl⟩⟩
    | some m =>
      have hm : m = count := by
        have hvalue := (hsame m hname).symm.trans hgives.2.2
        rwa [Value.int.injEq, Int.natCast_inj] at hvalue
      exact ⟨t, count, hgives, Or.inr ⟨by rw [hm], rfl⟩⟩

/-- An entry that the table has is added without any change. -/
theorem add_eq_self [Limits] (hgives : Gives entry count) (hname : t.get? entry.1 = some count) :
    t.add entry = .ok t :=
  add_eq_ok_iff.mpr ⟨count, hgives, Or.inr ⟨hname, rfl⟩⟩

/-! ## More entries -/

@[simp] theorem extend_nil [Limits] (t : OffsetTable) : t.extend [] = .ok t := rfl

theorem extend_cons [Limits] (t : OffsetTable) (entry : String × Value String)
    (entries : Table String) :
    t.extend (entry :: entries) = t.add entry >>= fun u => u.extend entries :=
  List.foldlM_cons

theorem extend_append [Limits] (t : OffsetTable) (a b : Table String) :
    t.extend (a ++ b) = t.extend a >>= fun u => u.extend b :=
  List.foldlM_append

theorem get?_extend_iff [Limits] (h : t.extend entries = .ok u) : u.get? name = some count ↔
    t.get? name = some count ∨ ∃ entry ∈ entries, entry.1 = name ∧ Gives entry count := by
  induction entries generalizing t with
  | nil =>
    cases h
    simp
  | cons entry entries ih =>
    rw [extend_cons] at h
    rcases bind_ok_iff.mp h with ⟨w, hadd, hrest⟩
    rw [ih hrest, get?_add_iff hadd, or_assoc, List.exists_mem_cons_iff]

/-- Once an entry is added, another one contradicts the table if it did before, or if it has the
same name and another value. -/
theorem contradicts_add_iff [Limits] {entry' : String × Value String} (h : t.add entry = .ok u) :
    u.Contradicts entry' ↔ t.Contradicts entry' ∨ entry.1 = entry'.1 ∧ entry.2 ≠ entry'.2 := by
  obtain ⟨n, hgives, -⟩ := add_eq_ok_iff.mp h
  unfold Contradicts
  constructor
  · rintro ⟨count, hcount, hvalue⟩
    rcases (get?_add_iff h).mp hcount with hbefore | ⟨hname, hgives'⟩
    · exact Or.inl ⟨count, hbefore, hvalue⟩
    · exact Or.inr ⟨hname, fun hsame => hvalue (hsame.symm.trans hgives'.2.2)⟩
  · rintro (⟨count, hcount, hvalue⟩ | ⟨hname, hvalue⟩)
    · exact ⟨count, (get?_add_iff h).mpr (Or.inl hcount), hvalue⟩
    · exact ⟨n, (get?_add_iff h).mpr (Or.inr ⟨hname, hgives⟩),
        fun hsame => hvalue (hgives.2.2.trans hsame.symm)⟩

theorem areConsistent_cons_iff : AreConsistent (entry :: entries) ↔
    (∀ e ∈ entries, entry.1 = e.1 → entry.2 = e.2) ∧ AreConsistent entries := by
  constructor
  · intro h
    exact ⟨fun e he => h entry List.mem_cons_self e (List.mem_cons_of_mem _ he),
      fun e he e' he' => h e (List.mem_cons_of_mem _ he) e' (List.mem_cons_of_mem _ he')⟩
  · rintro ⟨hsame, hrest⟩ e he e' he' hname
    rcases List.mem_cons.mp he with rfl | hin
    · rcases List.mem_cons.mp he' with rfl | hin'
      · rfl
      · exact hsame e' hin' hname
    · rcases List.mem_cons.mp he' with rfl | hin'
      · exact (hsame e hin hname.symm).symm
      · exact hrest e hin e' hin' hname

theorem extend_cons_isOk_iff [Limits] : (∃ u, t.extend (entry :: entries) = .ok u) ↔
    ∃ w, t.add entry = .ok w ∧ ∃ u, w.extend entries = .ok u := by
  simp only [extend_cons, bind_ok_iff]
  constructor
  · rintro ⟨u, w, hadd, hrest⟩
    exact ⟨w, hadd, u, hrest⟩
  · rintro ⟨w, hadd, u, hrest⟩
    exact ⟨u, w, hadd, hrest⟩

/-- What stops a table from being extended: an entry that is invalid or contradicts the table, or
two entries that contradict each other. -/
theorem extend_isOk_iff [Limits] : (∃ u, t.extend entries = .ok u) ↔
    (∀ entry ∈ entries, ¬IsInvalid entry ∧ ¬t.Contradicts entry) ∧ AreConsistent entries := by
  -- the table grows on the way, so the induction is for every table
  induction entries generalizing t with
  | nil => simp [AreConsistent]
  | cons entry entries ih =>
    rw [extend_cons_isOk_iff, areConsistent_cons_iff]
    constructor
    · rintro ⟨w, hadd, hrest⟩
      obtain ⟨hvalid, hconsistent⟩ := ih.mp hrest
      refine ⟨List.forall_mem_cons.mpr ⟨add_isOk_iff.mp ⟨w, hadd⟩, fun e he => ?_⟩, ?_, hconsistent⟩
      · refine ⟨(hvalid e he).1, fun hbefore => (hvalid e he).2 ?_⟩
        exact (contradicts_add_iff hadd).mpr (Or.inl hbefore)
      · -- another value for the name just added would contradict the table from then on
        intro e he hname
        by_contra hvalue
        exact (hvalid e he).2 ((contradicts_add_iff hadd).mpr (Or.inr ⟨hname, hvalue⟩))
    · rintro ⟨hvalid, hsame, hconsistent⟩
      obtain ⟨w, hadd⟩ := add_isOk_iff.mpr (hvalid entry List.mem_cons_self)
      refine ⟨w, hadd, ih.mpr ⟨fun e he => ?_, hconsistent⟩⟩
      have hmem := List.mem_cons_of_mem entry he
      refine ⟨(hvalid e hmem).1, fun hcontradicts => ?_⟩
      rcases (contradicts_add_iff hadd).mp hcontradicts with hbefore | ⟨hname, hvalue⟩
      · exact (hvalid e hmem).2 hbefore
      · exact hvalue (hsame e he hname)

theorem HasDistinctNames.areConsistent (h : HasDistinctNames entries) : AreConsistent entries := by
  intro e he e' he' hname
  rw [List.inj_on_of_nodup_map h he he' hname]

/-- A call whose names are distinct fails exactly if one of its entries is invalid or gives another
count to a name of the table. -/
theorem extend_isError_iff [Limits] (hnames : HasDistinctNames entries) :
    (∃ e, t.extend entries = .error e) ↔
      ∃ entry ∈ entries, IsInvalid entry ∨ t.Contradicts entry := by
  have hfails : (∃ e, t.extend entries = .error e) ↔ ¬∃ u, t.extend entries = .ok u := by
    cases t.extend entries <;> simp
  rw [hfails, extend_isOk_iff]
  simp only [hnames.areConsistent, and_true]
  push Not
  simp only [imp_iff_not_or, not_not]

/-! ## What refusals tell -/

/-- None of the entries is refused by the table. -/
def Accepts (t : OffsetTable) (entries : Table String) : Prop :=
  (∀ entry ∈ entries, ¬IsInvalid entry ∧ ¬t.Contradicts entry) ∧ AreConsistent entries

/-- The name has this count in the table or among the entries. -/
def Counts (t : OffsetTable) (entries : Table String) (name : String) (count : Nat) : Prop :=
  t.get? name = some count ∨ ∃ entry ∈ entries, entry.1 = name ∧ Gives entry count

/-- An entry behind others is refused with a word about this value: what it gives instead of a
count, or one of the two counts that its name would have. -/
inductive IsTold (t : OffsetTable) (front : Table String) (entry : String × Value String) :
    Value String → Prop
  | invalid : Text.isIdentifier entry.1.toList = true →
    (∀ count : Nat, 0 < count → entry.2 ≠ .int count) → IsTold t front entry entry.2
  | given {m n : Nat} : Gives entry n → t.Counts front entry.1 m → m ≠ n →
    IsTold t front entry (.int n)
  | known {m n : Nat} : Gives entry n → t.Counts front entry.1 m → m ≠ n →
    IsTold t front entry (.int m)

theorem counts_nil_iff : t.Counts [] name count ↔ t.get? name = some count := by
  simp [Counts]

theorem IsTold.of_counts {front front' : Table String} {v : Value String}
    (h : t.IsTold front entry v)
    (hcounts : ∀ count, t.Counts front entry.1 count → u.Counts front' entry.1 count) :
    u.IsTold front' entry v := by
  cases h with
  | invalid hname hcount => exact .invalid hname hcount
  | given hgives hknown hne => exact .given hgives (hcounts _ hknown) hne
  | known hgives hknown hne => exact .known hgives (hcounts _ hknown) hne

/-- Entries that were added count as ones of the table. -/
theorem isTold_of_extend [Limits] {front : Table String} {v : Value String}
    (h : t.extend front = .ok u) : u.IsTold [] entry v ↔ t.IsTold front entry v := by
  have hcounts (m : Nat) : u.Counts [] entry.1 m ↔ t.Counts front entry.1 m :=
    counts_nil_iff.trans (get?_extend_iff h)
  exact ⟨fun htold => htold.of_counts fun m => (hcounts m).mp,
    fun htold => htold.of_counts fun m => (hcounts m).mpr⟩

theorem validCount_eq_unwritable_iff [Limits] {v : Value String} {e : WritingError} :
    validCount name v = .error (.unwritable e) ↔ Text.isIdentifier name.toList = true ∧
      (∀ count : Nat, 0 < count → v ≠ .int count) ∧ v.fault? = some e := by
  have hrefused : refusedCount name v = .unwritable e ↔ v.fault? = some e := by
    unfold refusedCount
    cases v.fault? <;> simp
  unfold validCount
  by_cases hname : Text.isIdentifier name.toList = true
  · cases v with
    | int i =>
      by_cases hpos : 0 < i
      · refine iff_of_false (by simp [hname, hpos]) ?_
        rintro ⟨-, hinvalid, -⟩
        exact hinvalid i.toNat (by omega) (by rw [Int.toNat_of_nonneg hpos.le])
      · have hcount (count : Nat) (h : 0 < count) : (Value.int i : Value String) ≠ .int count := by
          rintro ⟨⟩
          omega
        simpa [hname, hpos, hrefused] using fun _ => hcount
    | _ => simp [hname, hrefused]
  · simp [hname]

theorem refusedChange_eq_unwritable_iff [Limits] : (∃ e, refusedChange name m n = .unwritable e) ↔
    (Value.int m : Value String).fault? ≠ none ∨ (Value.int n : Value String).fault? ≠ none := by
  unfold refusedChange
  by_cases hm : Decimal.isWritable m = true <;> by_cases hn : Decimal.isWritable n = true <;>
    simp [Value.fault?, Value.writingFault?, hm, hn]

/-- An entry is refused for what it gives, or because its name has another count already. -/
theorem add_eq_error_iff [Limits] {e : OffsetError} : t.add entry = .error e ↔
    validCount entry.1 entry.2 = .error e ∨
      ∃ m n, Gives entry n ∧ t.get? entry.1 = some m ∧ m ≠ n ∧ refusedChange entry.1 m n = e := by
  unfold add
  cases hcount : validCount entry.1 entry.2 with
  | error e' =>
    have hinvalid (n : Nat) : ¬Gives entry n := by
      intro hgives
      cases hcount.symm.trans (validCount_eq_ok_iff.mpr hgives)
    simp [bind, Except.bind, hinvalid]
  | ok n =>
    have hgives : Gives entry n := validCount_eq_ok_iff.mp hcount
    have hunique (m : Nat) : Gives entry m ↔ m = n :=
      ⟨fun h => h.unique hgives, fun h => h ▸ hgives⟩
    cases hknown : t.get? entry.1 with
    | none => simp [bind, Except.bind, pure, Except.pure]
    | some m =>
      by_cases hne : m = n
      · simp [bind, Except.bind, pure, Except.pure, hunique, hne]
      · simp [bind, Except.bind, throw, throwThe, MonadExceptOf.throw, hunique, hne]

/-- An entry is refused without a word exactly if what the word is about cannot be written. -/
theorem add_eq_unwritable_iff [Limits] : (∃ e, t.add entry = .error (.unwritable e)) ↔
    ∃ v, t.IsTold [] entry v ∧ v.fault? ≠ none := by
  simp only [add_eq_error_iff]
  constructor
  · rintro ⟨e, hvalue | ⟨m, n, hgives, hknown, hne, hchange⟩⟩
    · obtain ⟨hname, hinvalid, hfault⟩ := validCount_eq_unwritable_iff.mp hvalue
      exact ⟨entry.2, .invalid hname hinvalid, by simp [hfault]⟩
    · have hcount := counts_nil_iff.mpr hknown
      rcases refusedChange_eq_unwritable_iff.mp ⟨e, hchange⟩ with hfault | hfault
      · exact ⟨_, .known hgives hcount hne, hfault⟩
      · exact ⟨_, .given hgives hcount hne, hfault⟩
  · rintro ⟨v, htold, hfault⟩
    cases htold with
    | invalid hname hinvalid =>
      obtain ⟨e, hfault⟩ := Option.ne_none_iff_exists'.mp hfault
      exact ⟨e, .inl (validCount_eq_unwritable_iff.mpr ⟨hname, hinvalid, hfault⟩)⟩
    | given hgives hcount hne =>
      obtain ⟨e, hchange⟩ := refusedChange_eq_unwritable_iff.mpr (.inr hfault)
      exact ⟨e, .inr ⟨_, _, hgives, counts_nil_iff.mp hcount, hne, hchange⟩⟩
    | known hgives hcount hne =>
      obtain ⟨e, hchange⟩ := refusedChange_eq_unwritable_iff.mpr (.inl hfault)
      exact ⟨e, .inr ⟨_, _, hgives, counts_nil_iff.mp hcount, hne, hchange⟩⟩

/-- The table is not extended because of the first entry that is refused. -/
theorem extend_eq_error_iff [Limits] {e : OffsetError} : t.extend entries = .error e ↔
    ∃ front entry rest u, entries = front ++ entry :: rest ∧ t.extend front = .ok u ∧
      u.add entry = .error e := by
  constructor
  · intro h
    induction entries generalizing t with
    | nil => cases h
    | cons first entries ih =>
      rw [extend_cons] at h
      cases hadd : t.add first with
      | error e' =>
        rw [hadd] at h
        cases h
        exact ⟨[], first, entries, t, rfl, rfl, hadd⟩
      | ok w =>
        rw [hadd] at h
        obtain ⟨front, entry, rest, u, rfl, hfront, hentry⟩ := ih h
        refine ⟨first :: front, entry, rest, u, rfl, ?_, hentry⟩
        rw [extend_cons, hadd]
        exact hfront
  · rintro ⟨front, entry, rest, u, rfl, hfront, hadd⟩
    rw [extend_append, hfront]
    show u.extend (entry :: rest) = .error e
    rw [extend_cons, hadd]
    rfl

/-- A table refuses entries without a word exactly if a value that the first refusal is about cannot
be written. -/
theorem extend_eq_unwritable_iff [Limits] : (∃ e, t.extend entries = .error (.unwritable e)) ↔
    ∃ front entry rest v, entries = front ++ entry :: rest ∧ t.Accepts front ∧
      t.IsTold front entry v ∧ v.fault? ≠ none := by
  simp only [extend_eq_error_iff]
  constructor
  · rintro ⟨e, front, entry, rest, u, rfl, hfront, hadd⟩
    obtain ⟨v, htold, hfault⟩ := add_eq_unwritable_iff.mp ⟨e, hadd⟩
    exact ⟨front, entry, rest, v, rfl, extend_isOk_iff.mp ⟨u, hfront⟩,
      (isTold_of_extend hfront).mp htold, hfault⟩
  · rintro ⟨front, entry, rest, v, rfl, haccepts, htold, hfault⟩
    obtain ⟨u, hfront⟩ := extend_isOk_iff.mpr haccepts
    obtain ⟨e, hadd⟩ := add_eq_unwritable_iff.mpr ⟨v, (isTold_of_extend hfront).mpr htold, hfault⟩
    exact ⟨e, front, entry, rest, u, rfl, hfront, hadd⟩

/-! ## What every call keeps -/

/-- The table has all that another one had, in the same order and in front of all else. -/
structure Continues (u t : OffsetTable) : Prop where
  order : t.entries <+: u.entries
  counts : ∀ name count, t.get? name = some count → u.get? name = some count

theorem continues_of_append (more : List (String × Nat)) :
    Continues ⟨t.entries ++ more⟩ t where
  order := List.prefix_append _ _
  counts name count h := by
    have hlookup : get? ⟨t.entries ++ more⟩ name = (t.get? name).or (more.lookup name) :=
      List.lookup_append
    rw [hlookup, h, Option.some_or]

theorem Continues.refl (t : OffsetTable) : Continues t t :=
  ⟨List.prefix_rfl, fun _ _ h => h⟩

theorem Continues.trans (h : Continues w u) (h' : Continues u t) : Continues w t :=
  ⟨h'.order.trans h.order, fun name count hname => h.counts name count (h'.counts name count hname)⟩

/-- Names are identifiers and come once, and counts are positive. -/
structure IsValid (t : OffsetTable) : Prop where
  names : ∀ entry ∈ t.entries, Text.isIdentifier entry.1.toList = true
  counts : ∀ entry ∈ t.entries, 0 < entry.2
  distinct : t.names.Nodup

theorem isValid_standard : IsValid standard := by
  constructor
  · decide +kernel
  · decide
  · decide

theorem get?_eq_none_iff : t.get? name = none ↔ name ∉ t.names := by
  unfold get? names
  rw [List.lookup_eq_none_iff, List.mem_map]
  constructor
  · rintro h ⟨e, he, rfl⟩
    exact bne_iff_ne.mp (h e he) rfl
  · intro h e he
    exact bne_iff_ne.mpr fun hname => h ⟨e, he, hname.symm⟩

theorem continues_add [Limits] (h : t.add entry = .ok u) : Continues u t := by
  rcases add_eq_ok_iff.mp h with ⟨n, -, ⟨-, rfl⟩ | ⟨-, rfl⟩⟩
  · exact continues_of_append _
  · exact Continues.refl _

theorem IsValid.add [Limits] (hvalid : IsValid t) (h : t.add entry = .ok u) : IsValid u := by
  rcases add_eq_ok_iff.mp h with ⟨n, hgives, ⟨hnone, rfl⟩ | ⟨-, rfl⟩⟩
  · constructor
    · exact List.forall_mem_append.mpr ⟨hvalid.names, List.forall_mem_singleton.mpr hgives.1⟩
    · exact List.forall_mem_append.mpr ⟨hvalid.counts, List.forall_mem_singleton.mpr hgives.2.1⟩
    · -- a name that has no count is not among those of the table
      have hnew := get?_eq_none_iff.mp hnone
      rw [OffsetTable.names, List.map_append, List.map_singleton, ← List.concat_eq_append]
      exact hvalid.distinct.concat hnew
  · exact hvalid

theorem continues_extend [Limits] (h : t.extend entries = .ok u) : Continues u t :=
  foldlM_keeps (P := fun u => Continues u t)
    (fun _ _ _ hcontinues hadd => (continues_add hadd).trans hcontinues) (Continues.refl t) h

theorem IsValid.extend [Limits] (hvalid : IsValid t) (h : t.extend entries = .ok u) : IsValid u :=
  foldlM_keeps (fun _ _ _ hvalid hadd => hvalid.add hadd) hvalid h

/-! ## Two calls and one -/

/-- Entries that the table has already make no difference. -/
theorem extend_filter [Limits] {p : String × Value String → Bool}
    (hknown : ∀ e ∈ b, p e = false → ∃ count, Gives e count ∧ t.get? e.1 = some count) :
    t.extend (b.filter p) = t.extend b := by
  induction b generalizing t with
  | nil => rfl
  | cons e b ih =>
    have hrest := fun e' he' => hknown e' (List.mem_cons_of_mem _ he')
    cases hp : p e with
    | true =>
      rw [List.filter_cons_of_pos hp, extend_cons, extend_cons]
      cases hadd : t.add e with
      | error _ => rfl
      | ok w =>
        apply ih
        intro e' he' hp'
        obtain ⟨count, hgives, hname⟩ := hrest e' he' hp'
        exact ⟨count, hgives, (continues_add hadd).counts _ _ hname⟩
    | false =>
      obtain ⟨count, hgives, hname⟩ := hknown e List.mem_cons_self hp
      rw [List.filter_cons_of_neg (by simp [hp]), extend_cons, add_eq_self hgives hname]
      exact ih hrest

/-- Two calls that agree are one call with what either of them has; even the failure is the same. -/
theorem extend_union [Limits] (h : Agree a b) :
    t.extend (union a b) = t.extend a >>= fun u => u.extend b := by
  rw [union, extend_append]
  cases ha : t.extend a with
  | error _ => rfl
  | ok w =>
    apply extend_filter
    intro e he hlookup
    -- a name that comes again has the value that was added with the first call
    obtain ⟨v, hmem⟩ : ∃ v, (e.1, v) ∈ a := by simpa using hlookup
    have hsame : v = e.2 := h (e.1, v) hmem e he rfl
    subst hsame
    have hvalid := ((extend_isOk_iff.mp ⟨w, ha⟩).1 _ hmem).1
    rw [isInvalid_iff] at hvalid
    push Not at hvalid
    obtain ⟨count, hgives⟩ := hvalid
    exact ⟨count, hgives, (get?_extend_iff ha).mpr (Or.inr ⟨_, hmem, rfl, hgives⟩)⟩

theorem mem_entries_iff (h : t.names.Nodup) :
    (name, count) ∈ t.entries ↔ t.get? name = some count := by
  rw [get?, List.lookup_eq_some_iff]
  constructor
  · intro hmem
    obtain ⟨pre, post, hentries⟩ := List.append_of_mem hmem
    rw [names, hentries, List.map_append, List.map_cons, List.nodup_middle, List.nodup_cons] at h
    refine ⟨pre, post, hentries, fun e he => bne_iff_ne.mpr fun hname => h.1 ?_⟩
    exact List.mem_append_left _ (List.mem_map.mpr ⟨e, he, hname.symm⟩)
  · rintro ⟨pre, post, hentries, -⟩
    rw [hentries]
    exact List.mem_append_right _ List.mem_cons_self

/-- Tables with distinct names that give every name the same count hold the same entries. -/
theorem sameEntries_of_get? (ht : t.names.Nodup) (hu : u.names.Nodup)
    (h : ∀ name, t.get? name = u.get? name) : t.sameEntries u = true := by
  have hperm : t.entries.Perm u.entries := by
    rw [List.perm_ext_iff_of_nodup ht.of_map hu.of_map]
    rintro ⟨name, count⟩
    rw [mem_entries_iff ht, mem_entries_iff hu, h]
  rw [sameEntries, Bool.and_eq_true, decide_eq_true_eq, List.all_eq_true]
  refine ⟨hperm.length_eq, ?_⟩
  rintro ⟨name, count⟩ hentry
  rw [decide_eq_true_eq]
  exact (mem_entries_iff hu).mp (hperm.mem_iff.mp hentry)

/-- Two calls succeed exactly if one call with the entries of both does, in whatever order it has
them, and then they add the same. -/
theorem extend_of_mem_iff [Limits] {c : Table String} (ht : IsValid t)
    (hmem : ∀ e, e ∈ c ↔ e ∈ a ∨ e ∈ b) :
    ((∃ u, (t.extend a >>= fun w => w.extend b) = .ok u) ↔ ∃ u, t.extend c = .ok u) ∧
      ∀ u u', (t.extend a >>= fun w => w.extend b) = .ok u → t.extend c = .ok u' →
        u.sameEntries u' = true := by
  rw [← extend_append]
  constructor
  · simp only [extend_isOk_iff, AreConsistent, List.mem_append, hmem]
  · intro u u' h h'
    apply sameEntries_of_get? (ht.extend h).distinct (ht.extend h').distinct
    intro name
    apply Option.ext
    intro count
    simp only [get?_extend_iff h, get?_extend_iff h', List.mem_append, hmem]

/-! ## Runs -/

/-- The table after a call: the extended one, or the same if the call fails. -/
def afterExtension [Limits] (t : OffsetTable) (entries : Table String) : OffsetTable :=
  match t.extend entries with
  | .ok u => u
  | .error _ => t

/-- The table after a run of calls. -/
def afterExtensions [Limits] (t : OffsetTable) (calls : List (Table String)) : OffsetTable :=
  calls.foldl afterExtension t

theorem continues_afterExtension [Limits] (t : OffsetTable) (entries : Table String) :
    Continues (t.afterExtension entries) t := by
  unfold afterExtension
  split
  case h_1 u h => exact continues_extend h
  case h_2 => exact Continues.refl t

theorem IsValid.afterExtension [Limits] (hvalid : IsValid t) (entries : Table String) :
    IsValid (t.afterExtension entries) := by
  unfold OffsetTable.afterExtension
  split
  case h_1 u h => exact hvalid.extend h
  case h_2 => exact hvalid

theorem continues_afterExtensions [Limits] (t : OffsetTable) (calls : List (Table String)) :
    Continues (t.afterExtensions calls) t := by
  induction calls generalizing t with
  | nil => exact Continues.refl t
  | cons entries calls ih => exact (ih _).trans (continues_afterExtension t entries)

theorem IsValid.afterExtensions [Limits] (hvalid : IsValid t) (calls : List (Table String)) :
    IsValid (t.afterExtensions calls) := by
  induction calls generalizing t with
  | nil => exact hvalid
  | cons entries calls ih => exact ih (hvalid.afterExtension entries)

/-- What is to be said of the next calls: which of them fail, and that two of them are as good as
one with the entries of both. -/
structure AnswersExtensions [Limits] (t : OffsetTable) : Prop where
  fails : ∀ call, HasDistinctNames call → ((∃ e, t.extend call = .error e) ↔
    ∃ entry ∈ call, IsInvalid entry ∨ t.Contradicts entry)
  union : ∀ a b, Agree a b → t.extend (union a b) = t.extend a >>= fun u => u.extend b
  anyUnion : ∀ a b c, (∀ e, e ∈ c ↔ e ∈ a ∨ e ∈ b) →
    ((∃ u, (t.extend a >>= fun w => w.extend b) = .ok u) ↔ ∃ u, t.extend c = .ok u) ∧
      ∀ u u', (t.extend a >>= fun w => w.extend b) = .ok u → t.extend c = .ok u' →
        u.sameEntries u' = true

/-- Offset tables only grow: after any run of calls from the standard table the names are
identifiers, come once and have positive counts; all that was there after any part of the run, and
the standard value types before all else, is still there in its order and with its counts; and the
next calls fail or succeed as their entries demand. -/
theorem afterExtensions_grows [Limits] (calls : List (Table String)) (n : Nat) :
    IsValid (standard.afterExtensions calls) ∧
      Continues (standard.afterExtensions calls) standard ∧
      Continues (standard.afterExtensions calls) (standard.afterExtensions (calls.take n)) ∧
      AnswersExtensions (standard.afterExtensions calls) := by
  have hvalid : IsValid (standard.afterExtensions calls) := isValid_standard.afterExtensions calls
  refine ⟨hvalid, continues_afterExtensions standard calls, ?_, ?_⟩
  · have hcalls :=
      continues_afterExtensions (standard.afterExtensions (calls.take n)) (calls.drop n)
    unfold afterExtensions at hcalls ⊢
    rwa [← List.foldl_append, List.take_append_drop] at hcalls
  · exact
      { fails := fun call hnames => extend_isError_iff hnames
        union := fun a b h => extend_union h
        anyUnion := fun a b c hmem => extend_of_mem_iff hvalid hmem }

/-- A run of four calls, two of which fail. -/
def vectorCalls : List (Table String) :=
  [[("Vector5", .int 5)], [("Vector6", .int 6), ("Vector5", .int 4)], [("Vector7", .bool true)],
    [("Vector8", .int 8), ("Vector5", .int 5)]]

theorem afterExtensions_grows_vectorCalls :
    standard.afterExtensions vectorCalls =
        ⟨standard.entries ++ [("Vector5", 5), ("Vector8", 8)]⟩ ∧
      Continues (standard.afterExtensions vectorCalls) standard ∧
      (∃ e, (standard.afterExtensions vectorCalls).extend
        [("Vector9", .int 9), ("Vector8", .int 9)] = .error e) ∧
      (standard.afterExtensions vectorCalls).extend [("Vector9", .int 9), ("Vector3", .int 3)] =
        (standard.afterExtensions vectorCalls).extend [("Vector9", .int 9)] >>= fun u =>
          u.extend [("Vector3", .int 3), ("Vector9", .int 9)] := by
  have htable : standard.afterExtensions vectorCalls =
      ⟨standard.entries ++ [("Vector5", 5), ("Vector8", 8)]⟩ := by decide +kernel
  obtain ⟨-, hstandard, -, hanswers⟩ := afterExtensions_grows vectorCalls 2
  refine ⟨htable, hstandard, ?_, ?_⟩
  · have hnames : HasDistinctNames [("Vector9", .int 9), ("Vector8", .int 9)] := by
      unfold HasDistinctNames
      decide
    have height : (standard.afterExtensions vectorCalls).get? "Vector8" = some 8 := by
      rw [htable]
      decide +kernel
    apply (hanswers.fails _ hnames).mpr
    exact ⟨("Vector8", .int 9), by simp, Or.inr ⟨8, height, by simp⟩⟩
  · have hagree : Agree [("Vector9", .int 9)] [("Vector3", .int 3), ("Vector9", .int 9)] := by
      simp [Agree]
    exact hanswers.union _ _ hagree

end WasmPackage.OffsetTable
