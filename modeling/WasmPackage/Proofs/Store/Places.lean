import WasmPackage.Proofs.Store.Names
import WasmPackage.Proofs.Store.Tree

/-!
# Places for files

A path names a place if all of it but its last name leads to a directory, and the last name is
plain.  What is done at a place depends on what stands there only, and on whether the path and the
name are short enough.
-/

namespace WasmPackage

/-- Where a path starts, as seen from a working directory. -/
def Path.start (directory : Location) (p : Path) : Location :=
  if p.isAbsolute then [] else directory

/-- Is the path, or its last name, longer than a file's may be? -/
def Path.isTooLong (p : Path) : Bool :=
  Path.mostBytes < p.text.utf8ByteSize || Store.longestName < p.name.utf8ByteSize

namespace Store

open WasmPackage.Path (IsPlain)

variable {s t : Store} {directory parent l : Location} {p q : Path}

/-- The path names a place in the directory at `parent`. -/
structure IsPlace (s : Store) (directory : Location) (p : Path) (parent : Location) : Prop where
  plain : IsPlain p.name
  noZero : p.hasZero = false
  leads : s.walk (p.start directory) p.parts.toList.dropLast = .ok parent
  isDirectory : s.isDirectory parent = true

theorem parts_eq_of_isPlain (hplain : IsPlain p.name) :
    p.parts.toList = p.parts.toList.dropLast ++ [p.name] := by
  by_cases hparts : p.parts.toList = []
  · simp [IsPlain, Path.name, hparts] at hplain
  · have hname : p.name = p.parts.toList.getLast hparts := by
      simp [Path.name, List.getLast?_eq_some_getLast hparts]
    rw [hname, List.dropLast_concat_getLast]

theorem locate_eq (s : Store) (directory : Location) (hzero : p.hasZero = false) :
    s.locate directory p =
      if Path.mostBytes < p.text.utf8ByteSize then .error .nameTooLong
      else s.walk (p.start directory) p.parts.toList := by
  unfold locate base Path.start
  simp only [hzero, Bool.false_eq_true, if_false]
  split <;> rfl

/-- One step of a walk, along a plain name. -/
theorem walk_plain {n : String} (hdir : s.isDirectory l = true) (hn : IsPlain n) :
    s.walk l [n] =
      if longestName < n.utf8ByteSize then .error .nameTooLong else .ok (l ++ [n]) := by
  rw [isDirectory_iff] at hdir
  simp [walk, hdir, hn.2.1, hn.2.2.1]

/-- A step can be made from a directory only. -/
theorem isDirectory_of_walk {n : String} {k : Location} (h : s.walk l [n] = .ok k) :
    s.isDirectory l = true := by
  simp only [walk] at h
  rw [isDirectory_iff]
  cases hentry : s.entry? l with
  | none => simp [hentry] at h
  | some e =>
    cases e with
    | file content executable => simp [hentry] at h
    | directory => rfl

theorem IsPlace.locate (h : s.IsPlace directory p parent) :
    s.locate directory p =
      if p.isTooLong then .error .nameTooLong else .ok (parent ++ [p.name]) := by
  have hstep := walk_plain h.isDirectory h.plain
  rw [locate_eq s directory h.noZero, parts_eq_of_isPlain h.plain, walk_append, h.leads]
  unfold Path.isTooLong
  by_cases hlong : Path.mostBytes < p.text.utf8ByteSize
  · simp [hlong]
  · simp only [Except.bind, hstep, hlong, if_false, decide_false, Bool.false_or, decide_eq_true_iff]

theorem IsPlace.mono (h : s.IsPlace directory p parent)
    (hdirs : ∀ m, s.isDirectory m = true → t.isDirectory m = true) :
    t.IsPlace directory p parent :=
  ⟨h.plain, h.noZero, walk_mono hdirs h.leads, hdirs _ h.isDirectory⟩

/-- Other names in the directory of a place are places, too. -/
theorem IsPlace.sibling (h : s.IsPlace directory p parent) (hslashes : q.slashes = p.slashes)
    (hbefore : q.parts.toList.dropLast = p.parts.toList.dropLast) (hplain : IsPlain q.name)
    (hzero : q.hasZero = false) : s.IsPlace directory q parent := by
  refine ⟨hplain, hzero, ?_, h.isDirectory⟩
  have hstart : q.start directory = p.start directory := by
    simp [Path.start, Path.isAbsolute, hslashes]
  rw [hstart, hbefore]
  exact h.leads

theorem hasZero_eq_false_iff : p.hasZero = false ↔ ∀ n ∈ p.parts.toList, '\x00' ∉ n.toList := by
  simp [Path.hasZero]

theorem hasZero_eq_false_of_locate (h : s.locate directory p = .ok l) : p.hasZero = false := by
  by_contra hzero
  rw [Bool.not_eq_false] at hzero
  simp [Store.locate, base, hzero, bind, Except.bind] at h

theorem locate_mono (h : s.locate directory p = .ok l)
    (hdirs : ∀ m, s.isDirectory m = true → t.isDirectory m = true) :
    t.locate directory p = .ok l := by
  have hzero := hasZero_eq_false_of_locate h
  rw [locate_eq _ directory hzero] at h ⊢
  split
  · rwa [if_pos ‹_›] at h
  · rw [if_neg ‹_›] at h
    exact walk_mono hdirs h

theorem IsPlace.zero_notMem (h : s.IsPlace directory p parent) : '\x00' ∉ p.name.toList := by
  apply hasZero_eq_false_iff.mp h.noZero
  rw [parts_eq_of_isPlain h.plain]
  simp

/-- A path that is found names a place if its last name is plain. -/
theorem exists_isPlace_of_locate (hplain : IsPlain p.name) (h : s.locate directory p = .ok l) :
    ∃ parent, s.IsPlace directory p parent := by
  have hzero := hasZero_eq_false_of_locate h
  rw [locate_eq s directory hzero] at h
  split at h
  · cases h
  · rw [parts_eq_of_isPlain hplain, walk_append] at h
    cases hleads : s.walk (p.start directory) p.parts.toList.dropLast with
    | error e =>
      rw [hleads] at h
      cases h
    | ok parent =>
      rw [hleads] at h
      refine ⟨parent, hplain, hzero, hleads, ?_⟩
      exact isDirectory_of_walk h

/-- Plain names in a directory that is found are places. -/
theorem isPlace_child {n : String} (hlocate : s.locate directory p = .ok l)
    (hdir : s.isDirectory l = true) (hn : IsPlain n) (hzero : '\x00' ∉ n.toList) :
    s.IsPlace directory (p.child n) l := by
  have hparent := hasZero_eq_false_of_locate hlocate
  have hname := Path.name_child p hn
  refine ⟨by rwa [hname], ?_, ?_, hdir⟩
  · rw [hasZero_eq_false_iff] at hparent ⊢
    intro m hm
    rw [Path.parts_child_of_isPlain p hn, List.mem_append, List.mem_singleton] at hm
    rcases hm with hm | rfl
    · exact hparent m hm
    · exact hzero
  · rw [locate_eq s directory hparent] at hlocate
    split at hlocate
    · cases hlocate
    · simpa [Path.slashes_child_of_isPlain p hn, Path.parts_child_of_isPlain p hn, Path.start,
        Path.isAbsolute] using hlocate

/-! ## Operations at a place -/

/-- A file that is written where nothing stands is not executable. -/
theorem IsPlace.write (h : s.IsPlace directory p parent)
    (hfree : s.entry? (parent ++ [p.name]) = none) (content : Bytes) :
    s.write directory p content =
      if p.isTooLong then .error .nameTooLong
      else .ok (s.put (parent ++ [p.name]) (.file content false)) := by
  unfold Store.write
  rw [h.locate]
  split
  · rfl
  · simp [bind, Except.bind, hfree, pure, Except.pure]

/-- A file is moved to any place that is not a directory. -/
theorem IsPlace.moveTo (h : s.IsPlace directory p parent) {source : Location} {content : Bytes}
    {executable : Bool} (hsource : s.entry? source = some (.file content executable)) :
    s.moveTo directory source p =
      if p.isTooLong then .error .nameTooLong
      else if s.isDirectory (parent ++ [p.name]) then .error .isDirectory
      else .ok ((s.erase source).put (parent ++ [p.name]) (.file content executable)) := by
  unfold Store.moveTo
  rw [h.locate]
  split
  · rfl
  · simp only [bind, Except.bind, hsource]
    cases hentry : s.entry? (parent ++ [p.name]) with
    | none => simp [Store.isDirectory, hentry, pure, Except.pure]
    | some e =>
      cases e with
      | file content executable => simp [Store.isDirectory, hentry, pure, Except.pure]
      | directory => simp [Store.isDirectory, hentry, throw, throwThe, MonadExceptOf.throw]

/-- A file is moved to where a path leads unless a directory stands there. -/
theorem moveTo_eq_ok_iff {source : Location} {content : Bytes} {executable : Bool}
    (hsource : s.entry? source = some (.file content executable)) :
    s.moveTo directory source p = .ok t ↔ ∃ l, s.locate directory p = .ok l ∧
      s.isDirectory l = false ∧ t = (s.erase source).put l (.file content executable) := by
  unfold moveTo
  cases hlocate : s.locate directory p with
  | error e => simp [bind, Except.bind]
  | ok l =>
    simp only [bind, Except.bind, hsource]
    cases hentry : s.entry? l with
    | none => simp [isDirectory, hentry, pure, Except.pure, eq_comm]
    | some e =>
      cases e with
      | file content executable => simp [isDirectory, hentry, pure, Except.pure, eq_comm]
      | directory => simp [isDirectory, hentry, throw, throwThe, MonadExceptOf.throw]

/-- A directory is made only where nothing stands. -/
theorem makeDirectory_eq_ok_iff :
    s.makeDirectory directory p = .ok (t, l) ↔
      s.locate directory p = .ok l ∧ s.entry? l = none ∧ t = s.put l .directory := by
  unfold makeDirectory
  cases hlocate : s.locate directory p with
  | error e => simp [bind, Except.bind]
  | ok m =>
    cases hentry : s.entry? m with
    | none =>
      simp only [bind, Except.bind, hentry, pure, Except.pure, Except.ok.injEq, Prod.mk.injEq]
      constructor
      · rintro ⟨rfl, rfl⟩
        exact ⟨rfl, hentry, rfl⟩
      · rintro ⟨rfl, -, rfl⟩
        exact ⟨rfl, rfl⟩
    | some e =>
      simp only [bind, Except.bind, hentry, throw, throwThe, MonadExceptOf.throw]
      constructor
      · intro h
        cases h
      · rintro ⟨hml, hnone, -⟩
        cases hml
        rw [hentry] at hnone
        cases hnone

theorem find_eq_ok_iff {e : Entry} :
    s.find directory p = .ok e ↔ ∃ l, s.locate directory p = .ok l ∧ s.entry? l = some e := by
  unfold find
  cases hlocate : s.locate directory p with
  | error e => simp [bind, Except.bind]
  | ok l =>
    cases hentry : s.entry? l with
    | none => simp [bind, Except.bind, hentry, throw, throwThe, MonadExceptOf.throw]
    | some e => simp [bind, Except.bind, hentry, pure, Except.pure]

theorem IsPlace.find_eq_ok_iff (h : s.IsPlace directory p parent) {e : Entry} :
    s.find directory p = .ok e ↔
      p.isTooLong = false ∧ s.entry? (parent ++ [p.name]) = some e := by
  rw [Store.find_eq_ok_iff, h.locate]
  by_cases hlong : p.isTooLong = true
  · simp [hlong]
  · simp [hlong]

theorem exists_locate_of_write {content : Bytes} (h : s.write directory p content = .ok t) :
    ∃ l, s.locate directory p = .ok l := by
  unfold write at h
  cases hlocate : s.locate directory p with
  | error e =>
    rw [hlocate] at h
    cases h
  | ok l => exact ⟨l, rfl⟩

theorem exists_locate_of_read {content : Bytes} (h : s.read directory p = .ok content) :
    ∃ l, s.locate directory p = .ok l := by
  unfold read find at h
  cases hlocate : s.locate directory p with
  | error e =>
    rw [hlocate] at h
    cases h
  | ok l => exact ⟨l, rfl⟩

end Store

end WasmPackage
