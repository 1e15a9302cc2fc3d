import WasmPackage.Text.Basic

/-!
# Paths

A path is the names on the way to a file, from the root of the file tree or from a working
directory.  Empty names and single points are dropped when a path is read; two points stay, since
what they mean depends on the tree.  A path that the system is asked for word by word keeps single
points, too: they stand for directories only.
-/

namespace WasmPackage

/-! ## Names -/

namespace Path

/-- The pieces of a text between slashes. -/
def pieces : Text → List Text
  | [] => [[]]
  | c :: r =>
    if c = '/' then [] :: pieces r
    else
      match pieces r with
      | [] => [[c]]
      | p :: ps => (c :: p) :: ps

theorem slash_notMem_of_mem_pieces {t piece : Text} (h : piece ∈ pieces t) : '/' ∉ piece := by
  induction t generalizing piece with
  | nil => simp_all [pieces]
  | cons c r ih =>
    unfold pieces at h
    split at h
    · rcases List.mem_cons.mp h with rfl | hrest
      · simp
      · exact ih hrest
    · next hc =>
      have hfirst (p : Text) (hp : '/' ∉ p) : '/' ∉ c :: p := by
        simpa [hp] using Ne.symm hc
      split at h
      · rw [List.mem_singleton.mp h]
        exact hfirst [] List.not_mem_nil
      · next p ps hpieces =>
        rw [hpieces] at ih
        rcases List.mem_cons.mp h with rfl | hrest
        · exact hfirst p (ih List.mem_cons_self)
        · exact ih (List.mem_cons_of_mem p hrest)

/-- The pieces of strings, as strings. -/
def piecesOf (l : List String) : List String :=
  l.flatMap (fun s => (pieces s.toList).map String.ofList)

theorem slash_notMem_of_mem_piecesOf {l : List String} {n : String} (h : n ∈ piecesOf l) :
    '/' ∉ n.toList := by
  rcases List.mem_flatMap.mp h with ⟨s, -, hn⟩
  rcases List.mem_map.mp hn with ⟨piece, hpiece, rfl⟩
  rw [String.toList_ofList]
  exact slash_notMem_of_mem_pieces hpiece

end Path

/-- The names on the way to a file.  A slash ends a name, so that none holds one. -/
structure Names where
  toList : List String
  noSlash : ∀ n ∈ toList, '/' ∉ n.toList
deriving DecidableEq

namespace Names

/-- The names that strings hold; a slash in one of them parts two names. -/
def ofStrings (l : List String) : Names :=
  ⟨Path.piecesOf l, fun _ => Path.slash_notMem_of_mem_piecesOf⟩

instance : Coe (List String) Names := ⟨ofStrings⟩

instance : Repr Names := ⟨fun names => reprPrec names.toList⟩

/-- Those of the names that a test lets pass. -/
def filter (test : String → Bool) (names : Names) : Names :=
  ⟨names.toList.filter test, fun n hn => names.noSlash n (List.mem_filter.mp hn).1⟩

/-- The names but for the last one. -/
def dropLast (names : Names) : Names :=
  ⟨names.toList.dropLast, fun n hn => names.noSlash n (List.dropLast_subset _ hn)⟩

instance : Append Names where
  append a b := ⟨a.toList ++ b.toList, fun n hn =>
    (List.mem_append.mp hn).elim (a.noSlash n) (b.noSlash n)⟩

@[simp] theorem toList_append (a b : Names) : (a ++ b).toList = a.toList ++ b.toList := rfl

@[simp] theorem toList_dropLast (names : Names) :
    names.dropLast.toList = names.toList.dropLast := rfl

end Names

/-! ## Paths -/

/-- A path; `slashes` is the number of slashes it begins with: none, one, or exactly two. -/
structure Path where
  slashes : Nat
  parts : Names
deriving DecidableEq, Repr

namespace Path

/-- The path that a string writes.  Pieces that are empty or a point are no names. -/
def ofString (s : String) : Path :=
  let leading := (s.toList.takeWhile (· = '/')).length
  ⟨if leading = 2 then 2 else min leading 1,
    (Names.ofStrings [s]).filter (fun p => p ≠ "" && p ≠ ".")⟩

/-- The path that a string writes, word by word; a slash at its end stands for a point there. -/
def exact (s : String) : Path :=
  let names := (Names.ofStrings [s]).filter (· ≠ "")
  let isOpen := s.toList.getLast? = some '/' && !names.toList.isEmpty
  ⟨(ofString s).slashes, if isOpen then names ++ Names.ofStrings ["."] else names⟩

/-- Does the path begin at the root? -/
def isAbsolute (p : Path) : Bool :=
  p.slashes ≠ 0

/-- The written form of a path. -/
def text (p : Path) : String :=
  if p.slashes = 0 && p.parts.toList.isEmpty then "."
  else String.ofList (List.replicate p.slashes '/') ++ "/".intercalate p.parts.toList

/-- The path from `p` on; a path from the root takes its place. -/
def join (p q : Path) : Path :=
  if q.isAbsolute then q else ⟨p.slashes, p.parts ++ q.parts⟩

/-- The path to something named in a string, from `p` on. -/
def child (p : Path) (name : String) : Path :=
  p.join (ofString name)

/-- The last name of a path. -/
def name (p : Path) : String :=
  p.parts.toList.getLast?.getD ""

/-- The names with each pair of points taken back together with the name before it. -/
def withoutBacksteps (before : List String) : List String → List String
  | [] => before.reverse
  | n :: r => if n = ".." then withoutBacksteps before.tail r else withoutBacksteps (n :: before) r

/-- The path from the root without any steps back, for a path as seen from a directory.  It begins
with one slash. -/
def resolve (directory p : Path) : Path :=
  ⟨1, withoutBacksteps [] (directory.join p).parts.toList⟩

/-- Does a name of the path hold the character zero?  No file can have such a name. -/
def hasZero (p : Path) : Bool :=
  p.parts.toList.any (·.toList.contains '\x00')

/-- The most bytes that the written form of a path may have. -/
def mostBytes : Nat := 4095

end Path

end WasmPackage
