import WasmPackage.Proofs.Package.Temporary
import WasmPackage.Tool.Launcher

/-!
# Outcomes of calls

A program may do anything: end with any status, print anything, write its target or not, or not
start at all.  The call of a tool gives what the program left in its target or fails as a tool
fails, unless the program prints what is no text, or claims success and leaves nothing that can be
read.
-/

namespace WasmPackage

open WasmPackage.Action (Ends ends_bind ends_get_bind ends_pure ends_throw ends_set_bind
  ends_ofExcept_ok_bind ends_ofExcept_error_bind storeFailure storeFailure_of_ne)
open WasmPackage.Path (IsPlain)

/-! ## Kinds of failures -/

namespace ToolError

/-- A tool is not there or failed, but not in reading a module's text back. -/
def IsToolchain : ToolError → Prop
  | missing _ => True
  | unavailable _ => True
  | notStarted _ _ => True
  | failed tool _ => tool ≠ .assembler
  | noOutput _ => False
  | undecodable => False

/-- The text of a module was not turned back into a module. -/
def IsRoundTrip : ToolError → Prop
  | failed tool _ => tool = .assembler
  | _ => False

end ToolError

namespace Launcher

/-- The bytes are a text. -/
def IsText (bytes : Bytes) : Prop :=
  (Text.decode? bytes).isSome = true

instance (bytes : Bytes) : Decidable (IsText bytes) :=
  inferInstanceAs (Decidable (_ = true))

theorem printed_cases (bytes : Bytes) :
    (∃ t, printed bytes = .ok t ∧ IsText bytes) ∨
      (printed bytes = .error .undecodable ∧ ¬IsText bytes) := by
  unfold printed IsText
  cases Text.decode? bytes with
  | none => exact Or.inr ⟨rfl, by simp⟩
  | some t => exact Or.inl ⟨t.withNewlines, rfl, rfl⟩

end Launcher

/-! ## Room for a call -/

namespace Session

variable {s t : Session} {source : String} {input : Bytes}

/-- The name of the next temporary directory of a tool. -/
def temporaryName (s : Session) : String :=
  s.store.freshName ["tmp"] "wasm-polish-"

/-- The next temporary directory of a tool. -/
def temporary (s : Session) : Path :=
  (Path.ofString "/tmp").child s.temporaryName

/-- The temporary directory of a tool can be made. -/
structure HasRoom (s : Session) : Prop where
  isTree : s.store.IsTree
  isMade : ∃ made, s.store.makeDirectory s.directory s.temporary = .ok made

/-- The session in which the program of a tool is called: the temporary directory holds the input.
-/
def withInput (s : Session) (source : String) (input : Bytes) : Session :=
  let location := ["tmp", s.temporaryName]
  { s.withNew location with
    store := (s.withNew location).store.put (location ++ [source]) (.file input false) }

theorem isPlain_temporaryName (s : Session) : IsPlain s.temporaryName :=
  s.store.isPlain_freshName _ (by decide +kernel) (by decide +kernel)

theorem parts_tmp : (Path.ofString "/tmp").parts.toList = ["tmp"] := by
  decide +kernel

theorem slashes_temporary (s : Session) : s.temporary.slashes = 1 := by
  rw [temporary, Path.slashes_child_of_isPlain _ s.isPlain_temporaryName]
  decide +kernel

theorem parts_temporary (s : Session) : s.temporary.parts.toList = ["tmp", s.temporaryName] := by
  rw [temporary, Path.parts_child_of_isPlain _ s.isPlain_temporaryName, parts_tmp]
  rfl

theorem name_temporary (s : Session) : s.temporary.name = s.temporaryName :=
  Path.name_child _ s.isPlain_temporaryName

theorem locate_tmp (s : Session) :
    s.store.locate s.directory (Path.ofString "/tmp") = .ok ["tmp"] := by
  have hshort : ¬Path.mostBytes < (Path.ofString "/tmp").text.utf8ByteSize := by decide +kernel
  have hroot : (Path.ofString "/tmp").isAbsolute = true := by decide +kernel
  have hname : ¬Store.longestName < "tmp".utf8ByteSize := by decide +kernel
  rw [Store.locate_eq _ _ (by decide +kernel), if_neg hshort, parts_tmp]
  simp [Path.start, hroot, Store.walk, hname]

theorem HasRoom.located (h : s.HasRoom) :
    s.temporaryName.utf8ByteSize ≤ Store.longestName ∧
      s.store.makeDirectory s.directory s.temporary =
        .ok ((s.withNew ["tmp", s.temporaryName]).store, ["tmp", s.temporaryName]) := by
  rcases h.isMade with ⟨⟨store, l⟩, hmade⟩
  rcases Store.makeDirectory_eq_ok_iff.mp hmade with ⟨hlocate, hfree, rfl⟩
  have hplain : IsPlain s.temporary.name := by
    rw [name_temporary]
    exact s.isPlain_temporaryName
  rcases Store.exists_isPlace_of_locate hplain hlocate with ⟨parent, hplace⟩
  have hparent : parent = ["tmp"] := by
    have hleads := hplace.leads
    rw [parts_temporary] at hleads
    have hlong : ¬Store.longestName < "tmp".utf8ByteSize := by decide +kernel
    simpa [Path.start, Path.isAbsolute, slashes_temporary, Store.walk, hlong, eq_comm] using hleads
  have hl := hplace.locate.symm.trans hlocate
  split at hl
  · cases hl
  · next hshort =>
    cases hl
    rw [hparent, name_temporary] at hmade
    simp only [Path.isTooLong, name_temporary, Bool.or_eq_true, decide_eq_true_eq, not_or,
      Nat.not_lt] at hshort
    exact ⟨hshort.2, hmade⟩

theorem HasRoom.isNewDirectory (h : s.HasRoom) :
    IsNewDirectory s s.temporary ["tmp", s.temporaryName] := by
  rcases Store.makeDirectory_eq_ok_iff.mp h.located.2 with ⟨hlocate, hfree, -⟩
  exact ⟨hlocate, List.cons_ne_nil _ _,
    fun k hk => h.isTree.entry?_eq_none_of_prefix hfree hk⟩

/-- The path to a file in the temporary directory is not too long. -/
theorem HasRoom.isTooLong_child (h : s.HasRoom) (hsource : IsPlain source)
    (hshort : source.utf8ByteSize ≤ Store.longestName) :
    (s.temporary.child source).isTooLong = false := by
  have hparts : (s.temporary.child source).parts.toList = ["tmp", s.temporaryName, source] := by
    rw [Path.parts_child_of_isPlain _ hsource, parts_temporary]
    rfl
  have hslashes : (s.temporary.child source).slashes = 1 := by
    rw [Path.slashes_child_of_isPlain _ hsource, slashes_temporary]
  have htext : (s.temporary.child source).text =
      "/" ++ ("tmp" ++ "/" ++ s.temporaryName ++ "/" ++ source) := by
    rw [Path.text, hslashes, hparts]
    rfl
  have hsize : (s.temporary.child source).text.utf8ByteSize =
      6 + s.temporaryName.utf8ByteSize + source.utf8ByteSize := by
    have hslash : "/".utf8ByteSize = 1 := by decide +kernel
    have htmp : "tmp".utf8ByteSize = 3 := by decide +kernel
    rw [htext]
    simp only [String.utf8ByteSize_append]
    omega
  have hname := h.located.1
  simp only [Store.longestName] at hname hshort
  simp only [Path.isTooLong, hsize, Path.name_child _ hsource, Path.mostBytes, Store.longestName,
    Bool.or_eq_false_iff, decide_eq_false_iff_not]
  omega

theorem HasRoom.write (h : s.HasRoom) (hsource : IsPlain source)
    (hshort : source.utf8ByteSize ≤ Store.longestName) (hzero : '\x00' ∉ source.toList)
    (input : Bytes) :
    (s.withNew ["tmp", s.temporaryName]).store.write s.directory (s.temporary.child source) input =
      .ok (s.withInput source input).store := by
  have hnew := h.isNewDirectory
  have hplace : (s.withNew ["tmp", s.temporaryName]).store.IsPlace s.directory
      (s.temporary.child source) ["tmp", s.temporaryName] :=
    Store.isPlace_child hnew.located_withNew hnew.isDirectory_self hsource hzero
  rw [hplace.write (hnew.entry?_inside _), h.isTooLong_child hsource hshort,
    Path.name_child _ hsource]
  rfl

end Session

/-! ## Conversions -/

/-- What a tool is called for: its program, the names of the files in the temporary directory, the
input, and the arguments made from the names of the files. -/
structure Conversion where
  program : String
  source : String
  target : String
  input : Bytes
  arguments : String → String → List String

namespace Conversion

variable {α : Type} {c : Conversion} {launch : Launcher} {s t : Session} {tool : Tool}

/-- The optimizer is called on a module. -/
def ofOptimizer (program : String) (flags : List String) (binary : Bytes) : Conversion :=
  ⟨program, "input.wasm", "optimized.wasm", binary,
    fun source target => source :: flags ++ ["-o", target]⟩

/-- The disassembler is called on a module. -/
def ofDisassembler (program : String) (binary : Bytes) : Conversion :=
  ⟨program, "module.wasm", "module.wast", binary, fun source target => [source, "-o", target]⟩

/-- The assembler is called on a module's text. -/
def ofAssembler (program : String) (text : Text) : Conversion :=
  ⟨program, "module.wast", "module.wasm", text.encode, fun source target => [source, "-o", target]⟩

/-- The words that the program is called with. -/
def words (c : Conversion) (s : Session) : List String :=
  c.arguments (s.temporary.child c.source).text (s.temporary.child c.target).text

/-- What comes of the program. -/
def answer (c : Conversion) (launch : Launcher) (s : Session) :
    Except StoreError (Shell.Result × Store) :=
  launch (s.withInput c.source c.input) c.program (c.words s)

/-- What the program left in its target. -/
def content (c : Conversion) (s : Session) (store : Store) : Except StoreError Bytes :=
  store.read s.directory (s.temporary.child c.target)

/-- The call of a tool on the input. -/
def run (c : Conversion) (launch : Launcher) (tool : Tool) : Action Bytes :=
  launch.convert tool c.program c.source c.target c.input c.arguments

/-- A file in the temporary directory can have the name. -/
def IsSource (name : String) : Prop :=
  IsPlain name ∧ name.utf8ByteSize ≤ Store.longestName ∧ '\x00' ∉ name.toList

instance (name : String) : Decidable (IsSource name) :=
  inferInstanceAs (Decidable (_ ∧ _ ∧ _))

/-- The words can be given to a program. -/
def HasWords (c : Conversion) (s : Session) : Prop :=
  ∀ w ∈ c.program :: c.words s, '\x00' ∉ w.toList

instance (c : Conversion) (s : Session) : Decidable (c.HasWords s) :=
  inferInstanceAs (Decidable (∀ w ∈ c.program :: c.words s, '\x00' ∉ w.toList))

/-- Both streams of a program are texts. -/
def Prints (result : Shell.Result) : Prop :=
  Launcher.IsText result.output ∧ Launcher.IsText result.errors

open Launcher (IsText printed printed_cases)

/-- How a conversion ends, by what came of the program. -/
inductive Outcome (c : Conversion) (s : Session) (tool : Tool) :
    Except StoreError (Shell.Result × Store) → Except Failure Bytes → Prop
  | notStarted (e : StoreError) : Outcome c s tool (.error e)
      (.error (storeFailure (fun e => .tool (.notStarted c.program e)) e))
  | undecodable {result : Shell.Result} {store : Store} : ¬Prints result →
      Outcome c s tool (.ok (result, store)) (.error (.tool .undecodable))
  | failed {result : Shell.Result} {store : Store} (detail : String) : Prints result →
      result.status ≠ 0 →
      Outcome c s tool (.ok (result, store)) (.error (.tool (.failed tool detail)))
  | noOutput {result : Shell.Result} {store : Store} {e : StoreError} : Prints result →
      result.status = 0 → c.content s store = .error e →
      Outcome c s tool (.ok (result, store)) (.error (.tool (.noOutput e)))
  | written {result : Shell.Result} {store : Store} {bytes : Bytes} : Prints result →
      result.status = 0 → c.content s store = .ok bytes →
      Outcome c s tool (.ok (result, store)) (.ok bytes)

theorem call_of_not_hasWords {u v : Session} {r : Except Failure Unit} (hwords : ¬c.HasWords s)
    (h : Ends (launch.call tool c.program (c.words s)) u r v) :
    r = .error (.store .zeroInName) := by
  have hany : (c.program :: c.words s).any (·.toList.contains '\x00') = true := by
    by_contra hnone
    exact hwords (by simpa [HasWords] using hnone)
  unfold Launcher.call at h
  rw [ends_get_bind, hany] at h
  simp only [if_true] at h
  rcases ends_bind.mp h with ⟨e, hfail, rfl⟩ | ⟨a, w, hfail, -⟩
  · rw [(ends_throw.mp hfail).1]
  · cases (ends_throw.mp hfail).1

/-- The call of a program, step by step. -/
theorem call_cases {u v : Session} {r : Except Failure Unit} (hwords : c.HasWords s)
    (h : Ends (launch.call tool c.program (c.words s)) u r v) :
    (∃ e, launch u c.program (c.words s) = .error e ∧
        r = .error (storeFailure (fun e => .tool (.notStarted c.program e)) e) ∧ v = u) ∨
      ∃ result store, launch u c.program (c.words s) = .ok (result, store) ∧
        v = { u with store := store } ∧
          ((¬Prints result ∧ r = .error (.tool .undecodable)) ∨
            (Prints result ∧ result.status ≠ 0 ∧
              ∃ detail, r = .error (.tool (.failed tool detail))) ∨
            (Prints result ∧ result.status = 0 ∧ r = .ok ())) := by
  have hany : (c.program :: c.words s).any (·.toList.contains '\x00') = false := by
    simpa [HasWords] using hwords
  unfold Launcher.call at h
  rw [ends_get_bind, hany] at h
  simp only [Bool.false_eq_true, if_false] at h
  cases hlaunch : launch u c.program (c.words s) with
  | error e =>
    rw [hlaunch] at h
    rcases ends_ofExcept_error_bind.mp h with ⟨rfl, rfl⟩
    exact Or.inl ⟨e, rfl, rfl, rfl⟩
  | ok done =>
    rcases done with ⟨result, store⟩
    rw [hlaunch, Action.ofStore, ends_ofExcept_ok_bind, ends_set_bind] at h
    refine Or.inr ⟨result, store, rfl, ?_⟩
    -- the streams are read one after the other
    rcases printed_cases result.output with ⟨output, houtput, hisOutput⟩ | ⟨houtput, hisNot⟩
    · rw [houtput, ends_ofExcept_ok_bind] at h
      rcases printed_cases result.errors with ⟨errors, herrors, hisErrors⟩ | ⟨herrors, hisNot⟩
      · rw [herrors, ends_ofExcept_ok_bind] at h
        split at h
        · next hstatus =>
          rcases ends_throw.mp h with ⟨rfl, rfl⟩
          exact ⟨rfl, Or.inr (Or.inl ⟨⟨hisOutput, hisErrors⟩, hstatus, _, rfl⟩)⟩
        · next hstatus =>
          rcases ends_pure.mp h with ⟨rfl, rfl⟩
          exact ⟨rfl, Or.inr (Or.inr ⟨⟨hisOutput, hisErrors⟩, not_not.mp hstatus, rfl⟩)⟩
      · rw [herrors] at h
        rcases ends_ofExcept_error_bind.mp h with ⟨rfl, rfl⟩
        exact ⟨rfl, Or.inl ⟨fun hprints => hisNot hprints.2, rfl⟩⟩
    · rw [houtput] at h
      rcases ends_ofExcept_error_bind.mp h with ⟨rfl, rfl⟩
      exact ⟨rfl, Or.inl ⟨fun hprints => hisNot hprints.1, rfl⟩⟩

/-- A conversion is the call of its program on the input, and what is read behind it. -/
theorem exists_ends_of_convert {r : Except Failure Bytes} (hroom : s.HasRoom)
    (hsource : IsSource c.source)
    (h : Ends (c.run launch tool) s r t) :
    ∃ v, Ends (do
      launch.call tool c.program (c.words s)
      let t ← get
      Action.ofExcept (.tool ∘ .noOutput) (t.store.read t.directory (s.temporary.child c.target)) :
        Action Bytes) (s.withInput c.source c.input) r v := by
  have hwrite := hroom.write hsource.1 hsource.2.1 hsource.2.2 c.input
  unfold run Launcher.convert at h
  rcases exists_ends_of_withDirectory s.locate_tmp hroom.located.2 h with ⟨v, hrun⟩
  rw [ends_get_bind] at hrun
  rcases ends_bind.mp hrun with ⟨e, hfail, -⟩ | ⟨⟨⟩, w, hwritten, hrun⟩
  · cases (hfail.changeStore_of_ok hwrite).1
  · rcases hwritten.changeStore_of_ok hwrite with ⟨-, rfl⟩
    exact ⟨v, hrun⟩

/-- A conversion ends as what comes of its program tells, if that can be called at all. -/
theorem outcome_convert {r : Except Failure Bytes} (hroom : s.HasRoom) (hsource : IsSource c.source)
    (h : Ends (c.run launch tool) s r t) :
    (¬c.HasWords s ∧ r = .error (.store .zeroInName)) ∨
      (c.HasWords s ∧ Outcome c s tool (c.answer launch s) r) := by
  rcases exists_ends_of_convert hroom hsource h with ⟨v, hrun⟩
  by_cases hwords : c.HasWords s
  · refine Or.inr ⟨hwords, ?_⟩
    -- a call that fails ends the conversion; behind one that does not, the target is read
    rcases ends_bind.mp hrun with ⟨e, hcall, rfl⟩ | ⟨⟨⟩, w, hcall, hread⟩
    · rcases call_cases hwords hcall with ⟨e, hanswer, hr, -⟩ | ⟨result, store, hanswer, -, hcases⟩
      · rw [answer, hanswer]
        cases hr
        exact .notStarted e
      · rw [answer, hanswer]
        rcases hcases with ⟨hprints, hr⟩ | ⟨hprints, hstatus, detail, hr⟩ | ⟨-, -, hr⟩
        · cases hr
          exact .undecodable hprints
        · cases hr
          exact .failed detail hprints hstatus
        · cases hr
    · rcases call_cases hwords hcall with ⟨e, -, hr, -⟩ | ⟨result, store, hanswer, rfl, hcases⟩
      · cases hr
      rcases hcases with ⟨-, hr⟩ | ⟨-, -, detail, hr⟩ | ⟨hprints, hstatus, -⟩
      · cases hr
      · cases hr
      rw [answer, hanswer]
      replace hread : Ends (Action.ofExcept (.tool ∘ .noOutput) (c.content s store)) _ r v :=
        ends_get_bind.mp hread
      cases hcontent : c.content s store with
      | error e =>
        rw [hcontent] at hread
        rcases ends_throw.mp hread with ⟨rfl, -⟩
        exact .noOutput hprints hstatus hcontent
      | ok bytes =>
        rw [hcontent] at hread
        rcases ends_pure.mp hread with ⟨rfl, -⟩
        exact .written hprints hstatus hcontent
  · refine Or.inl ⟨hwords, ?_⟩
    rcases ends_bind.mp hrun with ⟨e, hcall, rfl⟩ | ⟨⟨⟩, w, hcall, -⟩
    · cases call_of_not_hasWords hwords hcall
      rfl
    · cases call_of_not_hasWords hwords hcall

/-! ## Calls that end well -/

/-- The action gives the content that there is, or fails in a known way. -/
def EndsWell (x : Action α) (s : Session) (content : Option α) (isKnown : ToolError → Prop) :
    Prop :=
  ∀ r t, Ends x s r t →
    (∃ a, r = .ok a ∧ content = some a) ∨ ∃ e, r = .error (.tool e) ∧ isKnown e

/-- What the program left in its target, as it is read. -/
def left? (c : Conversion) (launch : Launcher) (s : Session) (read : Bytes → Except ToolError α) :
    Option α :=
  match c.answer launch s with
  | .error _ => none
  | .ok (_, store) => (c.content s store).toOption.bind fun bytes => (read bytes).toOption

/-- The program can be called, prints texts, and leaves what can be read if it claims success.  It
may fail to start, but not for a zero in a word, which it has been kept from. -/
structure Behaves (c : Conversion) (launch : Launcher) (s : Session)
    (read : Bytes → Except ToolError α) : Prop where
  words : c.HasWords s
  started : c.answer launch s ≠ .error .zeroInName
  prints : ∀ result store, c.answer launch s = .ok (result, store) → Prints result
  leaves : ∀ result store, c.answer launch s = .ok (result, store) → result.status = 0 →
    ∃ bytes a, c.content s store = .ok bytes ∧ read bytes = .ok a

theorem behaves_of_answer {read : Bytes → Except ToolError α} {result : Shell.Result}
    {store : Store} {bytes : Bytes} {a : α} (hwords : c.HasWords s)
    (hanswer : c.answer launch s = .ok (result, store)) (hprints : Prints result)
    (hcontent : c.content s store = .ok bytes) (hread : read bytes = .ok a) :
    c.Behaves launch s read := by
  refine ⟨hwords, by simp [hanswer], ?_, ?_⟩
  · intro result' store' hdone
    cases hanswer.symm.trans hdone
    exact hprints
  · intro result' store' hdone _
    cases hanswer.symm.trans hdone
    exact ⟨bytes, a, hcontent, hread⟩

/-- The failures of a conversion that are known. -/
structure Knows (c : Conversion) (launch : Launcher) (s : Session) (tool : Tool)
    (isKnown : ToolError → Prop) : Prop where
  notStarted : ∀ e, c.answer launch s = .error e → isKnown (.notStarted c.program e)
  failed : ∀ done detail, c.answer launch s = .ok done → isKnown (.failed tool detail)
  noOutput : ∀ e, ¬isKnown (.noOutput e)
  undecodable : ¬isKnown .undecodable

theorem exists_ends (x : Action α) (s : Session) : ∃ r t, Ends x s r t :=
  ⟨_, _, rfl⟩

/-- If a conversion fails only in known ways, and what it gives can be read, then its program
behaves. -/
theorem behaves_of_outcome {read : Bytes → Except ToolError α} {isKnown : ToolError → Prop}
    {r : Except Failure Bytes} (hknows : c.Knows launch s tool isKnown) (hwords : c.HasWords s)
    (houtcome : Outcome c s tool (c.answer launch s) r)
    (hfails : ∀ f, r = .error f → ∃ e, f = .tool e ∧ isKnown e)
    (hreads : ∀ bytes, r = .ok bytes → ∃ a, read bytes = .ok a) : c.Behaves launch s read := by
  generalize hanswer : c.answer launch s = done at houtcome
  cases houtcome with
  | notStarted e =>
    refine ⟨hwords, ?_, by simp [hanswer], by simp [hanswer]⟩
    intro hzero
    cases hanswer.symm.trans hzero
    rcases hfails _ rfl with ⟨e, he, -⟩
    cases he
  | undecodable _ =>
    rcases hfails _ rfl with ⟨e, he, hknown⟩
    cases he
    exact (hknows.undecodable hknown).elim
  | failed detail hprints hstatus =>
    refine ⟨hwords, by simp [hanswer], ?_, ?_⟩
    · intro result store hdone
      cases hanswer.symm.trans hdone
      exact hprints
    · intro result store hdone hzero
      cases hanswer.symm.trans hdone
      exact (hstatus hzero).elim
  | noOutput _ _ _ =>
    rcases hfails _ rfl with ⟨e, he, hknown⟩
    cases he
    exact (hknows.noOutput _ hknown).elim
  | @written _ _ bytes hprints _ hcontent =>
    rcases hreads bytes rfl with ⟨a, hbytes⟩
    exact behaves_of_answer hwords hanswer hprints hcontent hbytes

namespace Behaves

variable {read : Bytes → Except ToolError α} {isKnown : ToolError → Prop}

/-- A conversion whose program behaves fails in known ways only. -/
theorem fails_known (h : c.Behaves launch s read) (hknows : c.Knows launch s tool isKnown)
    {f : Failure} (houtcome : Outcome c s tool (c.answer launch s) (.error f)) :
    ∃ e, f = .tool e ∧ isKnown e := by
  generalize hanswer : c.answer launch s = done at houtcome
  cases houtcome with
  | notStarted e =>
    have hstarted : e ≠ .zeroInName := by
      rintro rfl
      exact h.started hanswer
    rw [storeFailure_of_ne hstarted]
    exact ⟨_, rfl, hknows.notStarted e hanswer⟩
  | undecodable hprints => exact (hprints (h.prints _ _ hanswer)).elim
  | failed detail _ _ => exact ⟨_, rfl, hknows.failed _ detail hanswer⟩
  | noOutput _ hstatus hcontent =>
    rcases h.leaves _ _ hanswer hstatus with ⟨bytes, a, hleft, -⟩
    cases hcontent.symm.trans hleft

/-- What such a conversion gives can be read, and is what the program left. -/
theorem exists_left (h : c.Behaves launch s read) {bytes : Bytes}
    (houtcome : Outcome c s tool (c.answer launch s) (.ok bytes)) :
    ∃ a, read bytes = .ok a ∧ c.left? launch s read = some a := by
  generalize hanswer : c.answer launch s = done at houtcome
  cases houtcome with
  | @written result store _ _ hstatus hcontent =>
    rcases h.leaves _ _ hanswer hstatus with ⟨bytes', a, hleft, hbytes⟩
    cases hcontent.symm.trans hleft
    exact ⟨a, hbytes, by simp [left?, hanswer, hcontent, hbytes, Except.toOption]⟩

end Behaves

/-- A conversion ends well exactly if its program behaves. -/
theorem endsWell_iff_behaves {read : Bytes → Except ToolError α} {isKnown : ToolError → Prop}
    (hroom : s.HasRoom) (hsource : IsSource c.source) (hknows : c.Knows launch s tool isKnown)
    (hread : ∀ bytes e, read bytes = .error e → e = .undecodable) :
    EndsWell (do
        let bytes ← c.run launch tool
        Action.ofExcept .tool (read bytes)) s (c.left? launch s read) isKnown ↔
      c.Behaves launch s read := by
  constructor
  · intro h
    rcases exists_ends (c.run launch tool) s with ⟨r, t, hrun⟩
    -- a failure that is not known is no good end
    have hfails : ∀ f, r = .error f → ∃ e, f = .tool e ∧ isKnown e := by
      rintro f rfl
      rcases h _ _ hrun.bind_error with ⟨a, ha, -⟩ | ⟨e, he, hknown⟩
      · cases ha
      · exact ⟨e, Except.error.inj he, hknown⟩
    -- nor is the failure to read what the program has left
    have hreads : ∀ bytes, r = .ok bytes → ∃ a, read bytes = .ok a := by
      rintro bytes rfl
      cases hbytes : read bytes with
      | ok a => exact ⟨a, rfl⟩
      | error e =>
        cases hread bytes e hbytes
        have hend : Ends (Action.ofExcept .tool (read bytes)) t
            (.error (.tool .undecodable)) t := by
          rw [hbytes]
          exact ends_throw.mpr ⟨rfl, rfl⟩
        rcases h _ _ (hrun.bind hend) with ⟨a, ha, -⟩ | ⟨e, he, hknown⟩
        · cases ha
        · cases he
          exact (hknows.undecodable hknown).elim
    rcases outcome_convert hroom hsource hrun with ⟨-, hr⟩ | ⟨hwords, houtcome⟩
    · rcases hfails _ hr with ⟨e, he, -⟩
      cases he
    · exact behaves_of_outcome hknows hwords houtcome hfails hreads
  · intro hbehaves r t hends
    rcases ends_bind.mp hends with ⟨f, hrun, rfl⟩ | ⟨bytes, u, hrun, hend⟩
    · rcases outcome_convert hroom hsource hrun with ⟨hwords, -⟩ | ⟨-, houtcome⟩
      · exact (hwords hbehaves.words).elim
      rcases hbehaves.fails_known hknows houtcome with ⟨e, rfl, hknown⟩
      exact Or.inr ⟨e, rfl, hknown⟩
    · rcases outcome_convert hroom hsource hrun with ⟨-, hr⟩ | ⟨-, houtcome⟩
      · cases hr
      rcases hbehaves.exists_left houtcome with ⟨a, hbytes, hleft⟩
      rw [hbytes] at hend
      exact Or.inl ⟨a, (ends_pure.mp hend).1, hleft⟩

/-- Bytes that are read as they are. -/
def asTheyAre (bytes : Bytes) : Except ToolError Bytes :=
  .ok bytes

/-- A conversion whose bytes are given as they are. -/
theorem endsWell_run_iff {isKnown : ToolError → Prop} (hroom : s.HasRoom)
    (hsource : IsSource c.source) (hknows : c.Knows launch s tool isKnown) :
    EndsWell (c.run launch tool) s (c.left? launch s asTheyAre) isKnown ↔
      c.Behaves launch s asTheyAre := by
  have hrun : (do
      let bytes ← c.run launch tool
      Action.ofExcept .tool (asTheyAre bytes) : Action Bytes) = c.run launch tool :=
    bind_pure _
  have hread : ∀ bytes e, asTheyAre bytes = .error e → e = .undecodable := by
    rintro bytes e ⟨⟩
  rw [← endsWell_iff_behaves hroom hsource hknows hread, hrun]

theorem knows_isToolchain (htool : tool ≠ .assembler) :
    c.Knows launch s tool ToolError.IsToolchain :=
  ⟨fun _ _ => trivial, fun _ _ _ => htool, fun _ => id, id⟩

/-- A failure in reading a module's text back: of the round trip, unless the program did not start.
-/
def IsAssembly (c : Conversion) (launch : Launcher) (s : Session) (e : ToolError) : Prop :=
  match c.answer launch s with
  | .ok _ => e.IsRoundTrip
  | .error _ => e.IsToolchain

theorem knows_isAssembly : c.Knows launch s .assembler (c.IsAssembly launch s) := by
  constructor
  · intro e hanswer
    rw [IsAssembly, hanswer]
    trivial
  · intro done detail hanswer
    rw [IsAssembly, hanswer]
    rfl
  · intro e
    rw [IsAssembly]
    split <;> exact id
  · rw [IsAssembly]
    split <;> exact id

end Conversion

open Conversion (EndsWell IsSource asTheyAre ofOptimizer ofDisassembler ofAssembler)

section

variable {launch : Launcher} {s : Session} {program : String} {flags : List String}
  {binary : Bytes} {text : Text}

theorem Launcher.optimize_endsWell_iff (hroom : s.HasRoom) :
    EndsWell (launch.optimize program flags binary) s
        ((ofOptimizer program flags binary).left? launch s asTheyAre) ToolError.IsToolchain ↔
      (ofOptimizer program flags binary).Behaves launch s asTheyAre := by
  have hsource : IsSource "input.wasm" := by decide +kernel
  have hrun : launch.optimize program flags binary =
      (ofOptimizer program flags binary).run launch .optimizer := rfl
  rw [hrun]
  exact Conversion.endsWell_run_iff hroom hsource (Conversion.knows_isToolchain nofun)

theorem Launcher.disassemble_endsWell_iff (hroom : s.HasRoom) :
    EndsWell (launch.disassemble program binary) s
        ((ofDisassembler program binary).left? launch s printed) ToolError.IsToolchain ↔
      (ofDisassembler program binary).Behaves launch s printed := by
  have hsource : IsSource "module.wasm" := by decide +kernel
  have hread : ∀ bytes e, printed bytes = .error e → e = .undecodable := by
    intro bytes e hbytes
    rcases printed_cases bytes with ⟨t, ht, -⟩ | ⟨ht, -⟩
    · cases ht.symm.trans hbytes
    · cases ht.symm.trans hbytes
      rfl
  have hrun : launch.disassemble program binary = (do
      let bytes ← (ofDisassembler program binary).run launch .disassembler
      Action.ofExcept .tool (printed bytes)) := rfl
  rw [hrun]
  exact Conversion.endsWell_iff_behaves hroom hsource (Conversion.knows_isToolchain nofun) hread

theorem Launcher.assemble_endsWell_iff (hroom : s.HasRoom) :
    EndsWell (launch.assemble program text) s
        ((ofAssembler program text).left? launch s asTheyAre)
        ((ofAssembler program text).IsAssembly launch s) ↔
      (ofAssembler program text).Behaves launch s asTheyAre := by
  have hsource : IsSource "module.wast" := by decide +kernel
  have hrun : launch.assemble program text =
      (ofAssembler program text).run launch .assembler := rfl
  rw [hrun]
  exact Conversion.endsWell_run_iff hroom hsource Conversion.knows_isAssembly

end

/-- Whatever a program does, the tools give what it left in its target or fail as tools do, exactly
if the program behaves. -/
theorem Launcher.endsWell_iff (launch : Launcher) {s : Session} (hroom : s.HasRoom) :
    (∀ program flags binary,
      EndsWell (launch.optimize program flags binary) s
          ((ofOptimizer program flags binary).left? launch s asTheyAre) ToolError.IsToolchain ↔
        (ofOptimizer program flags binary).Behaves launch s asTheyAre) ∧
    (∀ program binary,
      EndsWell (launch.disassemble program binary) s
          ((ofDisassembler program binary).left? launch s printed) ToolError.IsToolchain ↔
        (ofDisassembler program binary).Behaves launch s printed) ∧
    (∀ program text,
      EndsWell (launch.assemble program text) s
          ((ofAssembler program text).left? launch s asTheyAre)
          ((ofAssembler program text).IsAssembly launch s) ↔
        (ofAssembler program text).Behaves launch s asTheyAre) :=
  ⟨fun _ _ _ => optimize_endsWell_iff hroom, fun _ _ => disassemble_endsWell_iff hroom,
    fun _ _ => assemble_endsWell_iff hroom⟩

/-! ### Programs that write, and one that does nothing -/

/-- A session in which there is nothing but a directory for temporary files. -/
def emptyRoom : Session where
  store := ⟨[(["tmp"], .directory)]⟩
  directory := []
  environment := []
  said := []
  steps := []

theorem hasRoom_emptyRoom : emptyRoom.HasRoom :=
  ⟨by decide, _, rfl⟩

/-- A program that does nothing, and says that all went well. -/
def Launcher.silent : Launcher := fun s _ _ =>
  .ok (⟨0, [], []⟩, s.store)

/-- A program that writes some bytes to the file named last, and prints others. -/
def Launcher.writer (content output : Bytes) : Launcher := fun s _ arguments => do
  let store ← s.store.write s.directory (Path.exact (arguments.getLast?.getD "")) content
  return (⟨0, output, []⟩, store)

/-- The store that the writer leaves. -/
def Conversion.storeWith (c : Conversion) (s : Session) (content : Bytes) : Store :=
  (s.withInput c.source c.input).store.put ["tmp", s.temporaryName, c.target] (.file content false)

theorem Launcher.endsWell_writer :
    emptyRoom.HasRoom ∧
      EndsWell ((writer [65] []).optimize "wasm-opt" ["-O"] []) emptyRoom (some [65])
        ToolError.IsToolchain ∧
      EndsWell ((writer [65] []).disassemble "wasm-dis" []) emptyRoom (some ['A'])
        ToolError.IsToolchain ∧
      EndsWell ((writer [65] []).assemble "wasm-as" []) emptyRoom (some [65])
        ToolError.IsRoundTrip := by
  have hall := endsWell_iff (writer [65] []) hasRoom_emptyRoom
  have hbehaves {α : Type} (c : Conversion) (read : Bytes → Except ToolError α) (a : α)
      (hwords : c.HasWords emptyRoom)
      (hanswer : c.answer (writer [65] []) emptyRoom =
        .ok (⟨0, [], []⟩, c.storeWith emptyRoom [65]))
      (hcontent : c.content emptyRoom (c.storeWith emptyRoom [65]) = .ok [65])
      (hread : read [65] = .ok a) : c.Behaves (writer [65] []) emptyRoom read :=
    Conversion.behaves_of_answer hwords hanswer ⟨rfl, rfl⟩ hcontent hread
  refine ⟨hasRoom_emptyRoom, ?_, ?_, ?_⟩
  · have hoptimizer := hbehaves (ofOptimizer "wasm-opt" ["-O"] []) asTheyAre [65]
      (by decide +kernel) (by decide +kernel) (by decide +kernel) rfl
    exact (hall.1 "wasm-opt" ["-O"] []).mpr hoptimizer
  · have hdisassembler := hbehaves (ofDisassembler "wasm-dis" []) printed ['A']
      (by decide +kernel) (by decide +kernel) (by decide +kernel) (by decide +kernel)
    exact (hall.2.1 "wasm-dis" []).mpr hdisassembler
  · have hassembler := hbehaves (ofAssembler "wasm-as" []) asTheyAre [65]
      (by decide +kernel) (by decide +kernel) (by decide +kernel) rfl
    exact (hall.2.2 "wasm-as" []).mpr hassembler

/-- A program that says that all went well and leaves nothing, one that prints what is no text, and
a disassembler that leaves what is no text are not taken for tools that failed. -/
theorem Launcher.not_endsWell_silent :
    ¬EndsWell (silent.optimize "wasm-opt" [] []) emptyRoom none ToolError.IsToolchain ∧
      ¬EndsWell (silent.disassemble "wasm-dis" []) emptyRoom none ToolError.IsToolchain ∧
      ¬EndsWell (silent.assemble "wasm-as" []) emptyRoom none ToolError.IsRoundTrip ∧
      ¬EndsWell ((writer [65] [255]).optimize "wasm-opt" [] []) emptyRoom (some [65])
        ToolError.IsToolchain ∧
      ¬EndsWell ((writer [255] []).disassemble "wasm-dis" []) emptyRoom none
        ToolError.IsToolchain := by
  have hsilent {α : Type} (c : Conversion) (read : Bytes → Except ToolError α)
      (hcontent : c.content emptyRoom (emptyRoom.withInput c.source c.input).store =
        .error .notFound) : ¬c.Behaves silent emptyRoom read := by
    intro hbehaves
    rcases hbehaves.leaves _ _ rfl rfl with ⟨bytes, a, hleft, -⟩
    cases hcontent.symm.trans hleft
  refine ⟨?_, ?_, ?_, ?_, ?_⟩
  · exact fun h => hsilent _ _ (by decide +kernel) ((optimize_endsWell_iff hasRoom_emptyRoom).mp h)
  · exact fun h =>
      hsilent _ _ (by decide +kernel) ((disassemble_endsWell_iff hasRoom_emptyRoom).mp h)
  · exact fun h => hsilent _ _ (by decide +kernel) ((assemble_endsWell_iff hasRoom_emptyRoom).mp h)
  · intro h
    have hanswer : (ofOptimizer "wasm-opt" [] []).answer (writer [65] [255]) emptyRoom =
        .ok (⟨0, [255], []⟩, (ofOptimizer "wasm-opt" [] []).storeWith emptyRoom [65]) := by
      decide +kernel
    have hprints := ((optimize_endsWell_iff hasRoom_emptyRoom).mp h).prints _ _ hanswer
    exact absurd hprints.1 (by decide)
  · intro h
    have hanswer : (ofDisassembler "wasm-dis" []).answer (writer [255] []) emptyRoom =
        .ok (⟨0, [], []⟩, (ofDisassembler "wasm-dis" []).storeWith emptyRoom [255]) := by
      decide +kernel
    have hcontent : (ofDisassembler "wasm-dis" []).content emptyRoom
        ((ofDisassembler "wasm-dis" []).storeWith emptyRoom [255]) = .ok [255] := by
      decide +kernel
    rcases ((disassemble_endsWell_iff hasRoom_emptyRoom).mp h).leaves _ _ hanswer rfl with
      ⟨bytes, a, hleft, hread⟩
    cases hcontent.symm.trans hleft
    cases hread

end WasmPackage
