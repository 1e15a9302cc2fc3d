import WasmPackage.Proofs.Package.Keeping
import WasmPackage.Tool.Installed

/-!
# Installed tools and the file tree

The program of an installed tool is called with files in a temporary directory.  If it changes
nothing outside of that directory, nothing is left of the call.
-/

namespace WasmPackage.InstalledTools

open WasmPackage.Action (Ends ends_bind ends_get_bind ends_pure ends_changeStore_ok
  ends_changeStore_error preserves_pure preserves_throw preserves_get preserves_ofExcept)
open WasmPackage.Path (IsPlain)

variable {s t u : Session} {tool : Tool} {program source target : String} {path : Path}
  {location : Location} {arguments : String → String → List String}

/-! ## Calls -/

/-- The program of a tool, called with the names of two files in a new directory, changes nothing
outside of that directory. -/
def StaysInside (s : Session) (tool : Tool) (program source target : String)
    (arguments : String → String → List String) : Prop :=
  ∀ path location u r t, IsNewDirectory s path location → s.SameOutside location u →
    Ends (launcher.call tool program (arguments (path.child source).text (path.child target).text))
      u r t → u.SameOutside location t

/-- The input of a tool is written to the new directory. -/
theorem sameOutside_write {input : Bytes} {r : Except Failure Unit}
    (hnew : IsNewDirectory s path location) (hsource : IsPlain source)
    (hzero : '\x00' ∉ source.toList)
    (h : Ends (Action.changeStore .store fun store =>
        store.write s.directory (path.child source) input) (s.withNew location) r t) :
    s.SameOutside location t := by
  have hplace : (s.withNew location).store.IsPlace s.directory (path.child source) location :=
    Store.isPlace_child hnew.located_withNew hnew.isDirectory_self hsource hzero
  have hfree : Store.entry? (s.withNew location).store (location ++ [(path.child source).name]) =
      none := hnew.entry?_inside _
  cases r with
  | error e =>
    rcases ends_changeStore_error.mp h with ⟨-, -, -, rfl⟩
    exact hnew.sameOutside
  | ok _ =>
    rcases ends_changeStore_ok.mp h with ⟨store, hstore, rfl⟩
    rw [hplace.write hfree] at hstore
    split at hstore
    · cases hstore
    · cases hstore
      refine hnew.sameOutside.trans ⟨?_, rfl, rfl⟩
      intro k hk
      rw [Store.entry?_put (by simp), if_neg]
      rintro rfl
      exact hk (List.prefix_append _ _)

/-- Nothing is left of a conversion but its outcome. -/
theorem sameView_convert (htree : s.store.IsTree) (hsource : IsPlain source)
    (hzero : '\x00' ∉ source.toList) (hinside : StaysInside s tool program source target arguments)
    (input : Bytes) :
    (launcher.convert tool program source target input arguments).Preserves s.SameView := by
  apply preserves_withDirectory htree
  intro u path location r t hview hnew h
  rw [ends_get_bind] at h
  rcases ends_bind.mp h with ⟨e, hfail, -⟩ | ⟨⟨⟩, v, hwritten, h⟩
  · exact sameOutside_write hnew hsource hzero hfail
  have hwrite := sameOutside_write hnew hsource hzero hwritten
  have hcall : ∀ r w, Ends (launcher.call tool program
      (arguments (path.child source).text (path.child target).text)) v r w →
        u.SameOutside location w := by
    intro r w hcalled
    have hseen := (hview.sameOutside location).trans hwrite
    exact hwrite.trans (hinside path location v r w (hnew.of_sameView hview) hseen hcalled)
  rcases ends_bind.mp h with ⟨e, hfail, -⟩ | ⟨⟨⟩, w, hcalled, h⟩
  · exact hcall _ _ hfail
  · rw [ends_get_bind] at h
    exact preserves_ofExcept _ _ w r t (hcall _ _ hcalled) h

/-! ## The toolchain -/

/-- The programs of all tools stay in the directories of the files that they are called with. -/
structure StayInside (tools : InstalledTools) (s : Session) : Prop where
  optimizer : StaysInside s .optimizer tools.optimizer "input.wasm" "optimized.wasm"
    (fun source target => source :: tools.flags ++ ["-o", target])
  disassembler : StaysInside s .disassembler tools.disassembler "module.wasm" "module.wast"
    (fun source target => [source, "-o", target])
  assembler : StaysInside s .assembler tools.assembler "module.wast" "module.wasm"
    (fun source target => [source, "-o", target])

theorem StayInside.keepsView {tools : InstalledTools} (h : tools.StayInside s)
    (htree : s.store.IsTree) : tools.toolchain.KeepsView s where
  optimize binary :=
    sameView_convert htree (by decide +kernel) (by decide +kernel) h.optimizer binary
  disassemble binary :=
    (sameView_convert htree (by decide +kernel) (by decide +kernel) h.disassembler binary).bind
      fun _ => preserves_ofExcept _ _
  assemble text :=
    sameView_convert htree (by decide +kernel) (by decide +kernel) h.assembler text.encode

theorem preserves_discover {P : Session → Prop} (flags : List String) :
    (discover flags).Preserves P := by
  refine preserves_get.bind fun s => (preserves_ofExcept _ _).bind fun found => ?_
  split
  · exact preserves_pure _
  · exact preserves_throw _

/-- If the programs that are found stay inside, installed tools change nothing that a run sees. -/
theorem keepsView_search (htree : s.store.IsTree)
    (hinside : ∀ flags u tools t, s.SameView u → Ends (discover flags) u (.ok tools) t →
      tools.StayInside s) : search.KeepsView s where
  finding flags :=
    (preserves_discover flags).bind fun _ => (sameView_record _).bind fun _ => preserves_pure _
  found flags u tools t hview h := by
    rcases ends_bind.mp h with ⟨e, -, hfail⟩ | ⟨found, v, hfound, h⟩
    · cases hfail
    rcases ends_bind.mp h with ⟨e, -, hfail⟩ | ⟨⟨⟩, w, -, h⟩
    · cases hfail
    rcases ends_pure.mp h with ⟨htools, -⟩
    cases htools
    exact (hinside flags u found v hview hfound).keepsView htree

end WasmPackage.InstalledTools
