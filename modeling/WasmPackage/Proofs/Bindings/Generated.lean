import WasmPackage.Bindings.Glue
import WasmPackage.Proofs.Script.DocTags
import WasmPackage.Proofs.Script.KnownCode

/-!
# Packages as they are generated

The generator writes a class for each value type, with a getter for its floats and methods that
write their result into their first parameter.  The declarations and the glue hold the same members,
the one with types and the other with bodies.
-/

namespace WasmPackage.Bindings

open Script

/-- A method that writes its result into `out`: its name, the type of its result, and its other
parameters. -/
structure OutputSpec where
  name : String
  type : String
  params : List String
deriving DecidableEq, Repr

/-- A class: its name and its methods. -/
structure ClassSpec where
  name : String
  methods : List OutputSpec
deriving DecidableEq, Repr

namespace OutputSpec

/-- The names of the method are words. -/
structure IsWellFormed (m : OutputSpec) : Prop where
  name : isWord m.name = true
  type : isWord m.type = true
  params : ∀ p ∈ m.params, isWord p = true

end OutputSpec

namespace ClassSpec

/-- The names of the class are words. -/
structure IsWellFormed (c : ClassSpec) : Prop where
  name : isWord c.name = true
  methods : ∀ m ∈ c.methods, m.IsWellFormed

end ClassSpec

/-! ## Texts -/

/-- The two artifacts that members are written for: one declares them, the other defines them. -/
inductive Dialect
  | declared
  | defined
deriving DecidableEq, Repr

/-- The documentation of a method whose result is of this type. -/
def docText (indent : Text) (type : String) : Text :=
  "/**\n".toList ++ indent ++ "* @param \x7b".toList ++ type.toList ++ "\x7d out\n".toList ++
    indent ++ "* @returns \x7bvoid\x7d\n".toList ++ indent ++ "*/".toList

/-- A parameter, with its type if it is declared. -/
def paramText (p : String × Option String) : Text :=
  p.1.toList ++ p.2.elim [] (fun type => ": ".toList ++ type.toList)

/-- A list of parameters. -/
def paramsText : List (String × Option String) → Text
  | [] => []
  | p :: ps => paramText p ++ ps.flatMap (fun q => ", ".toList ++ paramText q)

namespace Dialect

/-- The indentation of members. -/
def indent : Dialect → Text
  | declared => []
  | defined => "    ".toList

/-- The parameters with these types, which only declarations have. -/
def noted (d : Dialect) (ps : List (String × String)) : List (String × Option String) :=
  ps.map fun p => (p.1, if d = declared then some p.2 else none)

/-- What stands behind the parameters of a member: the type of its result, or a body that returns a
value. -/
def endText (d : Dialect) (type value : String) : Text :=
  match d with
  | declared => ": ".toList ++ type.toList ++ ";\n".toList
  | defined => " \x7b\n        return ".toList ++ value.toList ++ ";\n    \x7d\n".toList

/-- The getter for the floats of a value. -/
def getterText (d : Dialect) : Text :=
  d.indent ++ "get elements()".toList ++ d.endText "Float32Array" "realRet"

/-- A method that writes its result into `out`. -/
def methodText (d : Dialect) (m : OutputSpec) : Text :=
  d.indent ++ docText d.indent m.type ++ "\n".toList ++ d.indent ++ "static ".toList ++
    m.name.toList ++ "(".toList ++
    paramsText (d.noted ((outName, m.type) :: m.params.map (·, "any"))) ++ ")".toList ++
    d.endText "void" "wasm.f(out.ptr)"

/-- A class with its members. -/
def classText (d : Dialect) (c : ClassSpec) : Text :=
  "export class ".toList ++ c.name.toList ++ " \x7b\n".toList ++ d.getterText ++
    c.methods.flatMap d.methodText ++ "\x7d\n".toList

end Dialect

/-- The declarations that the generator writes. -/
def declarationsText (cs : List ClassSpec) : Text :=
  cs.flatMap Dialect.declared.classText ++
    "export default function init (module_or_path: any): Promise<any>;\n".toList

/-- The glue that the generator writes, with the text of the loader. -/
def glueText (cs : List ClassSpec) (loader : Text) : Text :=
  "let wasm;\n".toList ++ cs.flatMap Dialect.defined.classText ++ loader

example : Dialect.declared.methodText ⟨"m", "T", ["p"]⟩ = (
    "/**\n* @param \x7bT\x7d out\n* @returns \x7bvoid\x7d\n*/\n" ++
    "static m(out: T, p: any): void;\n").toList := by
  rfl

example : Dialect.defined.classText ⟨"C", []⟩ = (
    "export class C \x7b\n    get elements() \x7b\n        return realRet;\n    \x7d\n" ++
    "\x7d\n").toList := by
  rfl

/-! ## Code -/

/-- The code of a parameter. -/
def paramCode (p : String × Option String) : List Cell :=
  .word p.1 :: p.2.elim [] (fun type => [.mark ":", .word type])

/-- The code of a list of parameters. -/
def paramsCode : List (String × Option String) → List Cell
  | [] => []
  | p :: ps => paramCode p ++ ps.flatMap (fun q => .mark "," :: paramCode q)

/-- The code of a member from its modifier on; `doc` is its documentation, and `behind` the code
behind its parameters. -/
def memberCode (doc : Option Text) (modifier name : String) (ps : List (String × Option String))
    (behind : List Cell) : List Cell :=
  ((.identifier, modifier), doc) :: .word name :: .mark "(" ::
    (paramsCode ps ++ .mark ")" :: behind)

namespace Dialect

/-- The code behind the parameters of a member. -/
def endCode (d : Dialect) (type : String) (value : List Cell) : List Cell :=
  match d with
  | declared => [.mark ":", .word type, .mark ";"]
  | defined => .mark "\x7b" :: (.word "return" :: value ++ [.mark ";"] ++ [.mark "\x7d"])

def getterCode (d : Dialect) : List Cell :=
  memberCode none "get" accessorName [] (d.endCode "Float32Array" [.word "realRet"])

def methodCode (d : Dialect) (m : OutputSpec) : List Cell :=
  memberCode (some (docText d.indent m.type)) "static" m.name
    (d.noted ((outName, m.type) :: m.params.map (·, "any")))
    (d.endCode "void" [.word "wasm", .mark ".", .word "f", .mark "(", .word outName, .mark ".",
      .word "ptr", .mark ")"])

def classCode (d : Dialect) (c : ClassSpec) : List Cell :=
  .word "export" :: .word "class" :: .word c.name :: .mark "\x7b" ::
    (d.getterCode ++ c.methods.flatMap d.methodCode ++ [.mark "\x7d"])

end Dialect

variable {d : Dialect} {c : ClassSpec} {cs : List ClassSpec} {m : OutputSpec} {t : Text}
  {faces : List Face} {p : String × Option String} {ps : List (String × Option String)}

/-! ### Reading -/

/-- Parts of the generated texts that are the same in every package, and the tokens in them. -/
def fixedTexts : List (Text × List Face) :=
  [(": ".toList, [(.punctuation, ":")]), (", ".toList, [(.punctuation, ",")]),
    ("(".toList, [(.punctuation, "(")]), (")".toList, [(.punctuation, ")")]),
    (" \x7b\n".toList, [(.punctuation, "\x7b")]), ("\x7d\n".toList, [(.punctuation, "\x7d")]),
    ("static ".toList, [(.identifier, "static")]),
    ("export class ".toList, [(.identifier, "export"), (.identifier, "class")]),
    ("get elements()".toList, facesOf [.word "get", .word accessorName, .mark "(", .mark ")"]),
    ("let wasm;\n".toList, facesOf [.word "let", .word "wasm", .mark ";"])]

theorem isChunk_of_mem_fixedTexts {u : Text} (hu : (u, faces) ∈ fixedTexts) :
    isChunk u faces = true := by
  have hall : fixedTexts.all (fun p => isChunk p.1 p.2) = true := by decide +kernel
  exact List.all_eq_true.mp hall (u, faces) hu

/-- The names of the parameters and of their types are words. -/
def AreWords (ps : List (String × Option String)) : Prop :=
  ∀ p ∈ ps, isWord p.1 = true ∧ ∀ type ∈ p.2, isWord type = true

theorem readsAs_param [Limits] (hp : isWord p.1 = true ∧ ∀ type ∈ p.2, isWord type = true)
    (hnext : t.head?.any continuesIdentifier = false) (ht : ReadsAs t faces) :
    ReadsAs (paramText p ++ t) (facesOf (paramCode p) ++ faces) := by
  rcases p with ⟨name, _ | type⟩
  · simp only [paramText, Option.elim_none, List.append_nil]
    exact ht.word hp.1 hnext
  · have hcolon : isChunk ": ".toList [(.punctuation, ":")] = true :=
      isChunk_of_mem_fixedTexts (by simp [fixedTexts])
    have htype := ReadsAs.chunk hcolon (ht.word (hp.2 type rfl) hnext)
    have hmark : continuesIdentifier ':' = false := by decide
    simp only [paramText, Option.elim_some, List.append_assoc]
    exact htype.word hp.1 (by simpa using hmark)

theorem readsAs_moreParams [Limits] (hps : AreWords ps)
    (hnext : t.head?.any continuesIdentifier = false) (ht : ReadsAs t faces) :
    ReadsAs (ps.flatMap (fun q => ", ".toList ++ paramText q) ++ t)
        (facesOf (ps.flatMap fun q => .mark "," :: paramCode q) ++ faces) ∧
      (ps.flatMap (fun q => ", ".toList ++ paramText q) ++ t).head?.any continuesIdentifier =
        false := by
  induction ps with
  | nil => exact ⟨ht, hnext⟩
  | cons p ps ih =>
    obtain ⟨hp, hps⟩ := List.forall_mem_cons.mp hps
    obtain ⟨hrest, hhead⟩ := ih hps
    have hcomma : isChunk ", ".toList [(.punctuation, ",")] = true :=
      isChunk_of_mem_fixedTexts (by simp [fixedTexts])
    have hmark : continuesIdentifier ',' = false := by decide
    have hparam := ReadsAs.chunk hcomma (readsAs_param hp hhead hrest)
    simp only [List.flatMap_cons, List.append_assoc, List.cons_append, facesOf, facesOf_append]
    exact ⟨hparam, by simpa using hmark⟩

theorem readsAs_params [Limits] (hps : AreWords ps)
    (hnext : t.head?.any continuesIdentifier = false)
    (ht : ReadsAs t faces) : ReadsAs (paramsText ps ++ t) (facesOf (paramsCode ps) ++ faces) := by
  cases ps with
  | nil => exact ht
  | cons p ps =>
    obtain ⟨hp, hps⟩ := List.forall_mem_cons.mp hps
    obtain ⟨hrest, hhead⟩ := readsAs_moreParams hps hnext ht
    simp only [paramsText, paramsCode, List.append_assoc, facesOf_append]
    exact readsAs_param hp hhead hrest

theorem notMem_of_isWord {w : String} {x : Char} (hw : isWord w = true)
    (hx : continuesIdentifier x = false) : x ∉ w.toList := by
  intro hmem
  rw [continuesIdentifier_of_isWord hw x hmem] at hx
  cases hx

theorem readsAs_doc [Limits] {indent : Text} {type : String} (hindent : '/' ∉ indent)
    (htype : isWord type = true) (ht : ReadsAs t faces) :
    ReadsAs (docText indent type ++ t)
      ((.comment, String.ofList (docText indent type)) :: faces) := by
  have hslash : '/' ∉ type.toList := notMem_of_isWord htype (by decide)
  have hinner : '/' ∉ "*\n".toList ++ indent ++ "* @param \x7b".toList ++ type.toList ++
      "\x7d out\n".toList ++ indent ++ "* @returns \x7bvoid\x7d\n".toList ++ indent := by
    simp [hindent, hslash]
  have hsplit : docText indent type = "/*".toList ++ (("*\n".toList ++ indent ++
      "* @param \x7b".toList ++ type.toList ++ "\x7d out\n".toList ++ indent ++
      "* @returns \x7bvoid\x7d\n".toList ++ indent) ++ "*/".toList) := by
    unfold docText
    simp
  have hcomment := ReadsAs.comment (w := String.ofList (docText indent type)) hinner
    (by rw [String.toList_ofList, hsplit]; rfl) ht
  rwa [String.toList_ofList] at hcomment

namespace Dialect

theorem isBlank_indent (d : Dialect) : ∀ x ∈ d.indent, isBlank x = true := by
  cases d <;> exact List.all_eq_true.mp rfl

theorem isChunk_getterEnd (d : Dialect) : isChunk (d.endText "Float32Array" "realRet")
    (facesOf (d.endCode "Float32Array" [.word "realRet"])) = true := by
  cases d <;> decide +kernel

theorem isChunk_methodEnd (d : Dialect) : isChunk (d.endText "void" "wasm.f(out.ptr)")
    (facesOf (d.endCode "void" [.word "wasm", .mark ".", .word "f", .mark "(", .word outName,
      .mark ".", .word "ptr", .mark ")"])) = true := by
  cases d <;> decide +kernel

theorem areWords_noted (d : Dialect) (hm : m.IsWellFormed) :
    AreWords (d.noted ((outName, m.type) :: m.params.map (·, "any"))) := by
  have hwords : ∀ p ∈ (outName, m.type) :: m.params.map (·, "any"),
      isWord p.1 = true ∧ isWord p.2 = true := by
    rw [List.forall_mem_cons, List.forall_mem_map]
    have hout : isWord outName = true := by decide
    have hany : isWord "any" = true := by decide
    exact ⟨⟨hout, hm.type⟩, fun p hp => ⟨hm.params p hp, hany⟩⟩
  intro p hp
  obtain ⟨q, hq, rfl⟩ := List.mem_map.mp hp
  refine ⟨(hwords q hq).1, ?_⟩
  intro type htype
  simp only at htype
  split at htype
  · cases htype
    exact (hwords q hq).2
  · cases htype

theorem readsAs_getter [Limits] (ht : ReadsAs t faces) :
    ReadsAs (d.getterText ++ t) (facesOf d.getterCode ++ faces) := by
  have hopen : isChunk "get elements()".toList
      (facesOf [.word "get", .word accessorName, .mark "(", .mark ")"]) = true :=
    isChunk_of_mem_fixedTexts (by simp [fixedTexts])
  have hmember := ReadsAs.chunk hopen (ReadsAs.chunk d.isChunk_getterEnd ht)
  simp only [getterText, List.append_assoc]
  exact hmember.blanks d.isBlank_indent

theorem readsAs_method [Limits] (hm : m.IsWellFormed) (ht : ReadsAs t faces) :
    ReadsAs (d.methodText m ++ t) (facesOf (d.methodCode m) ++ faces) := by
  have hstatic : isChunk "static ".toList [(.identifier, "static")] = true :=
    isChunk_of_mem_fixedTexts (by simp [fixedTexts])
  have hopen : isChunk "(".toList [(.punctuation, "(")] = true :=
    isChunk_of_mem_fixedTexts (by simp [fixedTexts])
  have hmark : continuesIdentifier '(' = false := by decide
  have hclose : isChunk ")".toList [(.punctuation, ")")] = true :=
    isChunk_of_mem_fixedTexts (by simp [fixedTexts])
  have hmark' : continuesIdentifier ')' = false := by decide
  have hslash : '/' ∉ d.indent := by cases d <;> decide
  have hsignature := ReadsAs.chunk hopen
    (readsAs_params (d.areWords_noted hm) (by simpa using hmark')
      (ReadsAs.chunk hclose (ReadsAs.chunk d.isChunk_methodEnd ht)))
  have hmember := ReadsAs.chunk hstatic (hsignature.word hm.name (by simpa using hmark))
  have hline : ∀ x ∈ "\n".toList, isBlank x = true := List.all_eq_true.mp rfl
  have hdoc := readsAs_doc hslash hm.type (ReadsAs.blanks hline (hmember.blanks d.isBlank_indent))
  have hall := hdoc.blanks d.isBlank_indent
  simpa only [methodText, methodCode, memberCode, List.append_assoc, facesOf, facesOf_append,
    List.cons_append, List.nil_append] using hall

theorem readsAs_class [Limits] (hc : c.IsWellFormed) (ht : ReadsAs t faces) :
    ReadsAs (d.classText c ++ t) (facesOf (d.classCode c) ++ faces) := by
  have hexport : isChunk "export class ".toList
      [(.identifier, "export"), (.identifier, "class")] = true :=
    isChunk_of_mem_fixedTexts (by simp [fixedTexts])
  have hopen : isChunk " \x7b\n".toList [(.punctuation, "\x7b")] = true :=
    isChunk_of_mem_fixedTexts (by simp [fixedTexts])
  have hclose : isChunk "\x7d\n".toList [(.punctuation, "\x7d")] = true :=
    isChunk_of_mem_fixedTexts (by simp [fixedTexts])
  have hblank : continuesIdentifier ' ' = false := by decide
  have hmethods := ReadsAs.flatMap (fun m hm t faces => readsAs_method (d := d) (hc.methods m hm))
    (ReadsAs.chunk hclose ht)
  have hbody := ReadsAs.chunk hopen (readsAs_getter (d := d) hmethods)
  have hclass := ReadsAs.chunk hexport (hbody.word hc.name (by simpa using hblank))
  unfold classText classCode
  simpa only [List.append_assoc, facesOf, facesOf_append, List.cons_append,
    List.nil_append] using hclass

end Dialect

/-! ### Brackets and comments -/

theorem plain_paramCode (p : String × Option String) :
    ∀ cell ∈ paramCode p, isBracket cell.1 = false ∧ cell.1.1 ≠ .comment ∧ cell.2 = none := by
  rcases p with ⟨name, _ | type⟩ <;> simp [paramCode, isBracket, closers, bracketPairs]

theorem plain_paramsCode (ps : List (String × Option String)) :
    ∀ cell ∈ paramsCode ps, isBracket cell.1 = false ∧ cell.1.1 ≠ .comment ∧ cell.2 = none := by
  cases ps with
  | nil => nofun
  | cons p ps =>
    intro cell hcell
    rcases List.mem_append.mp hcell with hcell | hcell
    · exact plain_paramCode p cell hcell
    · obtain ⟨q, -, hcell⟩ := List.mem_flatMap.mp hcell
      rcases List.mem_cons.mp hcell with rfl | hcell
      · decide
      · exact plain_paramCode q cell hcell

theorem balanced_paramsCode (ps : List (String × Option String)) :
    Balanced ((paramsCode ps).map Prod.fst) := by
  apply Balanced.of_plain
  rw [List.forall_mem_map]
  intro cell hcell
  exact (plain_paramsCode ps cell hcell).1

theorem balanced_memberCode {doc : Option Text} {modifier name : String} {behind : List Cell}
    (h : Balanced (behind.map Prod.fst)) :
    Balanced ((memberCode doc modifier name ps behind).map Prod.fst) := by
  have hcall : Balanced ((.punctuation, "(") :: ((paramsCode ps).map Prod.fst ++
      (TokenKind.punctuation, ")") :: behind.map Prod.fst)) :=
    .group (by decide) (balanced_paramsCode ps) h
  simpa only [memberCode, List.map_cons, List.map_append] using
    Balanced.plain rfl (.plain rfl hcall)

theorem isCode_memberCode {doc : Option Text} {modifier name : String} {behind : List Cell}
    (hdoc : ∀ u ∈ doc, Text.startsWith u "/**".toList = true) (h : IsCode behind) :
    IsCode (memberCode doc modifier name ps behind) := by
  have hps : IsCode (paramsCode ps) :=
    .of_undocumented fun cell hcell => (plain_paramsCode ps cell hcell).2
  have hfirst : IsCode [((.identifier, modifier), doc), .word name, .mark "("] := by
    simpa [IsCode] using hdoc
  have hclose : IsCode [.mark ")"] := .of_undocumented (by decide)
  simpa only [memberCode, List.cons_append, List.nil_append] using
    hfirst.append (hps.append (hclose.append h))

namespace Dialect

theorem balanced_endCode (d : Dialect) {type : String} {value : List Cell}
    (h : Balanced (value.map Prod.fst)) : Balanced ((d.endCode type value).map Prod.fst) := by
  cases d with
  | declared => exact .plain rfl (.plain rfl (.plain rfl .nil))
  | defined =>
    have hend : Balanced [(.punctuation, ";")] := .plain rfl .nil
    have hbody : Balanced ((.punctuation, "\x7b") :: (((TokenKind.identifier, "return") ::
        (value.map Prod.fst ++ [(TokenKind.punctuation, ";")])) ++
          [(TokenKind.punctuation, "\x7d")])) :=
      .group (by decide) (.plain rfl (h.append hend)) .nil
    simpa [endCode] using hbody

theorem isCode_endCode (d : Dialect) {type : String} {value : List Cell} (h : IsCode value) :
    IsCode (d.endCode type value) := by
  cases d with
  | declared => exact .of_undocumented (by simp [endCode])
  | defined =>
    have hfirst : IsCode [.mark "\x7b", .word "return"] := .of_undocumented (by decide)
    have hlast : IsCode [.mark ";", .mark "\x7d"] := .of_undocumented (by decide)
    simpa [endCode] using hfirst.append (h.append hlast)

theorem balanced_getterCode (d : Dialect) : Balanced (d.getterCode.map Prod.fst) :=
  balanced_memberCode (d.balanced_endCode (.plain rfl .nil))

theorem balanced_methodValue : Balanced (([.word "wasm", .mark ".", .word "f", .mark "(",
    .word outName, .mark ".", .word "ptr", .mark ")"] : List Cell).map Prod.fst) := by
  have hcall : Balanced ((.punctuation, "(") ::
      ([(TokenKind.identifier, outName), (.punctuation, "."), (.identifier, "ptr")] ++
        [(TokenKind.punctuation, ")")])) :=
    .group (by decide) (.of_plain (by decide)) .nil
  exact .plain rfl (.plain rfl (.plain rfl hcall))

theorem balanced_methodCode (d : Dialect) (m : OutputSpec) :
    Balanced ((d.methodCode m).map Prod.fst) :=
  balanced_memberCode (d.balanced_endCode balanced_methodValue)

/-- The brackets of the members of a class are matched among themselves. -/
theorem balanced_members (d : Dialect) (c : ClassSpec) :
    Balanced ((d.getterCode ++ c.methods.flatMap d.methodCode).map Prod.fst) := by
  rw [List.map_append, List.map_flatMap]
  exact d.balanced_getterCode.append (.flatMap fun m _ => d.balanced_methodCode m)

theorem balanced_classCode (d : Dialect) (c : ClassSpec) :
    Balanced ((d.classCode c).map Prod.fst) := by
  have hbody : Balanced ((.punctuation, "\x7b") ::
      ((d.getterCode ++ c.methods.flatMap d.methodCode).map Prod.fst ++
        [(TokenKind.punctuation, "\x7d")])) :=
    .group (by decide) (d.balanced_members c) .nil
  simpa only [classCode, List.map_cons, List.map_append, List.append_assoc, List.map_nil] using
    Balanced.plain rfl (.plain rfl (.plain rfl hbody))

theorem isCode_getterCode (d : Dialect) : IsCode d.getterCode :=
  isCode_memberCode nofun (d.isCode_endCode (.of_undocumented (by decide)))

theorem isCode_methodCode (d : Dialect) (m : OutputSpec) : IsCode (d.methodCode m) := by
  apply isCode_memberCode
  · intro u hu
    rw [Option.mem_some_iff] at hu
    subst hu
    unfold docText
    simp [Text.startsWith]
  · exact d.isCode_endCode (.of_undocumented (by decide))

theorem isCode_classCode (d : Dialect) (c : ClassSpec) : IsCode (d.classCode c) := by
  have hhead : IsCode [.word "export", .word "class", .word c.name, .mark "\x7b"] :=
    .of_undocumented (by simp)
  have hlast : IsCode [.mark "\x7d"] := .of_undocumented (by decide)
  have hmethods : IsCode (c.methods.flatMap d.methodCode) :=
    .flatMap fun m _ => d.isCode_methodCode m
  have hmembers := d.isCode_getterCode.append hmethods
  simpa only [classCode, List.cons_append, List.nil_append] using
    hhead.append (hmembers.append hlast)

end Dialect

/-! ## Whole texts -/

/-- The code of the declaration of the loader. -/
def initCode : List Cell :=
  [.word "export", .word "default", .word "function", .word "init", .mark "(",
    .word "module_or_path", .mark ":", .word "any", .mark ")", .mark ":", .word "Promise",
    .mark "<", .word "any", .mark ">", .mark ";"]

def declarationsCode (cs : List ClassSpec) : List Cell :=
  cs.flatMap Dialect.declared.classCode ++ initCode

/-- The generated declarations are read as the code of their classes and of the loader. -/
theorem read_declarationsText [Limits] (hcs : ∀ c ∈ cs, c.IsWellFormed) :
    ∃ s, Source.read (declarationsText cs) = .ok s ∧ s.size = (declarationsCode cs).length ∧
      s.Shows 0 (declarationsCode cs) := by
  have hinit : isChunk
      "export default function init (module_or_path: any): Promise<any>;\n".toList
      (facesOf initCode) = true := by decide +kernel
  have hread : ReadsAs (declarationsText cs) (facesOf (declarationsCode cs) ++ []) := by
    have hclasses := ReadsAs.flatMap
      (fun c hc t faces => Dialect.readsAs_class (d := .declared) (hcs c hc))
      (ReadsAs.chunk hinit .nil)
    simpa only [declarationsText, declarationsCode, facesOf_append, List.append_assoc,
      List.append_nil] using hclasses
  have hinitCode : IsCode initCode := .of_undocumented (by decide)
  have hcode : cellsFrom none (facesOf (declarationsCode cs) ++ []) = declarationsCode cs := by
    have hclasses : IsCode (cs.flatMap Dialect.declared.classCode) :=
      .flatMap fun c _ => Dialect.isCode_classCode _ c
    rw [declarationsCode, cellsFrom_append (hclasses.append hinitCode), cellsFrom, List.append_nil]
  have hcall : Balanced ((.punctuation, "(") ::
      ([(TokenKind.identifier, "module_or_path"), (.punctuation, ":"), (.identifier, "any")] ++
        (TokenKind.punctuation, ")") :: [(TokenKind.punctuation, ":"), (.identifier, "Promise"),
          (.punctuation, "<"), (.identifier, "any"), (.punctuation, ">"), (.punctuation, ";")])) :=
    .group (by decide) (.of_plain (by decide)) (.of_plain (by decide))
  have hbalanced : Balanced ((declarationsCode cs).map Prod.fst) := by
    rw [declarationsCode, List.map_append, List.map_flatMap]
    exact (Balanced.flatMap fun c _ => Dialect.balanced_classCode _ c).append
      (.plain rfl (.plain rfl (.plain rfl (.plain rfl hcall))))
  obtain ⟨s, hs, hsize, hshows⟩ := Source.read_of_readsAs hread (by rw [hcode]; exact hbalanced)
  rw [hcode] at hsize hshows
  exact ⟨s, hs, hsize, hshows⟩

/-- The code of a loader, which may be exported by a statement of its own. -/
def loaderCode (params body : List Cell) (isExported : Bool) : List Cell :=
  .word "function" :: .word loaderName :: .mark "(" :: (params ++ .mark ")" :: .mark "\x7b" ::
    (body ++ .mark "\x7d" :: if isExported then
      [.word "export", .word "default", .word loaderName, .mark ";"] else []))

/-- A text that defines a loader, and may export it by a statement of its own. -/
def IsLoader [Limits] (loader : Text) : Prop :=
  ∃ tokens params body isExported, tokenize loader = .ok tokens ∧
    cellsFrom none (tokens.map Token.face) = loaderCode params body isExported ∧
    Balanced (params.map Prod.fst) ∧ Balanced (body.map Prod.fst)

def glueCode (cs : List ClassSpec) (loader : List Cell) : List Cell :=
  [.word "let", .word "wasm", .mark ";"] ++ cs.flatMap Dialect.defined.classCode ++ loader

theorem balanced_loaderCode {params body : List Cell} {isExported : Bool}
    (hparams : Balanced (params.map Prod.fst)) (hbody : Balanced (body.map Prod.fst)) :
    Balanced ((loaderCode params body isExported).map Prod.fst) := by
  have hexport : Balanced ((if isExported then
      [.word "export", .word "default", .word loaderName, .mark ";"] else []
        : List Cell).map Prod.fst) := by
    cases isExported
    · exact .nil
    · exact .of_plain (by decide)
  have hblock : Balanced ((.punctuation, "\x7b") :: (body.map Prod.fst ++
      (TokenKind.punctuation, "\x7d") :: _)) := .group (by decide) hbody hexport
  have hcall : Balanced ((.punctuation, "(") :: (params.map Prod.fst ++
      (TokenKind.punctuation, ")") :: _)) :=
    .group (by decide) hparams hblock
  simpa only [loaderCode, List.map_cons, List.map_append] using
    Balanced.plain rfl (.plain rfl hcall)

/-- The generated glue is read as the code of its classes and of the loader. -/
theorem read_glueText [Limits] {loader : Text} (hcs : ∀ c ∈ cs, c.IsWellFormed)
    (hloader : IsLoader loader) :
    ∃ s params body isExported, Source.read (glueText cs loader) = .ok s ∧
      s.size = (glueCode cs (loaderCode params body isExported)).length ∧
      s.Shows 0 (glueCode cs (loaderCode params body isExported)) ∧
      Balanced (params.map Prod.fst) ∧ Balanced (body.map Prod.fst) := by
  obtain ⟨tokens, params, body, isExported, htokens, hcells, hparams, hbody⟩ := hloader
  have hfirst : (tokens.filter (fun x => x.kind ≠ .comment)).head?.all (·.kind = .identifier) =
      true := by
    have hfaces := map_fst_cellsFrom none (tokens.map Token.face)
    rw [hcells, List.filter_map] at hfaces
    obtain ⟨x, rest, hfilter, hx, -⟩ := List.map_eq_cons_iff.mp hfaces.symm
    have hkind : x.kind = .identifier := (Prod.mk.inj hx).1
    have hcode : tokens.filter (fun x => x.kind ≠ .comment) = x :: rest := hfilter
    rw [hcode]
    simp [hkind]
  have hend := readsAs_of_tokensFrom (tokensFrom_of_tokenize htokens) hfirst
  have hlet : isChunk "let wasm;\n".toList (facesOf [.word "let", .word "wasm", .mark ";"]) =
      true := isChunk_of_mem_fixedTexts (by simp [fixedTexts])
  have hread : ReadsAs (glueText cs loader)
      (facesOf ([Cell.word "let", .word "wasm", .mark ";"] ++
        cs.flatMap Dialect.defined.classCode) ++ tokens.map Token.face) := by
    have hclasses := ReadsAs.flatMap
      (fun c hc t faces => Dialect.readsAs_class (d := .defined) (hcs c hc)) hend
    unfold glueText
    simpa only [facesOf_append, List.append_assoc] using ReadsAs.chunk hlet hclasses
  have hletCode : IsCode [.word "let", .word "wasm", .mark ";"] := .of_undocumented (by decide)
  have hclasses : IsCode (cs.flatMap Dialect.defined.classCode) :=
    .flatMap fun c _ => Dialect.isCode_classCode _ c
  have hcode : cellsFrom none (facesOf ([Cell.word "let", .word "wasm", .mark ";"] ++
      cs.flatMap Dialect.defined.classCode) ++ tokens.map Token.face) =
      glueCode cs (loaderCode params body isExported) := by
    rw [cellsFrom_append (hletCode.append hclasses), hcells, glueCode]
  have hbalanced : Balanced ((glueCode cs (loaderCode params body isExported)).map Prod.fst) := by
    rw [glueCode, List.map_append, List.map_append, List.map_flatMap]
    have hletBalanced : Balanced (([.word "let", .word "wasm", .mark ";"] : List Cell).map
        Prod.fst) := .of_plain (by decide)
    exact (hletBalanced.append (.flatMap fun c _ => Dialect.balanced_classCode _ c)).append
      (balanced_loaderCode hparams hbody)
  obtain ⟨s, hs, hsize, hshows⟩ := Source.read_of_readsAs hread (by rw [hcode]; exact hbalanced)
  rw [hcode] at hsize hshows
  exact ⟨s, params, body, isExported, hs, hsize, hshows, hparams, hbody⟩

end WasmPackage.Bindings
