import WasmPackage.Script.Token

/-!
# Documentation comments

The generator writes the types of a method into the comment before it, as tags `@param {T} name` and
`@returns {T}`.  Tags are found anywhere in the comment; prose around them is skipped.
-/

namespace WasmPackage.Script

/-- What a tag is about. -/
inductive TagKind
  | param
  | returns
deriving DecidableEq, Repr

/-- A tag with the type in its braces, untrimmed, the offset of that type in the comment, and the
name behind the braces. -/
structure DocTag where
  kind : TagKind
  type : Text
  typeStart : Nat
  name : Option String
deriving DecidableEq, Repr

/-- The type of a tag as it is meant: without the blanks around it. -/
def DocTag.trimmedType (t : DocTag) : String :=
  String.ofList t.type.trim

/-- The words that may follow the at sign of a tag. -/
def tagWords : List (Text × TagKind) :=
  [("param".toList, .param), ("returns".toList, .returns), ("return".toList, .returns)]

/-- The tag whose word is `word` and that begins at offset `pos` with the at sign before `r`; also
its length without the at sign. -/
def tagWith? (pos : Nat) (r : Text) (word : Text × TagKind) : Option (DocTag × Nat) :=
  if r.startsWith word.1 then
    let gap := ((r.drop word.1.length).takeWhile isBlank).length
    match r.drop (word.1.length + gap) with
    | '{' :: inner =>
      let type := inner.takeWhile (· ≠ '}')
      match inner.drop type.length with
      | '}' :: rest =>
        let blanks := (rest.takeWhile (fun c => c = ' ' || c = '\t')).length
        let name := (rest.drop blanks).takeWhile (fun c => isWordChar c || c = '$')
        let typeAt := word.1.length + gap + 1
        let tag := fun name => (⟨word.2, type, pos + 1 + typeAt, name⟩ : DocTag)
        if name.isEmpty then some (tag none, typeAt + type.length + 1)
        else
          some (tag (some (String.ofList name)), typeAt + type.length + 1 + blanks + name.length)
      | _ => none
    | _ => none
  else none

/-- The tags of a comment from offset `pos` on. -/
def tagsFrom (pos : Nat) : Text → List DocTag
  | [] => []
  | c :: r =>
    if c = '@' then
      match tagWords.findSome? (tagWith? pos r) with
      | some (tag, n) => tag :: tagsFrom (pos + 1 + n) (r.drop n)
      | none => tagsFrom (pos + 1) r
    else tagsFrom (pos + 1) r
termination_by t => t.length
decreasing_by all_goals simp only [List.length_cons, List.length_drop]; omega

/-- A comment that documents what stands behind it. -/
structure DocComment where
  text : Text
  start : Nat
deriving DecidableEq, Repr

namespace DocComment

/-- The offset behind the comment. -/
def stop (d : DocComment) : Nat :=
  d.start + d.text.length

/-- The tags of the comment, in order. -/
def tags (d : DocComment) : List DocTag :=
  tagsFrom 0 d.text

/-- The types that the comment gives for a parameter, in order. -/
def typesOfParameter (d : DocComment) (name : String) : List String :=
  (d.tags.filter (fun t => t.kind = .param && t.name = some name)).map DocTag.trimmedType

/-- The types that the comment gives for the result, in order. -/
def typesOfResult (d : DocComment) : List String :=
  (d.tags.filter (fun t => t.kind = .returns)).map DocTag.trimmedType

/-- The span, in the whole text, of the word `void` in the last tag that says nothing is
returned. -/
def voidSpan? (d : DocComment) : Option (Nat × Nat) :=
  let voids := d.tags.filter (fun t => t.kind = .returns && t.trimmedType = "void")
  voids.getLast?.map fun t =>
    let start := d.start + t.typeStart + (t.type.takeWhile isBlank).length
    (start, start + 4)

end DocComment

end WasmPackage.Script
