import WasmPackage.Data.Value

/-!
# Documents of TOML

A document is a tree of tables with a note of what may not be changed any more: a table is opened
once, and what a value wrote is closed to later lines.
-/

namespace WasmPackage.Toml

/-- A path of names into a document. -/
abbrev Key := List String

/-- A table that holds one table for `key`, which holds one for the next name, and so on. -/
def nested (f : Table String → Option (Table String)) : Key → Option (Table String)
  | [] => f []
  | k :: ks => (nested f ks).map (fun t => [(k, .table t)])

/-- The last item of a list changed by `f`, if it has one. -/
def mapLast? (f : Value String → Option (Value String)) :
    List (Value String) → Option (List (Value String))
  | [] => none
  | [v] => (f v).map ([·])
  | v :: w :: r => (mapLast? f (w :: r)).map (v :: ·)

/-- Changes the table at a path, and makes the tables on the way that are missing.  A list on the
way stands for its last item, if `intoLists` allows it. -/
def changeAt (intoLists : Bool) (f : Table String → Option (Table String)) :
    Key → Table String → Option (Table String)
  | [], t => f t
  | k :: ks, t =>
    match t.lookup k with
    | none => (nested f ks).map (fun inner => Table.set k (.table inner) t)
    | some (.table inner) =>
      (changeAt intoLists f ks inner).map (fun inner => Table.set k (.table inner) t)
    | some (.list items) =>
      if intoLists then
        let changed := mapLast? (fun v => match v with
          | .table inner => (changeAt intoLists f ks inner).map .table
          | _ => none) items
        changed.map (fun items => Table.set k (.list items) t)
      else none
    | some _ => none

/-- A document under construction: its tables, the table that lines write to, the tables that are
opened, those that count as opened from the next header on, and the paths that a value closed. -/
structure Document where
  root : Table String
  current : Key
  opened : List Key
  pending : List Key
  closed : List Key
deriving Repr

namespace Document

/-- The document with nothing in it. -/
def empty : Document := ⟨[], [], [], [], []⟩

/-- Is the path, or a path it goes through, closed? -/
def isClosed (d : Document) (key : Key) : Bool :=
  d.closed.any (·.isPrefixOf key)

/-- The tables that lines went through count as opened from a header on. -/
def settle (d : Document) : Document :=
  { d with opened := d.opened ++ d.pending, pending := [] }

/-- A header for a table. -/
def openTable (d : Document) (key : Key) : Option Document :=
  let d := d.settle
  if d.opened.contains key || d.isClosed key then none
  else do
    let root ← changeAt true some key d.root
    return { d with root, current := key, opened := key :: d.opened }

/-- Appends an empty table to the list of a name. -/
def appendTo (name : String) (t : Table String) : Option (Table String) :=
  match t.lookup name with
  | none => some (t.set name (.list [.table []]))
  | some (.list items) => some (t.set name (.list (items ++ [.table []])))
  | some _ => none

/-- A header for one more table of a list.  What was said about paths through the list was about the
table before. -/
def appendTable (d : Document) (key : Key) : Option Document :=
  let d := d.settle
  if d.isClosed key then none
  else do
    let last ← key.getLast?
    let root ← changeAt true (appendTo last) key.dropLast d.root
    let outside := fun k => !key.isPrefixOf k
    return { d with
      root
      current := key
      opened := key :: d.opened.filter outside
      closed := d.closed.filter outside }

/-- Sets the value of a name that has none. -/
def setNew (name : String) (v : Value String) (t : Table String) : Option (Table String) :=
  if (t.lookup name).isSome then none else some (t.set name v)

/-- Does a value close its path?  Lists and inline tables do. -/
def closes : Value String → Bool
  | .list _ => true
  | .table _ => true
  | _ => false

/-- The parts of a path that end before its last name and are longer than `skipped`. -/
def stepsOf (skipped : Key) (key : Key) : List Key :=
  (List.range (key.length - 1)).map (fun i => skipped ++ key.take (i + 1))

/-- A line that sets a key of the current table. -/
def setKey (d : Document) (key : Key) (v : Value String) : Option Document :=
  let steps := stepsOf d.current key
  if steps.any d.opened.contains || d.isClosed (d.current ++ key.dropLast) then none
  else do
    let last ← key.getLast?
    let root ← changeAt true (setNew last v) (d.current ++ key.dropLast) d.root
    let closed := if closes v then (d.current ++ key) :: d.closed else d.closed
    return { d with root, closed, pending := steps ++ d.pending }

/-- An entry of an inline table. -/
def setInline (d : Document) (key : Key) (v : Value String) : Option Document :=
  if d.isClosed key then none
  else do
    let last ← key.getLast?
    let root ← changeAt false (setNew last v) key.dropLast d.root
    return { d with root, closed := if closes v then key :: d.closed else d.closed }

end Document

end WasmPackage.Toml
