/-!
# Items of TOML

What a document holds, and the rules by which keys and headers put it together. A table is defined
by a header, implied by a header of a table inside it, or made by a dotted key. It may be extended
by dotted keys only if such keys made it, and it may be given a header only if it was implied.

## Main statements

* `Toml.insertPair?`: a value put at a dotted key.
* `Toml.Assembly.openTable?`, `Toml.Assembly.openElement?`: the effect of headers.
-/

namespace BodyCache.Toml

/-- How a table came about. -/
inductive TableKind where
  | defined
  | implied
  | dotted
  deriving DecidableEq, Repr

/-- An item of a document. Numbers are kept without their value. -/
inductive Item where
  | text (s : String)
  | boolean (b : Bool)
  | number
  | moment
  | array (items : List Item)
  | inline (entries : List (String × Item))
  | table (kind : TableKind) (entries : List (String × Item))
  /-- A list of tables, each opened by a header of its own. -/
  | tables (elements : List (List (String × Item)))

/-- The content of a table. -/
abbrev Entries := List (String × Item)

/-- The content with another item under a key that is there. -/
def replace (entries : Entries) (key : String) (item : Item) : Entries :=
  entries.map fun e => if e.1 = key then (key, item) else e

/-- Changes the table that a path leads to; `change` is told how that table came about. Missing
tables are made. Dotted keys make dotted tables and do not enter defined ones; headers make implied
tables and enter all. A list of tables is entered at its last element. -/
def changeAt? (byKey : Bool) (change : TableKind → Entries → Option Entries) :
    List String → TableKind → Entries → Option Entries
  | [], kind, entries => change kind entries
  | part :: path, _, entries =>
    match entries.lookup part with
    | none => do
      let kind := if byKey then TableKind.dotted else TableKind.implied
      let inner ← changeAt? byKey change path kind []
      return entries ++ [(part, .table kind inner)]
    | some (.table kind inner) =>
      if byKey ∧ kind = .defined then none
      else do
        let inner ← changeAt? byKey change path kind inner
        return replace entries part (.table kind inner)
    | some (.tables elements) => do
      let last ← elements.getLast?
      let last ← changeAt? byKey change path .defined last
      return replace entries part (.tables (elements.dropLast ++ [last]))
    | some _ => none

/-- Adds an item under a new key. -/
def insertNew? (entries : Entries) (key : String) (item : Item) : Option Entries :=
  match entries.lookup key with
  | none => some (entries ++ [(key, item)])
  | some _ => none

/-- Puts a value at a dotted key. A table that the key leads into must have been made by dotted
keys. -/
def insertPair? (key : List String) (item : Item) (entries : Entries) : Option Entries := do
  let name ← key.getLast?
  let path := key.dropLast
  changeAt? true
    (fun kind inner => if path ≠ [] ∧ kind ≠ .dotted then none else insertNew? inner name item)
    path .defined entries

/-! ### Headers -/

/-- A document that is being put together: what the closed tables hold, and the table that is
open now, at its path. -/
structure Assembly where
  root : Entries := []
  path : List String := []
  isElement : Bool := false
  current : Entries := []

namespace Assembly

/-- Adds the open table to the list of tables at a key. -/
def addElement? (entries : Entries) (key : String) (element : Entries) : Option Entries :=
  match entries.lookup key with
  | none => some (entries ++ [(key, .tables [element])])
  | some (.tables elements) => some (replace entries key (.tables (elements ++ [element])))
  | some _ => none

/-- The content of the document once the open table is closed. -/
def close? (a : Assembly) : Option Entries :=
  match a.path.getLast? with
  | none => some a.current
  | some key =>
    let add := fun _ entries =>
      if a.isElement then addElement? entries key a.current
      else insertNew? entries key (.table .defined a.current)
    changeAt? false add a.path.dropLast .defined a.root

/-- The content without what is under a key. -/
def drop (entries : Entries) (key : String) : Entries := entries.filter (·.1 ≠ key)

/-- What the table at a path holds, nothing if there is none. -/
def contentAt : List String → Entries → Entries
  | [], entries => entries
  | part :: path, entries =>
    match entries.lookup part with
    | some (.table _ inner) => contentAt path inner
    | some (.tables elements) => contentAt path (elements.getLast?.getD [])
    | _ => []

/-- The effect of a header of a table: an implied table is taken out and goes on as the open one. -/
def openTable? (a : Assembly) (path : List String) : Option Assembly := do
  let root ← a.close?
  let key ← path.getLast?
  let current ← match (contentAt path.dropLast root).lookup key with
    | none => some []
    | some (.table .implied inner) => some inner
    | some _ => none
  let root ← changeAt? false (fun _ entries => some (drop entries key)) path.dropLast .defined root
  return { root, path, isElement := false, current }

/-- The effect of a header of a list element. -/
def openElement? (a : Assembly) (path : List String) : Option Assembly := do
  let root ← a.close?
  let key ← path.getLast?
  let check := fun _ entries =>
    match entries.lookup key with
    | none | some (.tables _) => some entries
    | some _ => none
  let root ← changeAt? false check path.dropLast .defined root
  return { root, path, isElement := true, current := [] }

/-- The effect of a key with its value. -/
def addPair? (a : Assembly) (key : List String) (item : Item) : Option Assembly := do
  return { a with current := ← insertPair? key item a.current }

end Assembly

end BodyCache.Toml
