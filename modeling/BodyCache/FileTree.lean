import BodyCache.LittleEndian
import BodyCache.Path
import BodyCache.Table

/-!
# File trees

The files and folders that the cache sees, as a value. A path is followed from the root or from
the home folder: every step must start at a folder, a dot stays where it is, two dots go up, and
any other segment goes down. Reading and writing report the cause when they are refused. What an
operation has changed before it is refused stays changed.

## Main statements

* `FileTree.read`, `FileTree.write`, `FileTree.createFolders`, `FileTree.remove`.
-/

namespace BodyCache

/-- Why an operation on files was refused. -/
inductive FileError where
  | notFound
  | alreadyExists
  | notFolder
  | isFolder
  deriving DecidableEq, Repr

namespace FileError

/-- The message about a refusal. -/
def message : FileError → String
  | notFound => "No such file or directory (os error 2)"
  | alreadyExists => "File exists (os error 17)"
  | notFolder => "Not a directory (os error 20)"
  | isFolder => "Is a directory (os error 21)"

end FileError

/-- A place in the tree: the segments that lead there from the root. -/
abbrev Place := List Segment

/-- What is found at a place. -/
inductive FileNode where
  | file (content : Bytes)
  | folder
  deriving DecidableEq

/-- The files and folders, and the folder that relative paths start from. -/
structure FileTree where
  home : Place
  nodes : Table Place FileNode

/-- An operation on a file tree. -/
abbrev FileM := ExceptT FileError (StateM FileTree)

namespace FileTree

/-- The tree with nothing but the home folder. -/
def empty : FileTree where
  home := ["home".toList]
  nodes := Table.empty.insert ["home".toList] .folder

/-- What is at a place. The root is a folder. -/
def node? (t : FileTree) (place : Place) : Option FileNode :=
  if place = [] then some .folder else t.nodes.find? place

/-! ### Following paths -/

/-- One step from a folder. -/
def step (t : FileTree) (place : Place) (s : Segment) : Except FileError Place :=
  match t.node? place with
  | none => .error .notFound
  | some (.file _) => .error .notFolder
  | some .folder =>
    if s = [] ∨ s = ['.'] then .ok place
    else if s = ['.', '.'] then .ok place.dropLast
    else .ok (place ++ [s])

/-- The place that a list of segments leads to. -/
def follow (t : FileTree) (start : Place) (segments : List Segment) : Except FileError Place :=
  segments.foldlM t.step start

/-- Where a path starts. -/
def start (t : FileTree) (p : Path) : Place := if p.isAbsolute then [] else t.home

/-- The place of a path; the empty path has none. -/
def locate (t : FileTree) (p : Path) : Except FileError Place :=
  if p.text = "" then .error .notFound
  else t.follow (t.start p) (Path.split p.text.toList)

/-- Whether a path leads to a file. -/
def isFile (t : FileTree) (p : Path) : Bool :=
  match t.locate p with
  | .ok place => match t.node? place with
    | some (.file _) => true
    | _ => false
  | .error _ => false

/-- Whether a path leads to a folder. -/
def isFolder (t : FileTree) (p : Path) : Bool :=
  match t.locate p with
  | .ok place => t.node? place = some .folder
  | .error _ => false

/-- The content of the file at a path. -/
def read (t : FileTree) (p : Path) : Except FileError Bytes :=
  match t.locate p with
  | .ok place =>
    match t.node? place with
    | some (.file content) => .ok content
    | some .folder => .error .isFolder
    | none => .error .notFound
  | .error e => .error e

/-! ### Changes -/

/-- The place of a node that is to be made: its folder must be there, and its last segment, which
comes with the result, is not a dot or two dots unless the result is `none`. -/
def locateNew (t : FileTree) (p : Path) : Except FileError (Option Place) :=
  let segments := (Path.split p.text.toList).reverse.dropWhile (· = [])
  match segments with
  | [] => if p.text = "" then .error .notFound else .ok none
  | last :: before => do
    let folder ← t.follow (t.start p) before.reverse
    match t.node? folder with
    | none => .error .notFound
    | some (.file _) => .error .notFolder
    | some .folder =>
      if last = ['.'] ∨ last = ['.', '.'] then return none
      else return some (folder ++ [last])

/-- The tree with a node at a place. -/
def put (t : FileTree) (place : Place) (n : FileNode) : FileTree :=
  { t with nodes := t.nodes.insert place n }

/-- Makes a folder. -/
def createFolder (p : Path) : FileM Unit := do
  let t ← get
  match t.locateNew p with
  | .error e => throw e
  | .ok none => throw .alreadyExists
  | .ok (some place) =>
    match t.node? place with
    | some _ => throw .alreadyExists
    | none => set (t.put place .folder)

/-- Makes a folder, unless there is one. -/
def ensureFolder (p : Path) : FileM Unit := do
  try createFolder p
  catch e => if (← get).isFolder p then return else throw e

/-- Makes a folder and, at most `depth` levels up, the folders above it. -/
def createFoldersWithin : (depth : Nat) → Path → FileM Unit
  | 0, _ => throw .notFound
  | depth + 1, p =>
    if p.text = "" then return
    else do
      try createFolder p
      catch e =>
        if e = .notFound then
          match p.parent? with
          | some above =>
            createFoldersWithin depth above
            ensureFolder p
          | none => throw e
        else if (← get).isFolder p then return
        else throw e

/-- Makes a folder and the folders above it where they are missing. -/
def createFolders (p : Path) : FileM Unit :=
  createFoldersWithin (Path.split p.text.toList).length.succ p

/-- Writes a file. -/
def write (p : Path) (content : Bytes) : FileM Unit := do
  let t ← get
  match t.locateNew p with
  | .error e => throw e
  | .ok none => throw .isFolder
  | .ok (some place) =>
    if p.text.toList.getLast? = some '/' then throw .isFolder
    else if t.node? place = some .folder then throw .isFolder
    else set (t.put place (.file content))

/-- Removes what is at a path, with everything below it; the result says whether there was
anything. -/
def remove (t : FileTree) (p : Path) : Bool × FileTree :=
  match t.locate p with
  | .error _ => (false, t)
  | .ok place =>
    match t.node? place with
    | none => (false, t)
    | some _ =>
      (true, { t with nodes := ⟨t.nodes.entries.filter fun e => !place.isPrefixOf e.1⟩ })

/-- Runs an operation. -/
def run {α : Type} (t : FileTree) (x : FileM α) : Except FileError α × FileTree :=
  (ExceptT.run x).run t

/-- The tree with a file, or with a folder if there is no content, and the folders above it. -/
def provide (t : FileTree) (p : Path) (content : Option Bytes) : FileTree :=
  match content with
  | some bytes =>
    let folders : FileM Unit := match p.parent? with
      | some above => createFolders above
      | none => return
    (t.run do folders; write p bytes).2
  | none => (t.run (createFolders p)).2

end FileTree

end BodyCache
