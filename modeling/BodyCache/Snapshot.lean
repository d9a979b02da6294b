import BodyCache.Container.File
import BodyCache.Container.Index
import BodyCache.Settings
import BodyCache.SymbolMap.Index
import BodyCache.SymbolMap.Schema

/-!
# Snapshots

A snapshot is what one compilation leaves for the next: a container and the map beside it, in two
files. The container is written first. Folders are made where they are missing. When both files
are bad, the container's fault is reported.

A container file may announce a text for which the machine has no memory. This is not an error that
could be reported: it ends the process.

## Main statements

* `Snapshot.load`: reads the two files.
* `Snapshot.store`: writes them.
-/

namespace BodyCache

/-! ### Errors -/

/-- Why a container file could not be read or written. -/
inductive ContainerError where
  | refused (path : Path) (cause : FileError)
  | faulty (path : Path) (fault : ContainerFault)
  deriving DecidableEq

/-- Why a map file could not be read or written. -/
inductive MapError where
  | refused (path : Path) (cause : FileError)
  | faulty (path : Path) (fault : MapFault)
  deriving DecidableEq

/-- The process has ended, because there was no memory for so many bytes. -/
structure OutOfMemory where
  bytes : Nat
  deriving DecidableEq

/-- Why a snapshot could not be read or written. -/
inductive SnapshotError where
  | container (cause : ContainerError)
  | map (cause : MapError)
  /-- Reading was given up. -/
  | aborted (reason : String)
  deriving DecidableEq

namespace ContainerError

/-- The room that was made for bytes that are not there. -/
def room : ContainerError → Nat
  | refused .. => 0
  | faulty _ fault => fault.room

/-- The message about an error. -/
def message : ContainerError → String
  | refused path cause => "container I/O error at " ++ path.text ++ ": " ++ cause.message
  | faulty path fault => fault.message path.text

end ContainerError

namespace MapError

/-- The message about an error. -/
def message : MapError → String
  | refused path cause => "map file I/O error at " ++ path.text ++ ": " ++ cause.message
  | faulty path fault => fault.message path.text

end MapError

namespace SnapshotError

/-- The message about an error. -/
def message : SnapshotError → String
  | container cause => "unable to read cached container: " ++ cause.message
  | map cause => "unable to read map file: " ++ cause.message
  | aborted reason => "cache initialization aborted: " ++ reason

end SnapshotError

/-! ### Files -/

namespace FileTree

/-- Writes a file and makes the folders above it; a refusal comes with the path it concerns. -/
def save (p : Path) (content : Bytes) : ExceptT (Path × FileError) (StateM FileTree) Unit := do
  match p.parent? with
  | some above => ExceptT.adapt (above, ·) (createFolders above)
  | none => pure ()
  ExceptT.adapt (p, ·) (write p content)

end FileTree

namespace Container

/-- Reads the container file at a path. -/
def load (files : FileTree) (p : Path) : Except ContainerError Container :=
  match files.read p with
  | .error e => .error (.refused p e)
  | .ok content =>
    match ofFile content with
    | .error fault => .error (.faulty p fault)
    | .ok c => .ok c

/-- Writes a container file. -/
def store (c : Container) (p : Path) (producerVersion : String) :
    ExceptT ContainerError (StateM FileTree) Unit :=
  ExceptT.adapt (fun e => .refused e.1 e.2) (FileTree.save p (c.toFile producerVersion))

end Container

namespace SymbolMap

/-- Reads the map file at a path. -/
def load (files : FileTree) (p : Path) : Except MapError SymbolMap :=
  match files.read p with
  | .error e => .error (.refused p e)
  | .ok content =>
    match ofFile content with
    | .error fault => .error (.faulty p fault)
    | .ok m => .ok m

/-- Writes a map file. -/
def store (m : SymbolMap) (p : Path) : ExceptT MapError (StateM FileTree) Unit :=
  ExceptT.adapt (fun e => .refused e.1 e.2) (FileTree.save p m.toFile)

end SymbolMap

/-! ### Snapshots -/

/-- A container and its map, ready for lookups. -/
structure Snapshot where
  container : Container.Index
  map : SymbolMap.Index

namespace Snapshot

/-- The snapshot of a container and a map. -/
def of (c : Container) (m : SymbolMap) : Snapshot := ⟨c.index, m.index⟩

/-- The error about a container. A text too long to be addressed stops the reading altogether. -/
def errorOf : ContainerError → SnapshotError
  | .faulty _ (.header .capacityOverflow) | .faulty _ (.payload .capacityOverflow) =>
    .aborted DecodeError.capacityOverflow.word
  | e => .container e

/-- Reads a snapshot, on a machine that can make room for `memory` bytes. -/
def load (memory : Nat) (files : FileTree) (p : SnapshotPaths) :
    Except OutOfMemory (Except SnapshotError Snapshot) :=
  match Container.load files p.container with
  | .error e => if memory < e.room then .error ⟨e.room⟩ else .ok (.error (errorOf e))
  | .ok c =>
    match SymbolMap.load files p.map with
    | .error e => .ok (.error (.map e))
    | .ok m => .ok (.ok (of c m))

/-- Writes a snapshot: the container, then the map. -/
def store (p : SnapshotPaths) (c : Container) (m : SymbolMap) :
    ExceptT SnapshotError (StateM FileTree) Unit := do
  ExceptT.adapt .container (c.store p.container m.producerVersion)
  ExceptT.adapt .map (m.store p.map)

end Snapshot

end BodyCache
