import BodyCache.FileTree
import BodyCache.Text
import BodyCache.Toml.Document

/-!
# Settings

The settings of the cache, and the two files of a snapshot that they point to. Settings come from
the table named cache of a configuration file; what it leaves out has a default. The table may be
given as an array of its values in order, and a date counts as a table without entries.

## Main statements

* `Settings.ofText`: settings from the text of a configuration.
* `Settings.ofProject`: settings of a project folder.
-/

namespace BodyCache

/-! ### The files of a snapshot -/

/-- The paths of a container and of the map beside it. -/
structure SnapshotPaths where
  container : Path
  map : Path
  deriving DecidableEq, Repr

namespace SnapshotPaths

/-- The name of the container file unless another one is given. -/
def defaultFile : String := "classes.dex"

/-- The extension of map files. -/
def mapExtension : String := "dexmap"

/-- The paths in a folder. The map is named like the container, with its own extension. -/
def inFolder (folder : Path) (file : String) : SnapshotPaths :=
  let container := folder.join ⟨file⟩
  { container, map := container.withExtension mapExtension }

/-- Whether both files are there. -/
def exist (p : SnapshotPaths) (files : FileTree) : Bool :=
  files.isFile p.container && files.isFile p.map

end SnapshotPaths

/-! ### Settings -/

/-- The settings of the cache. -/
structure Settings where
  enabled : Bool := true
  directory : Path := ⟨".dexon-cache"⟩
  containerFile : String := SnapshotPaths.defaultFile
  deriving DecidableEq, Repr

/-- Why settings could not be loaded. -/
inductive SettingsError where
  /-- The configuration file could not be read. -/
  | unreadable (cause : FileError)
  /-- The configuration file is not a text. -/
  | notText
  /-- The configuration is not well formed, or a value has the wrong type. -/
  | malformed
  /-- The name of the container file is empty. -/
  | emptyContainerFile
  /-- The name of the container file is not the name of a file. -/
  | notAFileName (name : String)
  deriving DecidableEq, Repr

namespace SettingsError

/-- The message about a failure. -/
def message : SettingsError → String
  | unreadable cause => "failed to read configuration: " ++ cause.message
  | notText => "failed to read configuration: stream did not contain valid UTF-8"
  | malformed => "failed to parse configuration"
  | emptyContainerFile => "validation error: cache.container_file is empty"
  | notAFileName name =>
    "validation error: cache.container_file '" ++ name ++ "' is not a plain file name"

end SettingsError

namespace Settings

/-- The files that the settings point to. -/
def paths (s : Settings) : SnapshotPaths := .inFolder s.directory s.containerFile

/-! ### Reading the table -/

/-- A truth value, or the default. -/
def boolean? (default : Bool) : Option Toml.Item → Option Bool
  | none => some default
  | some (.boolean b) => some b
  | some _ => none

/-- A text, or the default. -/
def text? (default : String) : Option Toml.Item → Option String
  | none => some default
  | some (.text s) => some s
  | some _ => none

/-- Settings from the values that are given for them. -/
def ofValues? (enabled directory containerFile : Option Toml.Item) : Option Settings := do
  let default : Settings := {}
  return {
    enabled := ← boolean? default.enabled enabled
    directory := ⟨← text? default.directory.text directory⟩
    containerFile := ← text? default.containerFile containerFile }

/-- Settings from the entries of a table. -/
def ofEntries? (entries : Toml.Entries) : Option Settings :=
  ofValues? (entries.lookup "enabled") (entries.lookup "directory")
    (entries.lookup "container_file")

/-- Settings from a document. -/
def ofDocument? (document : Toml.Entries) : Option Settings :=
  match document.lookup "cache" with
  | none | some .moment => some {}
  | some (.table _ entries) | some (.inline entries) => ofEntries? entries
  | some (.array items) => ofValues? items[0]? items[1]? items[2]?
  | some _ => none

/-- Accepts settings whose container file has the name of a file. -/
def check (s : Settings) : Except SettingsError Settings :=
  if Text.isAllBlank s.containerFile then .error .emptyContainerFile
  else
    let stem := (Path.mk s.containerFile).fileStem?.getD ""
    if stem = "" ∨ '/' ∈ s.containerFile.toList ∨ '\\' ∈ s.containerFile.toList then
      .error (.notAFileName s.containerFile)
    else .ok s

/-- Settings from the text of a configuration. -/
def ofText (text : String) : Except SettingsError Settings :=
  match (Toml.parse? text).bind ofDocument? with
  | some s => s.check
  | none => .error .malformed

/-! ### Settings of a project -/

/-- The name of the configuration file. -/
def fileName : String := "dexon.toml"

/-- The settings with a relative directory seen from a project folder. -/
def within (s : Settings) (project : Path) : Settings :=
  if s.directory.isAbsolute then s else { s with directory := project.join s.directory }

/-- The settings in the configuration file at a path. -/
def ofFile (files : FileTree) (p : Path) : Except SettingsError Settings :=
  match files.read p with
  | .error e => .error (.unreadable e)
  | .ok content =>
    match Utf8.decode? content with
    | none => .error .notText
    | some text => ofText text

/-- The settings of a project folder: the defaults if it has no configuration file. -/
def ofProject (files : FileTree) (project : Path) : Except SettingsError Settings := do
  let p := project.join ⟨fileName⟩
  let s ← if files.isFile p then ofFile files p else .ok {}
  return s.within project

end Settings

end BodyCache
