import BodyCache.Proofs.Snapshot.Cut
import BodyCache.Proofs.Snapshot.Opening

/-!
# Histories of Storing

Many calls may store snapshots at many paths, and each of them may fail at any point. This module
says what a failing call may leave, and what can then be opened.

A call saves two files, the container first. An attempt at saving a file may be refused before the
file is touched, with some folders made; otherwise it leaves the beginning of the content, which is
all of it if the attempt succeeds. Nothing relates the two files to one another, and two container
files whose names differ in the extension only share their map file. So a pair may be opened that
was never stored, and it may be opened as well after a call that stops between its two files.

What can be opened is decided by the last call that wrote to either of the two files. If it was made
for both of them and did not stop just between them, then its container and its map are opened: had
it stopped elsewhere, one of the files would have been cut off.

## Main results

* `StoreCall.exists_storing`: running a call is one of the ways of storing.
* `History.content?_eq`: what the files hold after a history.
* `Snapshot.mixed_pair_is_opened`: a pair that was never stored is opened.
* `History.opened_of_last_store`: what is opened after a history.
* `History.mixed_pair_of_stopped_call`: a call that stops between its files leaves a mixed pair.
-/

namespace BodyCache

/-! ### Attempts at saving a file -/

/-- What an attempt at saving a file leaves: the part of the content that was written, if the file
was touched at all, and the tree. -/
inductive Attempt (p : Path) (content : Bytes) (t : FileTree) : Option Bytes → FileTree → Prop
  /-- The attempt ends before the file is touched. -/
  | refused {after : FileTree} (grown : t.Grows after) : Attempt p content t none after
  /-- The attempt ends with the beginning of the content in the file, or with all of it. -/
  | written {above after : FileTree} {part : Bytes} (grown : t.Grows above)
      (start : part <+: content)
      (done : above.perform (FileTree.write p part) = (.ok (), after)) :
      Attempt p content t (some part) after

namespace Attempt

variable {p : Path} {content : Bytes} {t after : FileTree} {left : Option Bytes}

/-- What was written is the beginning of the content. -/
theorem isPrefix_of_left (h : Attempt p content t left after) {part : Bytes}
    (hleft : left = some part) : part <+: content := by
  cases h with
  | refused => cases hleft
  | written _ start _ =>
      cases hleft
      exact start

/-- An attempt leaves the folder that relative paths start from. -/
theorem home_eq (h : Attempt p content t left after) : after.home = t.home := by
  cases h with
  | refused grown => exact grown.home
  | written grown _ done => exact (FileTree.home_of_write done).trans grown.home

/-- An attempt changes the content of the place that its path leads to, if it touches the file. -/
theorem content?_eq (h : Attempt p content t left after) (place : Place) :
    after.content? place =
      (if place = t.destination p then left else none).or (t.content? place) := by
  cases h with
  | refused grown =>
      rw [grown.content?_eq, ite_self]
      rfl
  | written grown _ done =>
      rw [FileTree.content?_of_write done, FileTree.destination_congr grown.home,
        grown.content?_eq]
      split <;> rfl

/-- Running a save is an attempt, which leaves all of the content if it succeeds. -/
theorem exists_of_save (p : Path) (content : Bytes) (t : FileTree) :
    ∃ left, Attempt p content t left (t.perform (FileTree.save p content)).2 ∧
      ((t.perform (FileTree.save p content)).1 = .ok () → left = some content) := by
  have hgrown := FileTree.grows_foldersAbove t p
  rw [FileTree.perform_save]
  generalize t.perform (FileTree.foldersAbove p) = made at hgrown ⊢
  obtain ⟨e | _, above⟩ := made
  · exact ⟨none, .refused hgrown, nofun⟩
  · rcases hwrite : above.perform (FileTree.write p content) with ⟨e | _, after⟩
    · obtain rfl := FileTree.eq_of_write_error hwrite
      simp only [hwrite]
      exact ⟨none, .refused hgrown, nofun⟩
    · simp only [hwrite]
      exact ⟨some content, .written hgrown List.prefix_rfl hwrite, fun _ => rfl⟩

end Attempt

/-! ### Calls -/

/-- A call that stores a snapshot. -/
structure StoreCall where
  paths : SnapshotPaths
  container : Container
  map : SymbolMap

namespace StoreCall

/-- The container file that is to be written. -/
def containerFile (k : StoreCall) : Bytes := k.container.toFile k.map.producerVersion

/-- The map file that is to be written. -/
def mapFile (k : StoreCall) : Bytes := k.map.toFile

/-- What a call leaves: the parts of the two files that were written, and the tree. -/
inductive Storing (k : StoreCall) (t : FileTree) :
    Option Bytes → Option Bytes → FileTree → Prop
  /-- The call ends with the container file. -/
  | stopped {left : Option Bytes} {after : FileTree}
      (container : Attempt k.paths.container k.containerFile t left after) :
      Storing k t left none after
  /-- The call goes on to the map file. -/
  | continued {between after : FileTree} {left : Option Bytes}
      (container : Attempt k.paths.container k.containerFile t (some k.containerFile) between)
      (map : Attempt k.paths.map k.mapFile between left after) :
      Storing k t (some k.containerFile) left after

/-- **Running a call is one of the ways of storing**; both files are whole if it succeeds. -/
theorem exists_storing (k : StoreCall) (t : FileTree) :
    ∃ left left',
      k.Storing t left left' (t.perform (Snapshot.store k.paths k.container k.map)).2 ∧
      ((t.perform (Snapshot.store k.paths k.container k.map)).1 = .ok () →
        left = some k.containerFile ∧ left' = some k.mapFile) := by
  obtain ⟨left, hcontainer, hwhole⟩ :=
    Attempt.exists_of_save k.paths.container k.containerFile t
  rw [containerFile] at hcontainer hwhole
  rw [Snapshot.perform_store]
  rcases hfirst : t.perform (FileTree.save k.paths.container
      (k.container.toFile k.map.producerVersion)) with ⟨e | _, between⟩
  · rw [hfirst] at hcontainer
    exact ⟨left, none, .stopped hcontainer, nofun⟩
  · rw [hfirst] at hcontainer hwhole
    obtain ⟨left', hmap, hwhole'⟩ := Attempt.exists_of_save k.paths.map k.mapFile between
    obtain rfl := hwhole rfl
    refine ⟨_, left', .continued hcontainer hmap, fun hok => ⟨rfl, hwhole' ?_⟩⟩
    simp only at hok
    rcases hsecond : (between.perform (FileTree.save k.paths.map k.map.toFile)).1 with e | _
    · rw [hsecond] at hok
      cases hok
    · exact hsecond

end StoreCall

/-! ### A map file that two containers share -/

/-! Two container files in one folder, whose names differ in the extension only, have the same map
file. The second call finds the module `App` in a later version and emits nothing. -/

namespace SharedMap

/-- A map of the class that was compiled from `App`, with the fingerprint of a version of `App`. -/
def mapFor (fingerprint : Fingerprint) : SymbolMap where
  formatVersion := 1
  producerVersion := "0.1.0"
  generatedClass := none
  modules := [⟨"App", fingerprint⟩]
  types := [Supplanted.fooEntry]

/-- The call that stores the class. -/
def first : StoreCall where
  paths := .inFolder ⟨"cache"⟩ "a.dex"
  container := Supplanted.container
  map := mapFor
    ⟨[244, 213, 93, 22, 78, 4, 7, 138, 183, 27, 131, 175, 21, 208, 111, 20], rfl⟩

/-- The call that stores nothing, but the later version of `App`. -/
def second : StoreCall where
  paths := .inFolder ⟨"cache"⟩ "a.bin"
  container := ⟨[]⟩
  map := mapFor
    ⟨[75, 54, 70, 102, 201, 120, 127, 123, 24, 72, 184, 115, 226, 160, 67, 241], rfl⟩

/-- The tree after both calls, with the contents of the files that each of them writes. -/
def treeAfterTwo (c m c' m' : Bytes) : FileTree :=
  Cache.withCached (Cache.withCached (Cache.withPair c m) "a.bin" c') "a.dexmap" m'

/-- A second container is saved beside the first one. -/
theorem perform_save_bin (c m c' : Bytes) :
    (Cache.withPair c m).perform (FileTree.save ⟨"cache/a.bin"⟩ c') =
      (.ok (), Cache.withCached (Cache.withPair c m) "a.bin" c') := rfl

/-- The map of the second container takes the place of the first map. -/
theorem perform_save_again (c m c' m' : Bytes) :
    (Cache.withCached (Cache.withPair c m) "a.bin" c').perform
        (FileTree.save ⟨"cache/a.dexmap"⟩ m') =
      (.ok (), treeAfterTwo c m c' m') := rfl

/-- The first container is still read after the second call. -/
theorem read_container_two (c m c' m' : Bytes) :
    (treeAfterTwo c m c' m').read ⟨"cache/a.dex"⟩ = .ok c := rfl

/-- The second map is read after the second call. -/
theorem read_map_two (c m c' m' : Bytes) :
    (treeAfterTwo c m c' m').read ⟨"cache/a.dexmap"⟩ = .ok m' := rfl

/-- The tree after the first call. -/
def afterFirst : FileTree := Cache.withPair first.containerFile first.mapFile

/-- The tree after both calls. -/
def afterSecond : FileTree :=
  treeAfterTwo first.containerFile first.mapFile second.containerFile second.mapFile

/-- The files of the first call. -/
theorem paths_first : first.paths = ⟨⟨"cache/a.dex"⟩, ⟨"cache/a.dexmap"⟩⟩ := by decide

/-- The files of the second call. -/
theorem paths_second : second.paths = ⟨⟨"cache/a.bin"⟩, ⟨"cache/a.dexmap"⟩⟩ := by decide

/-- The first call succeeds. -/
theorem perform_first :
    FileTree.empty.perform (Snapshot.store first.paths first.container first.map) =
      (.ok (), afterFirst) := by
  rw [paths_first]
  exact Cache.perform_store_empty first.container first.map

/-- The second call succeeds. -/
theorem perform_second :
    afterFirst.perform (Snapshot.store second.paths second.container second.map) =
      (.ok (), afterSecond) := by
  rw [paths_second, Snapshot.perform_store, afterFirst, perform_save_bin]
  simp only [perform_save_again]
  rfl

/-- The header of either container is short. -/
theorem length_header {k : StoreCall} (hversion : k.map.producerVersion = "0.1.0") :
    (Container.headerFor k.map.producerVersion
      (Container.codec.encode k.container)).encode.length = 27 := by
  rw [ContainerHeader.length_encode, hversion]
  rfl

/-- The payload of the first container is short. -/
theorem length_payload_first : (Container.codec.encode first.container).length < 100 := by decide

/-- The container of either call is loaded wherever its file is read. -/
theorem load_container {t : FileTree} {k : StoreCall} (hversion : k.map.producerVersion = "0.1.0")
    (hpayload : (Container.codec.encode k.container).length < 100)
    (h : t.read ⟨"cache/a.dex"⟩ = .ok k.containerFile) :
    Container.load t first.paths.container = .ok k.container := by
  have haddress : (Container.codec.encode k.container).length < Codec.addressLimit :=
    Nat.lt_trans hpayload (by decide)
  have hheader : (Container.headerFor k.map.producerVersion
      (Container.codec.encode k.container)).encode.length < UInt32.size := by
    rw [length_header hversion]
    decide
  rw [paths_first]
  exact Container.load_eq_ok_iff.mpr ⟨_, h, Container.ofFile_toFile haddress hheader⟩

/-- The map of either call is loaded wherever its file is read. -/
theorem load_map {t : FileTree} {k : StoreCall} (hversion : k.map.formatVersion = 1)
    (h : t.read ⟨"cache/a.dexmap"⟩ = .ok k.mapFile) :
    SymbolMap.load t first.paths.map = .ok k.map := by
  have hfile : SymbolMap.ofFile k.mapFile = .ok k.map :=
    (SymbolMap.ofFile_toFile k.map).trans (if_pos hversion)
  rw [paths_first]
  exact SymbolMap.load_eq_ok_iff.mpr ⟨_, h, hfile⟩

/-- The maps of the two calls differ. -/
theorem map_ne : first.map ≠ second.map := by
  intro h
  exact absurd (congrArg SymbolMap.modules h) (by decide)

/-- The containers of the two calls differ. -/
theorem container_ne : second.container ≠ first.container := by
  intro h
  exact absurd (congrArg (·.classes.length) h) (by decide)

end SharedMap

/-- **A pair that was never stored is opened.** After two calls that succeed, for two container
files with names that the settings accept, the container of the first one is opened with the map of
the second one. -/
theorem Snapshot.mixed_pair_is_opened :
    (∀ name ∈ ["a.dex", "a.bin"], Settings.check { containerFile := name } =
        .ok { containerFile := name }) ∧
      SharedMap.first.paths = .inFolder ⟨"cache"⟩ "a.dex" ∧
      SharedMap.second.paths = .inFolder ⟨"cache"⟩ "a.bin" ∧
      ∃ between after,
        FileTree.empty.perform (store SharedMap.first.paths SharedMap.first.container
          SharedMap.first.map) = (.ok (), between) ∧
        between.perform (store SharedMap.second.paths SharedMap.second.container
          SharedMap.second.map) = (.ok (), after) ∧
        (∃ cache notices, Cache.open Cache.addressSpace after SharedMap.first.paths =
          .ok (cache, notices) ∧ cache.isReady = true) ∧
        Container.load after SharedMap.first.paths.container = .ok SharedMap.first.container ∧
        SymbolMap.load after SharedMap.first.paths.map = .ok SharedMap.second.map ∧
        ∀ k ∈ [SharedMap.first, SharedMap.second],
          ¬(k.container = SharedMap.first.container ∧ k.map = SharedMap.second.map) := by
  have hcontainer : Container.load SharedMap.afterSecond SharedMap.first.paths.container =
      .ok SharedMap.first.container :=
    SharedMap.load_container rfl SharedMap.length_payload_first (SharedMap.read_container_two ..)
  have hmap : SymbolMap.load SharedMap.afterSecond SharedMap.first.paths.map =
      .ok SharedMap.second.map := SharedMap.load_map rfl (SharedMap.read_map_two ..)
  refine ⟨by decide, rfl, rfl, SharedMap.afterFirst, SharedMap.afterSecond,
    SharedMap.perform_first, SharedMap.perform_second, ?_, hcontainer, hmap, ?_⟩
  · exact ⟨_, _, Cache.open_of_load (load_eq_ok_iff.mpr ⟨_, _, hcontainer, hmap, rfl⟩), rfl⟩
  · intro k hk
    obtain rfl | hk := List.mem_cons.mp hk
    · exact fun h => SharedMap.map_ne h.2
    · obtain rfl := List.mem_singleton.mp hk
      exact fun h => SharedMap.container_ne h.1

/-! ### Histories -/

/-- A call and what it wrote. -/
structure StoreEvent extends StoreCall where
  containerLeft : Option Bytes
  mapLeft : Option Bytes

namespace StoreEvent

/-- What the event leaves at a place, if it writes there. -/
def leaves (t : FileTree) (place : Place) (e : StoreEvent) : Option Bytes :=
  (if place = t.destination e.paths.map then e.mapLeft else none).or
    (if place = t.destination e.paths.container then e.containerLeft else none)

/-- Whether the event writes to one of the two files of a snapshot. -/
def touches (t : FileTree) (p : SnapshotPaths) (e : StoreEvent) : Bool :=
  (e.leaves t (t.destination p.container)).isSome || (e.leaves t (t.destination p.map)).isSome

/-- The call was made for both files of a snapshot. -/
def Addresses (t : FileTree) (p : SnapshotPaths) (e : StoreEvent) : Prop :=
  t.destination p.container = t.destination e.paths.container ∧
    t.destination p.map = t.destination e.paths.map

/-- The call ended after writing all of the container file and before touching the map file. -/
def StoppedBetween (e : StoreEvent) : Prop :=
  e.containerLeft = some e.containerFile ∧ e.mapLeft = none

end StoreEvent

/-- The trees that a series of events may lead to, the latest event first. -/
inductive History (start : FileTree) : List StoreEvent → FileTree → Prop
  | nil : History start [] start
  | cons {events : List StoreEvent} {t after : FileTree} {e : StoreEvent}
      (before : History start events t)
      (storing : e.Storing t e.containerLeft e.mapLeft after) :
      History start (e :: events) after

namespace StoreCall.Storing

variable {t after : FileTree}

/-- Storing leaves the folder that relative paths start from. -/
theorem home_eq {k : StoreCall} {left left' : Option Bytes}
    (h : k.Storing t left left' after) : after.home = t.home := by
  cases h with
  | stopped container => exact container.home_eq
  | continued container map => exact map.home_eq.trans container.home_eq

/-- **An event changes the contents of the places that it writes to**, and no others. -/
theorem content?_eq {e : StoreEvent} (h : e.Storing t e.containerLeft e.mapLeft after)
    (place : Place) :
    after.content? place = (e.leaves t place).or (t.content? place) := by
  rw [StoreEvent.leaves]
  generalize e.containerLeft = left at h
  generalize e.mapLeft = left' at h
  cases h with
  | stopped container =>
      rw [container.content?_eq, ite_self]
      rfl
  | continued container map =>
      rw [map.content?_eq, container.content?_eq, Option.or_assoc,
        FileTree.destination_congr container.home_eq]

/-- What was written to the container file is the beginning of it. -/
theorem isPrefix_containerFile {k : StoreCall} {left left' : Option Bytes}
    (h : k.Storing t left left' after) {part : Bytes} (hleft : left = some part) :
    part <+: k.containerFile := by
  cases h with
  | stopped container => exact container.isPrefix_of_left hleft
  | continued container map => exact container.isPrefix_of_left hleft

/-- The map file is touched only after all of the container file was written, and what was written
to it is the beginning of it. -/
theorem isPrefix_mapFile {k : StoreCall} {left left' : Option Bytes}
    (h : k.Storing t left left' after) {part : Bytes} (hleft : left' = some part) :
    left = some k.containerFile ∧ part <+: k.mapFile := by
  cases h with
  | stopped container => cases hleft
  | continued container map => exact ⟨rfl, map.isPrefix_of_left hleft⟩

/-- An event that writes to a file writes to its container file. -/
theorem containerLeft_ne_none {e : StoreEvent} (h : e.Storing t e.containerLeft e.mapLeft after)
    {start : FileTree} {p : SnapshotPaths} (htouches : e.touches start p = true) :
    e.containerLeft ≠ none := by
  intro hcontainerLeft
  have hmapLeft : e.mapLeft = none := by
    cases hmapLeft : e.mapLeft with
    | none => rfl
    | some part =>
        have hwhole := (h.isPrefix_mapFile hmapLeft).1
        rw [hcontainerLeft] at hwhole
        cases hwhole
  have hnowhere : ∀ place, e.leaves start place = none := by
    intro place
    rw [StoreEvent.leaves, hcontainerLeft, hmapLeft, ite_self, ite_self]
    rfl
  rw [StoreEvent.touches, hnowhere, hnowhere] at htouches
  cases htouches

/-- **What an event has left decides what is read.** If both files hold what the event has left
there, if both are read, and if the event did not stop between them, then they are read as the
container and the map of the event. -/
theorem eq_of_left {e : StoreEvent} (h : e.Storing t e.containerLeft e.mapLeft after)
    {start : FileTree} {x y : Bytes} {c : Container} {m : SymbolMap}
    (haddress : e.containerFile.length < Codec.addressLimit)
    (htouched : e.containerLeft ≠ none) (hbetween : ¬e.StoppedBetween)
    (hx : ∀ part, e.leaves start (start.destination e.paths.container) = some part → x = part)
    (hy : ∀ part, e.leaves start (start.destination e.paths.map) = some part → y = part)
    (hc : Container.ofFile x = .ok c) (hm : SymbolMap.ofFile y = .ok m) :
    c = e.container ∧ m = e.map := by
  cases hmapLeft : e.mapLeft with
  | none =>
      -- The map file was not touched, so the container file was cut off, and is refused.
      exfalso
      obtain ⟨part, hcontainerLeft⟩ := Option.ne_none_iff_exists'.mp htouched
      have hpart : e.leaves start (start.destination e.paths.container) = some part := by
        rw [StoreEvent.leaves, hmapLeft, ite_self, Option.none_or, if_pos rfl, hcontainerLeft]
      obtain rfl := hx part hpart
      obtain ⟨missing, hfile⟩ := h.isPrefix_containerFile hcontainerLeft
      obtain ⟨-, rfl⟩ := Container.of_ofFile_cut haddress hfile.symm hc
      rw [List.append_nil] at hfile
      exact hbetween ⟨hcontainerLeft.trans (congrArg some hfile), hmapLeft⟩
  | some part =>
      -- The container file was written as a whole before the map file was touched.
      obtain ⟨hcontainerLeft, missing, hfile⟩ := h.isPrefix_mapFile hmapLeft
      have hpart : e.leaves start (start.destination e.paths.map) = some part := by
        rw [StoreEvent.leaves, if_pos rfl, hmapLeft, Option.some_or]
      obtain rfl := hy part hpart
      have hplaces : start.destination e.paths.container ≠ start.destination e.paths.map := by
        intro hsame
        rw [← hsame] at hpart
        obtain rfl := hx y hpart
        exact SymbolMap.ofFile_cut_ne_ok hfile.symm hc
      have hwhole : e.leaves start (start.destination e.paths.container) =
          some e.containerFile := by
        rw [StoreEvent.leaves, if_neg hplaces, Option.none_or, if_pos rfl, hcontainerLeft]
      obtain rfl := hx _ hwhole
      exact ⟨(Container.of_ofFile_cut haddress (List.append_nil e.containerFile).symm hc).1,
        (SymbolMap.of_ofFile_cut hfile.symm hm).1⟩

end StoreCall.Storing

namespace History

variable {start t : FileTree} {events : List StoreEvent}

/-- A history leaves the folder that relative paths start from. -/
theorem home_eq (h : History start events t) : t.home = start.home := by
  induction h with
  | nil => rfl
  | cons _ storing ih => exact storing.home_eq.trans ih

/-- Every event of a history is one of the ways of storing. -/
theorem exists_storing_of_mem (h : History start events t) {e : StoreEvent} (he : e ∈ events) :
    ∃ before after, e.Storing before e.containerLeft e.mapLeft after := by
  induction h with
  | nil => cases he
  | cons _ storing ih =>
      obtain rfl | he := List.mem_cons.mp he
      · exact ⟨_, _, storing⟩
      · exact ih he

/-- **What a file holds after a history** is what the latest event that wrote to it has left. -/
theorem content?_eq (h : History start events t) (place : Place) :
    t.content? place =
      (events.findSome? (·.leaves start place)).or (start.content? place) := by
  induction h with
  | nil => rfl
  | @cons events before after e history storing ih =>
      have hleaves : e.leaves before place = e.leaves start place := by
        rw [StoreEvent.leaves, StoreEvent.leaves, FileTree.destination_congr history.home_eq,
          FileTree.destination_congr history.home_eq]
      rw [storing.content?_eq, ih, hleaves, List.findSome?_cons]
      cases e.leaves start place <;> rfl

/-- If a file is there that was not there at the start, there is a latest event that wrote to one of
the two files of the snapshot, and the files hold what that event and those before it have left. -/
theorem exists_last {p : SnapshotPaths} (h : History start events t)
    (hnew : start.content? (start.destination p.container) = none) {content : Bytes}
    (hcontent : t.content? (start.destination p.container) = some content) :
    ∃ later e earlier, events = later ++ e :: earlier ∧
      (∀ x ∈ later, x.touches start p = false) ∧ e.touches start p = true ∧
      ∀ place, place = start.destination p.container ∨ place = start.destination p.map →
        ∀ part, e.leaves start place = some part → t.content? place = some part := by
  rw [h.content?_eq, hnew, Option.or_none] at hcontent
  obtain ⟨writer, hwriter, hleft⟩ := List.exists_of_findSome?_eq_some hcontent
  have htouches : writer.touches start p = true := by
    rw [StoreEvent.touches, hleft]
    rfl
  obtain ⟨e, hlast⟩ : ∃ e, events.find? (·.touches start p) = some e :=
    Option.isSome_iff_exists.mp (List.find?_isSome.mpr ⟨writer, hwriter, htouches⟩)
  obtain ⟨htouched, later, earlier, rfl, hlater⟩ := List.find?_eq_some_iff_append.mp hlast
  refine ⟨later, e, earlier, rfl, fun x hx => by simpa using hlater x hx, htouched, ?_⟩
  intro place hplace part hpart
  have hskipped : later.findSome? (·.leaves start place) = none := by
    refine List.findSome?_eq_none_iff.mpr fun x hx => ?_
    have hx : x.touches start p = false := by simpa using hlater x hx
    obtain ⟨hcontainer, hmap⟩ := Bool.or_eq_false_iff.mp hx
    obtain rfl | rfl := hplace
    · simpa using hcontainer
    · simpa using hmap
  rw [h.content?_eq, List.findSome?_append, hskipped, List.findSome?_cons, hpart]
  rfl

/-- **What is opened after a history.** If a cache is opened from two files, the first of which was
not there at the start, and is ready, then some call wrote to one of the files. If the last such
call was made for both of them, and did not end after writing all of the container file and before
touching the map file, then the container and the map that are loaded are those of this call. The
container files can be addressed, like any byte string in memory. -/
theorem opened_of_last_store {p : SnapshotPaths} {memory : Nat} {cache : Cache}
    {notices : List Notice} (h : History start events t)
    (hnew : start.content? (start.destination p.container) = none)
    (haddress : ∀ e ∈ events, e.containerFile.length < Codec.addressLimit)
    (hopen : Cache.open memory t p = .ok (cache, notices)) (hready : cache.isReady = true) :
    ∃ later e earlier, events = later ++ e :: earlier ∧
      (∀ x ∈ later, x.touches start p = false) ∧ e.touches start p = true ∧
      (e.Addresses start p → ¬e.StoppedBetween →
        Container.load t p.container = .ok e.container ∧
          SymbolMap.load t p.map = .ok e.map ∧
            cache.snapshot = some (.of e.container e.map)) := by
  obtain ⟨-, -, ⟨c, hcontainer⟩, ⟨m, hmap⟩⟩ := (Cache.isReady_iff_of_open hopen).mp hready
  obtain ⟨x, hx, hc⟩ := Container.load_eq_ok_iff.mp hcontainer
  obtain ⟨y, hy, hm⟩ := SymbolMap.load_eq_ok_iff.mp hmap
  have hxcontent := FileTree.content?_of_read hx
  have hycontent := FileTree.content?_of_read hy
  rw [FileTree.destination_congr h.home_eq] at hxcontent hycontent
  obtain ⟨later, e, earlier, rfl, hlater, htouches, hleft⟩ := h.exists_last hnew hxcontent
  refine ⟨later, e, earlier, rfl, hlater, htouches, ?_⟩
  rintro ⟨hcontainerPlace, hmapPlace⟩ hbetween
  have hmem : e ∈ later ++ e :: earlier := List.mem_append_right _ List.mem_cons_self
  obtain ⟨_, _, hstoring⟩ := h.exists_storing_of_mem hmem
  rw [hcontainerPlace] at hxcontent
  rw [hmapPlace] at hycontent
  have hxleft : ∀ part, e.leaves start (start.destination e.paths.container) = some part →
      x = part := by
    intro part hpart
    have hheld := hleft _ (.inl hcontainerPlace.symm) part hpart
    exact Option.some.inj (hxcontent.symm.trans hheld)
  have hyleft : ∀ part, e.leaves start (start.destination e.paths.map) = some part →
      y = part := by
    intro part hpart
    have hheld := hleft _ (.inr hmapPlace.symm) part hpart
    exact Option.some.inj (hycontent.symm.trans hheld)
  obtain ⟨rfl, rfl⟩ := hstoring.eq_of_left (haddress e hmem)
    (hstoring.containerLeft_ne_none htouches) hbetween hxleft hyleft hc hm
  refine ⟨hcontainer, hmap, (Cache.snapshot_eq_some_iff_of_open hopen).mpr ?_⟩
  exact Snapshot.load_eq_ok_iff.mpr ⟨_, _, hcontainer, hmap, rfl⟩

end History

namespace SharedMap

/-- The first call, when both files are written. -/
def stored : StoreEvent :=
  { first with containerLeft := some first.containerFile, mapLeft := some first.mapFile }

/-- The first call, made once more and refused before a file is touched. -/
def refused : StoreEvent := { first with containerLeft := none, mapLeft := none }

/-- The second call, made for the files of the first one and stopped between them. -/
def interrupted : StoreEvent :=
  { second with
    paths := first.paths
    containerLeft := some second.containerFile
    mapLeft := none }

/-- The tree after the first call and the interrupted one. -/
def afterInterrupted : FileTree := Cache.withCached afterFirst "a.dex" second.containerFile

/-- The container file of the first call is written once more. -/
theorem perform_save_dex (c m c' : Bytes) :
    (Cache.withPair c m).perform (FileTree.save ⟨"cache/a.dex"⟩ c') =
      (.ok (), Cache.withCached (Cache.withPair c m) "a.dex" c') := rfl

/-- The first call writes both files. -/
theorem storing_stored :
    stored.Storing .empty stored.containerLeft stored.mapLeft afterFirst := by
  obtain ⟨_, _, hstoring, hwhole⟩ := first.exists_storing .empty
  rw [perform_first] at hstoring hwhole
  obtain ⟨rfl, rfl⟩ := hwhole rfl
  exact hstoring

/-- The interrupted call writes the container file. -/
theorem storing_interrupted :
    interrupted.Storing afterFirst interrupted.containerLeft interrupted.mapLeft
      afterInterrupted := by
  obtain ⟨left, hattempt, hwhole⟩ :=
    Attempt.exists_of_save ⟨"cache/a.dex"⟩ second.containerFile afterFirst
  rw [afterFirst, perform_save_dex] at hattempt hwhole
  obtain rfl := hwhole rfl
  refine .stopped ?_
  have hpath : interrupted.paths.container = ⟨"cache/a.dex"⟩ := congrArg (·.container) paths_first
  rw [hpath]
  exact hattempt

/-- The files of the first call can be addressed. -/
theorem length_containerFile_first : first.containerFile.length < Codec.addressLimit := by
  have hpayload := length_payload_first
  have hlimit : 4 + (27 + 100) < Codec.addressLimit := by decide
  rw [StoreCall.containerFile, Container.length_toFile, length_header rfl]
  omega

end SharedMap

namespace History

open SharedMap

/-- After a call that succeeds and one that is refused, the latter has not touched a file, and what
the former stored is opened. -/
theorem opened_of_last_store_sample :
    ∃ cache notices, History .empty [refused, stored] afterFirst ∧
      refused.touches .empty first.paths = false ∧ stored.touches .empty first.paths = true ∧
      stored.Addresses .empty first.paths ∧ ¬stored.StoppedBetween ∧
      Cache.open Cache.addressSpace afterFirst first.paths = .ok (cache, notices) ∧
      cache.isReady = true ∧
      Container.load afterFirst first.paths.container = .ok stored.container ∧
      SymbolMap.load afterFirst first.paths.map = .ok stored.map ∧
      cache.snapshot = some (.of stored.container stored.map) := by
  have hhistory : History .empty [refused, stored] afterFirst :=
    .cons (.cons .nil storing_stored) (.stopped (.refused (.refl _)))
  obtain ⟨hread, hread'⟩ := Cache.read_withPair first.containerFile first.mapFile
  have hcontainer := load_container rfl length_payload_first hread
  have hmap := load_map (k := first) rfl hread'
  have hload : Snapshot.load Cache.addressSpace afterFirst first.paths =
      .ok (.ok (.of first.container first.map)) :=
    Snapshot.load_eq_ok_iff.mpr ⟨_, _, hcontainer, hmap, rfl⟩
  have hopen := Cache.open_of_load hload
  have haddress : ∀ e ∈ [refused, stored], e.containerFile.length < Codec.addressLimit := by
    intro e he
    obtain rfl | he := List.mem_cons.mp he
    · exact length_containerFile_first
    · obtain rfl := List.mem_singleton.mp he
      exact length_containerFile_first
  obtain ⟨later, e, earlier, hevents, -, htouches, hloaded⟩ :=
    opened_of_last_store hhistory rfl haddress hopen rfl
  have huntouched : refused.touches .empty first.paths = false := rfl
  -- The refused call is not the one that touched the files.
  have he : e = stored := by
    have hmem : e ∈ [refused, stored] := hevents ▸ List.mem_append_right _ List.mem_cons_self
    obtain rfl | hmem := List.mem_cons.mp hmem
    · rw [huntouched] at htouches
      cases htouches
    · exact List.mem_singleton.mp hmem
  subst he
  have haddresses : stored.Addresses .empty first.paths := ⟨rfl, rfl⟩
  have hwhole : ¬stored.StoppedBetween := by
    rintro ⟨-, ⟨⟩⟩
  obtain ⟨hcontainer, hmap, hsnapshot⟩ := hloaded haddresses hwhole
  exact ⟨_, _, hhistory, huntouched, htouches, haddresses, hwhole, hopen, rfl, hcontainer, hmap,
    hsnapshot⟩

/-- **A call that stops between its two files leaves a pair that was never stored.** After a call
that succeeds, another one for the same files ends after writing all of the container file and
before touching the map file. Its container is then opened with the map of the first call. -/
theorem mixed_pair_of_stopped_call :
    ∃ after cache notices, History .empty [interrupted, stored] after ∧
      interrupted.touches .empty first.paths = true ∧
      interrupted.Addresses .empty first.paths ∧ interrupted.StoppedBetween ∧
      Cache.open Cache.addressSpace after first.paths = .ok (cache, notices) ∧
      cache.isReady = true ∧
      Container.load after first.paths.container = .ok interrupted.container ∧
      SymbolMap.load after first.paths.map = .ok stored.map ∧
      ∀ e ∈ [interrupted, stored],
        ¬(e.container = interrupted.container ∧ e.map = stored.map) := by
  have hhistory := History.cons (.cons .nil storing_stored) storing_interrupted
  have hcontainer : Container.load afterInterrupted first.paths.container =
      .ok interrupted.container := load_container (k := second) rfl (by decide) rfl
  have hmap : SymbolMap.load afterInterrupted first.paths.map = .ok stored.map :=
    load_map (k := first) rfl rfl
  have hload : Snapshot.load Cache.addressSpace afterInterrupted first.paths =
      .ok (.ok (.of interrupted.container stored.map)) :=
    Snapshot.load_eq_ok_iff.mpr ⟨_, _, hcontainer, hmap, rfl⟩
  have hopen := Cache.open_of_load hload
  refine ⟨afterInterrupted, _, _, hhistory, rfl, ⟨rfl, rfl⟩, ⟨rfl, rfl⟩, hopen, rfl, hcontainer,
    hmap, fun e he => ?_⟩
  obtain rfl | he := List.mem_cons.mp he
  · exact fun h => map_ne h.2.symm
  · obtain rfl := List.mem_singleton.mp he
    exact fun h => container_ne h.1.symm

end History

end BodyCache
