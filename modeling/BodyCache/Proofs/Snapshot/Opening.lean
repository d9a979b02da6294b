import BodyCache.Proofs.Cache.Session
import BodyCache.Proofs.Container.Overdraft
import BodyCache.Proofs.SymbolMap.File

/-!
# Opening a Snapshot

Opening gives a cache. It is ready exactly when both files are there and both are read, and disabled
otherwise, for the whole session: no call makes a disabled cache ready.

There is one exception. When a text in the container file announces more bytes than are left, and
more than the machine has memory for, the process ends, and no cache is opened, not even a disabled
one. A single changed byte in the header of a file is enough.

What was stored is opened. Storing writes two files, one after the other, and makes folders before
each of them. The second write leaves the first file as it is unless both paths lead to the same
place, so each file is read as it was written, and both files are read back.

## Main results

* `Snapshot.perform_store`: storing a snapshot is saving two files.
* `Snapshot.load_eq_ok_iff`: when a snapshot is loaded.
* `Snapshot.load_of_store`: a snapshot that was stored is loaded.
* `Cache.open_eq_error_iff`: when opening ends the process.
* `Cache.isReady_iff_of_open`: when an opened cache is ready.
* `Cache.open_exact`: what opening comes to, and that it opens what was stored.
* `Cache.changed_byte_ends_process`: a changed byte that takes the process with it.
-/

namespace BodyCache

/-! ### Storing -/

namespace Container

/-- Storing a container is saving its file, with refusals seen as errors about containers. -/
theorem perform_store (c : Container) (files : FileTree) (p : Path) (version : String) :
    files.perform (c.store p version) =
      ((files.perform (FileTree.save p (c.toFile version))).1.mapError fun e => .refused e.1 e.2,
        (files.perform (FileTree.save p (c.toFile version))).2) :=
  FileTree.perform_adapt ..

/-- A container is loaded when a file is read whose content it is. -/
theorem load_eq_ok_iff {files : FileTree} {p : Path} {c : Container} :
    load files p = .ok c ↔ ∃ content, files.read p = .ok content ∧ ofFile content = .ok c := by
  rw [load]
  cases files.read p with
  | error e => simp
  | ok content =>
      cases hfile : ofFile content with
      | error fault => simp [hfile]
      | ok c' => simp [hfile]

/-- Room is made in vain for a container that is loaded exactly when its file is read and a text in
it announces more bytes than are left. -/
theorem exists_room_of_load_iff {files : FileTree} {p : Path} {n : Nat} (hn : 0 < n) :
    (∃ e, load files p = .error e ∧ e.room = n) ↔
      ∃ content, files.read p = .ok content ∧ Overdraws Fingerprint.ofContent content n := by
  rw [load]
  cases files.read p with
  | error cause =>
      have hroom : (ContainerError.refused p cause).room ≠ n := Nat.ne_of_lt hn
      simp [hroom]
  | ok content =>
      simp only [Except.ok.injEq, exists_eq_left']
      rw [← exists_room_iff hn, ofFile]
      cases ofFileWith Fingerprint.ofContent content with
      | error fault => simp [ContainerError.room]
      | ok c => simp

end Container

/-- A map is loaded when a file is read whose content it is. -/
theorem SymbolMap.load_eq_ok_iff {files : FileTree} {p : Path} {m : SymbolMap} :
    load files p = .ok m ↔ ∃ content, files.read p = .ok content ∧ ofFile content = .ok m := by
  rw [load]
  cases files.read p with
  | error e => simp
  | ok content =>
      cases hfile : ofFile content with
      | error fault => simp [hfile]
      | ok m' => simp [hfile]

namespace Snapshot

variable {memory : Nat} {files after : FileTree} {p : SnapshotPaths} {c : Container} {m : SymbolMap}
  {s : Snapshot}

/-- **Storing a snapshot is saving two files**: that of the container and, unless this is refused,
that of the map. -/
theorem perform_store (files : FileTree) (p : SnapshotPaths) (c : Container) (m : SymbolMap) :
    files.perform (store p c m) =
      match files.perform (FileTree.save p.container (c.toFile m.producerVersion)) with
      | (.error e, between) => (.error (.container (.refused e.1 e.2)), between)
      | (.ok _, between) =>
        ((between.perform (FileTree.save p.map m.toFile)).1.mapError fun e =>
            .map (.refused e.1 e.2),
          (between.perform (FileTree.save p.map m.toFile)).2) := by
  rw [store, FileTree.perform_bind, FileTree.perform_adapt, Container.perform_store]
  rcases files.perform (FileTree.save p.container (c.toFile m.producerVersion)) with
    ⟨_ | _, between⟩
  · rfl
  · simp only [Except.mapError]
    rw [FileTree.perform_adapt, SymbolMap.perform_store]
    rcases between.perform (FileTree.save p.map m.toFile) with ⟨_ | _, _⟩ <;> rfl

/-- Storing that succeeds has saved both files, the map after the container. -/
theorem exists_of_store (h : files.perform (store p c m) = (.ok (), after)) :
    ∃ between,
      files.perform (FileTree.save p.container (c.toFile m.producerVersion)) = (.ok (), between) ∧
        between.perform (FileTree.save p.map m.toFile) = (.ok (), after) := by
  rw [perform_store] at h
  rcases hfirst : files.perform (FileTree.save p.container (c.toFile m.producerVersion)) with
    ⟨_ | _, between⟩
  · rw [hfirst] at h
    cases h
  · simp only [hfirst] at h
    rcases hsecond : between.perform (FileTree.save p.map m.toFile) with ⟨_ | _, last⟩
    · rw [hsecond] at h
      cases h
    · rw [hsecond] at h
      cases h
      exact ⟨between, rfl, hsecond⟩

/-- After storing at two different places, both files are read as they were written. -/
theorem read_of_store (h : files.perform (store p c m) = (.ok (), after))
    (hne : after.locate p.container ≠ after.locate p.map) :
    after.read p.container = .ok (c.toFile m.producerVersion) ∧
      after.read p.map = .ok m.toFile := by
  obtain ⟨between, hcontainer, hmap⟩ := exists_of_store h
  obtain ⟨_, -, hfirst⟩ := FileTree.exists_of_save hcontainer
  obtain ⟨above, hgrows, hsecond⟩ := FileTree.exists_of_save hmap
  have hkept : above.read p.container = .ok (c.toFile m.producerVersion) :=
    hgrows.read (FileTree.read_of_write hfirst)
  have hwritten : after.read p.map = .ok m.toFile := FileTree.read_of_write hsecond
  refine ⟨FileTree.read_of_write_of_ne hsecond ?_ hkept, hwritten⟩
  intro hsame
  have hlocate : after.locate p.container = .ok (above.destination p.container) :=
    FileTree.locate_of_folders (FileTree.home_of_write hsecond)
      (fun _ => FileTree.folders_of_write hsecond) (FileTree.read_eq_ok_iff.mp hkept).1
  rw [hlocate, (FileTree.read_eq_ok_iff.mp hwritten).1, hsame,
    FileTree.destination_congr (FileTree.home_of_write hsecond)] at hne
  exact hne rfl

/-! ### Loading -/

/-- A snapshot is loaded exactly when both files are, and is made of what they hold. -/
theorem load_eq_ok_iff :
    load memory files p = .ok (.ok s) ↔ ∃ c m, Container.load files p.container = .ok c ∧
      SymbolMap.load files p.map = .ok m ∧ s = of c m := by
  rw [load]
  cases hcontainer : Container.load files p.container with
  | error e =>
      by_cases hmemory : memory < e.room
      · simp [if_pos hmemory]
      · simp [if_neg hmemory]
  | ok c =>
      cases hmap : SymbolMap.load files p.map with
      | error e => simp
      | ok m => simp [eq_comm]

/-- Loading ends the process exactly when the container file is read and a text in it announces more
bytes than are left, for which there is no memory. -/
theorem load_eq_error_iff {n : Nat} :
    load memory files p = .error ⟨n⟩ ↔ memory < n ∧ ∃ content,
      files.read p.container = .ok content ∧
        Container.Overdraws Fingerprint.ofContent content n := by
  have hcause : load memory files p = .error ⟨n⟩ ↔
      memory < n ∧ ∃ e, Container.load files p.container = .error e ∧ e.room = n := by
    rw [load]
    cases hcontainer : Container.load files p.container with
    | error e =>
        simp only [Except.error.injEq, exists_eq_left']
        by_cases hmemory : memory < e.room
        · rw [if_pos hmemory, Except.error.injEq, OutOfMemory.mk.injEq]
          exact ⟨fun h => ⟨h ▸ hmemory, h⟩, fun h => h.2⟩
        · rw [if_neg hmemory]
          exact ⟨nofun, fun h => absurd (h.2 ▸ h.1) hmemory⟩
    | ok c => cases SymbolMap.load files p.map <;> simp
  rw [hcause]
  exact and_congr_right fun hmemory =>
    Container.exists_room_of_load_iff (Nat.lt_of_le_of_lt (Nat.zero_le memory) hmemory)

/-- **A snapshot that was stored is loaded** if the map has the expected version, the payload can
be addressed, four bytes hold the length of the header, and the paths lead to different places. -/
theorem load_of_store (hversion : m.formatVersion = SymbolMap.expectedVersion)
    (haddress : (Container.codec.encode c).length < Codec.addressLimit)
    (hheader : (Container.headerFor m.producerVersion
      (Container.codec.encode c)).encode.length < UInt32.size)
    (h : files.perform (store p c m) = (.ok (), after))
    (hne : after.locate p.container ≠ after.locate p.map) :
    load memory after p = .ok (.ok (of c m)) := by
  obtain ⟨hcontainer, hmap⟩ := read_of_store h hne
  refine load_eq_ok_iff.mpr ⟨c, m, Container.load_eq_ok_iff.mpr ⟨_, hcontainer, ?_⟩,
    SymbolMap.load_eq_ok_iff.mpr ⟨_, hmap, ?_⟩, rfl⟩
  · exact Container.ofFile_toFile haddress hheader
  · rw [SymbolMap.ofFile_toFile, if_pos hversion]

/-- A snapshot is loaded from two files. -/
theorem isFile_of_load (h : load memory files p = .ok (.ok s)) :
    files.isFile p.container = true ∧ files.isFile p.map = true := by
  obtain ⟨_, _, hcontainer, hmap, -⟩ := load_eq_ok_iff.mp h
  obtain ⟨content, hread, -⟩ := Container.load_eq_ok_iff.mp hcontainer
  obtain ⟨content', hread', -⟩ := SymbolMap.load_eq_ok_iff.mp hmap
  exact ⟨FileTree.isFile_iff.mpr ⟨content, hread⟩, FileTree.isFile_iff.mpr ⟨content', hread'⟩⟩

end Snapshot

/-! ### Opening -/

namespace Cache

variable {memory : Nat} {files : FileTree} {p : SnapshotPaths} {s : Snapshot} {c : Cache}
  {notices : List Notice}

/-- A snapshot that is loaded is opened, and the number of its methods is reported. -/
theorem open_of_load (h : Snapshot.load memory files p = .ok (.ok s)) :
    Cache.open memory files p = .ok (ofSnapshot s, [.loaded s.container.methodCount]) := by
  obtain ⟨hcontainer, hmap⟩ := Snapshot.isFile_of_load h
  have hexist : p.exist files = true := by
    rw [SnapshotPaths.exist, hcontainer, hmap]
    rfl
  rw [Cache.open, hexist, h]
  rfl

/-- A cache that is opened is disabled, unless a snapshot is loaded. -/
theorem eq_disabled_of_open (hopen : Cache.open memory files p = .ok (c, notices))
    (h : ∀ s, Snapshot.load memory files p ≠ .ok (.ok s)) : c = disabled := by
  rw [Cache.open] at hopen
  split at hopen
  · cases hopen
    rfl
  · split at hopen
    · next s hload => exact absurd hload (h s)
    · cases hopen
      rfl
    · cases hopen

/-- An opened cache holds a snapshot exactly when that snapshot is loaded. -/
theorem snapshot_eq_some_iff_of_open (hopen : Cache.open memory files p = .ok (c, notices)) :
    c.snapshot = some s ↔ Snapshot.load memory files p = .ok (.ok s) := by
  constructor
  · intro h
    by_cases hload : ∃ s, Snapshot.load memory files p = .ok (.ok s)
    · obtain ⟨s', hload⟩ := hload
      rw [open_of_load hload] at hopen
      cases hopen
      cases h
      exact hload
    · rw [eq_disabled_of_open hopen (not_exists.mp hload)] at h
      cases h
  · intro h
    rw [open_of_load h] at hopen
    cases hopen
    rfl

/-- **An opened cache is ready** exactly when both files are there and both are loaded. -/
theorem isReady_iff_of_open (hopen : Cache.open memory files p = .ok (c, notices)) :
    c.isReady = true ↔
      files.isFile p.container = true ∧ files.isFile p.map = true ∧
        (∃ c, Container.load files p.container = .ok c) ∧
        ∃ m, SymbolMap.load files p.map = .ok m := by
  rw [isReady, Option.isSome_iff_exists]
  constructor
  · rintro ⟨s, hs⟩
    have hload := (snapshot_eq_some_iff_of_open hopen).mp hs
    obtain ⟨hfile, hfile'⟩ := Snapshot.isFile_of_load hload
    obtain ⟨c, m, hcontainer, hmap, -⟩ := Snapshot.load_eq_ok_iff.mp hload
    exact ⟨hfile, hfile', ⟨c, hcontainer⟩, ⟨m, hmap⟩⟩
  · rintro ⟨-, -, ⟨c, hcontainer⟩, ⟨m, hmap⟩⟩
    exact ⟨_, (snapshot_eq_some_iff_of_open hopen).mpr
      (Snapshot.load_eq_ok_iff.mpr ⟨c, m, hcontainer, hmap, rfl⟩)⟩

/-- **Opening ends the process** exactly when both files are there and a text in the container file
announces more bytes than are left, for which there is no memory. -/
theorem open_eq_error_iff {n : Nat} :
    Cache.open memory files p = .error ⟨n⟩ ↔
      files.isFile p.container = true ∧ files.isFile p.map = true ∧ memory < n ∧
        ∃ content, files.read p.container = .ok content ∧
          Container.Overdraws Fingerprint.ofContent content n := by
  have hexist : p.exist files = true ↔
      files.isFile p.container = true ∧ files.isFile p.map = true := by
    rw [SnapshotPaths.exist, Bool.and_eq_true]
  rw [← Snapshot.load_eq_error_iff (p := p), ← and_assoc, ← hexist, Cache.open]
  cases p.exist files with
  | false => simp
  | true =>
      rcases Snapshot.load memory files p with e | ⟨e | s⟩ <;> simp

/-! ### Disabled caches -/

/-- The outcome of every call on a disabled cache. -/
def disabledOutcome (k : Call) : Outcome :=
  if k.request.scope.isSentinel then .miss .noScope else .miss .disabled

/-- A call on a disabled cache misses, and leaves the cache disabled. -/
theorem call_of_disabled (h : c.snapshot = none) (files : FileTree) (k : Call) :
    (c.call files k).outcome = disabledOutcome k ∧ (c.call files k).cache.snapshot = none := by
  have houtcome : (c.outcome files k.request).outcome = disabledOutcome k ∧
      (c.outcome files k.request).cache = c := by
    rw [outcome, disabledOutcome, h]
    split <;> exact ⟨rfl, rfl⟩
  refine ⟨outcome_call.trans houtcome.1, ?_⟩
  rw [cache_call, houtcome.2]
  split
  · exact (count_eq c _).1.trans h
  · exact h

/-- All calls on a disabled cache miss. -/
theorem outcomes_session_of_disabled (h : c.snapshot = none) (files : FileTree)
    (calls : List Call) :
    (c.session files calls).1.map (·.outcome) = calls.map disabledOutcome := by
  induction calls generalizing c with
  | nil => rfl
  | cons k calls ih =>
      obtain ⟨houtcome, hdisabled⟩ := call_of_disabled h files k
      rw [session, List.map_cons, List.map_cons, houtcome, ih hdisabled]

/-! ### Opening is total and faithful -/

/-- **What opening comes to.** The process ends exactly when both paths lead to files and a text in
the container file announces more bytes than are left, for which there is no memory. Otherwise a
cache is opened. It is ready exactly when both paths lead to files, the container is read and the
map is read; if not, it is disabled, and every call of a session misses, for want of a stable
identity or because the cache is disabled. And what was stored at two different places, with a map of the
expected version, is opened as the very cache that is built from the container and the map, so that
no series of calls can tell the two apart. The payload of the container can be addressed, like any
byte string in memory. -/
theorem open_exact (memory : Nat) (files : FileTree) (p : SnapshotPaths) :
    (∀ n, Cache.open memory files p = .error ⟨n⟩ ↔
      files.isFile p.container = true ∧ files.isFile p.map = true ∧ memory < n ∧
        ∃ content, files.read p.container = .ok content ∧
          Container.Overdraws Fingerprint.ofContent content n) ∧
    ((∀ n, Cache.open memory files p ≠ .error ⟨n⟩) →
      ∃ cache notices, Cache.open memory files p = .ok (cache, notices) ∧
        (cache.isReady = true ↔
          files.isFile p.container = true ∧ files.isFile p.map = true ∧
            (∃ c, Container.load files p.container = .ok c) ∧
            ∃ m, SymbolMap.load files p.map = .ok m) ∧
        (cache.isReady = false → cache = disabled ∧
          ∀ (later : FileTree) (calls : List Call),
            (cache.session later calls).1.map (·.outcome) =
              calls.map fun k =>
                if k.request.scope.isSentinel then .miss .noScope else .miss .disabled)) ∧
    ∀ (c : Container) (m : SymbolMap) (after : FileTree), m.formatVersion = 1 →
      (Container.codec.encode c).length < Codec.addressLimit →
      (Container.headerFor m.producerVersion
        (Container.codec.encode c)).encode.length < UInt32.size →
      files.perform (Snapshot.store p c m) = (.ok (), after) →
      after.locate p.container ≠ after.locate p.map →
        ∃ cache notices, Cache.open memory after p = .ok (cache, notices) ∧
          cache.isReady = true ∧
          cache =
            { snapshot := some ⟨c.index, m.index⟩
              freshness := .ofRecords (m.modules.map fun x => (x.name, x.fingerprint)) } := by
  refine ⟨fun n => open_eq_error_iff, ?_, ?_⟩
  · intro hgoesOn
    rcases hopen : Cache.open memory files p with n | ⟨cache, notices⟩
    · exact absurd hopen (hgoesOn n.bytes)
    refine ⟨cache, notices, rfl, isReady_iff_of_open hopen, fun hnotReady => ?_⟩
    have hnone : cache.snapshot = none :=
      Option.isNone_iff_eq_none.mp (Option.isSome_eq_false_iff.mp hnotReady)
    refine ⟨eq_disabled_of_open hopen fun s hs => ?_, fun later calls =>
      outcomes_session_of_disabled hnone later calls⟩
    rw [(snapshot_eq_some_iff_of_open hopen).mpr hs] at hnone
    cases hnone
  · intro c m after hversion haddress hheader hstore hne
    have hload : Snapshot.load memory after p = .ok (.ok (.of c m)) :=
      Snapshot.load_of_store hversion haddress hheader hstore hne
    refine ⟨_, _, open_of_load hload, rfl, ?_⟩
    rw [ofSnapshot, Snapshot.of, SymbolMap.map_index]

/-- The home folder with an empty folder for caches in it. -/
def cacheFolder : FileTree where
  home := ["home".toList]
  nodes := ⟨[(["home".toList, "cache".toList], .folder), (["home".toList], .folder)]⟩

/-- The tree with a file in the folder for caches. -/
def withCached (t : FileTree) (name : String) (content : Bytes) : FileTree :=
  t.put ["home".toList, "cache".toList, name.toList] (.file content)

/-- The folder for caches with a container file and its map file. -/
def withPair (content content' : Bytes) : FileTree :=
  withCached (withCached cacheFolder "a.dex" content) "a.dexmap" content'

/-- Both files are read as they are. -/
theorem read_withPair (content content' : Bytes) :
    (withPair content content').read ⟨"cache/a.dex"⟩ = .ok content ∧
      (withPair content content').read ⟨"cache/a.dexmap"⟩ = .ok content' := ⟨rfl, rfl⟩

/-- Saving a first file makes the folder for caches. -/
theorem perform_save_empty (content : Bytes) :
    FileTree.empty.perform (FileTree.save ⟨"cache/a.dex"⟩ content) =
      (.ok (), withCached cacheFolder "a.dex" content) := rfl

/-- A map is saved beside the first file. -/
theorem perform_save_map (content content' : Bytes) :
    (withCached cacheFolder "a.dex" content).perform
        (FileTree.save ⟨"cache/a.dexmap"⟩ content') =
      (.ok (), withPair content content') := rfl

/-- Storing a first snapshot makes the folder for caches and leaves two files in it. -/
theorem perform_store_empty (c : Container) (m : SymbolMap) :
    FileTree.empty.perform (Snapshot.store ⟨⟨"cache/a.dex"⟩, ⟨"cache/a.dexmap"⟩⟩ c m) =
      (.ok (), withPair (c.toFile m.producerVersion) m.toFile) := by
  rw [Snapshot.perform_store, perform_save_empty]
  simp only [perform_save_map]
  rfl

/-- The paths of a snapshot in the folder for caches. -/
theorem paths_inFolder :
    SnapshotPaths.inFolder ⟨"cache"⟩ "a.dex" = ⟨⟨"cache/a.dex"⟩, ⟨"cache/a.dexmap"⟩⟩ := by decide

/-- A snapshot stored in a new folder is opened; without it, the cache is disabled. -/
theorem open_exact_sample :
    ∃ after stored missing notices notices',
      FileTree.empty.perform (Snapshot.store (.inFolder ⟨"cache"⟩ "a.dex") Container.sample
        (SymbolMap.sample 1)) = (.ok (), after) ∧
      Cache.open addressSpace after (.inFolder ⟨"cache"⟩ "a.dex") = .ok (stored, notices) ∧
      stored.isReady = true ∧
      Cache.open addressSpace .empty (.inFolder ⟨"cache"⟩ "a.dex") = .ok (missing, notices') ∧
      missing = disabled := by
  have hne : ∀ content content',
      let after := withPair content content'
      after.locate ⟨"cache/a.dex"⟩ ≠ after.locate ⟨"cache/a.dexmap"⟩ := by
    intro content content' after hsame
    have hcontainer : after.locate ⟨"cache/a.dex"⟩ =
      .ok ["home".toList, "cache".toList, "a.dex".toList] := rfl
    have hmap : after.locate ⟨"cache/a.dexmap"⟩ =
      .ok ["home".toList, "cache".toList, "a.dexmap".toList] := rfl
    rw [hcontainer, hmap, Except.ok.injEq] at hsame
    exact absurd hsame (by decide)
  have hheader : (Container.headerFor (SymbolMap.sample 1).producerVersion
      (Container.codec.encode Container.sample)).encode.length < UInt32.size := by
    rw [ContainerHeader.length_encode]
    decide
  have hstore := perform_store_empty Container.sample (SymbolMap.sample 1)
  rw [paths_inFolder]
  obtain ⟨hends, hgoesOn, hready⟩ :=
    open_exact addressSpace .empty ⟨⟨"cache/a.dex"⟩, ⟨"cache/a.dexmap"⟩⟩
  obtain ⟨stored, notices, hopen, hstored, -⟩ :=
    hready Container.sample (SymbolMap.sample 1) _ rfl (by decide) hheader hstore (hne _ _)
  have hnoFile : FileTree.empty.isFile ⟨"cache/a.dex"⟩ = false := rfl
  have hgoes : ∀ n, Cache.open addressSpace .empty ⟨⟨"cache/a.dex"⟩, ⟨"cache/a.dexmap"⟩⟩ ≠
      .error ⟨n⟩ := by
    intro n hend
    rw [((hends n).mp hend).1] at hnoFile
    cases hnoFile
  obtain ⟨missing, notices', hopen', hmissing, hdisabled⟩ := hgoesOn hgoes
  have hnotReady : missing.isReady = false := by
    rw [← Bool.not_eq_true, hmissing, hnoFile]
    rintro ⟨⟨⟩, -⟩
  exact ⟨_, stored, missing, notices, notices', hstore, hopen, hstored, hopen',
    (hdisabled hnotReady).1⟩

/-! ### One changed byte -/

/-- The file of an empty container is read back. -/
theorem ofFile_toFile_empty :
    Container.ofFile (Container.empty.toFile "0.1.0") = .ok Container.empty := by
  refine Container.ofFile_toFile (by decide) ?_
  rw [ContainerHeader.length_encode]
  decide

/-- With its tenth byte changed, the file of an empty container announces five exabytes. -/
theorem overdraws_set_toFile_empty :
    Container.Overdraws Fingerprint.ofContent ((Container.empty.toFile "0.1.0").set 9 253)
      5687161429441982000 :=
  Container.overdraws_set_toFile (by decide) (by decide +kernel) (by decide) (by decide)

/-- **A changed byte ends the process.** A snapshot is stored, and it is opened. When the tenth byte
of its container file is replaced by 253, both files are still there and the container is refused,
but no disabled cache is opened: five exabytes of memory are asked for. -/
theorem changed_byte_ends_process :
    let p := SnapshotPaths.inFolder ⟨"cache"⟩ "a.dex"
    let map := SymbolMap.empty "0.1.0"
    let stored := Container.empty.toFile "0.1.0"
    let damaged := withPair (stored.set 9 253) map.toFile
    FileTree.empty.perform (Snapshot.store p .empty map) = (.ok (), withPair stored map.toFile) ∧
      (∃ cache notices,
        Cache.open addressSpace (withPair stored map.toFile) p = .ok (cache, notices) ∧
          cache.isReady = true) ∧
      damaged.isFile p.container = true ∧ damaged.isFile p.map = true ∧
      (∀ c, Container.load damaged p.container ≠ .ok c) ∧
      Cache.open addressSpace damaged p = .error ⟨5687161429441982000⟩ := by
  intro p map stored damaged
  have hp : p = ⟨⟨"cache/a.dex"⟩, ⟨"cache/a.dexmap"⟩⟩ := paths_inFolder
  rw [hp]
  obtain ⟨hcontainer, hmap⟩ := read_withPair stored map.toFile
  obtain ⟨hdamaged, hmap'⟩ := read_withPair (stored.set 9 253) map.toFile
  have hload : Snapshot.load addressSpace (withPair stored map.toFile)
      ⟨⟨"cache/a.dex"⟩, ⟨"cache/a.dexmap"⟩⟩ = .ok (.ok (.of Container.empty map)) :=
    Snapshot.load_eq_ok_iff.mpr ⟨_, _,
      Container.load_eq_ok_iff.mpr ⟨stored, hcontainer, ofFile_toFile_empty⟩,
      SymbolMap.load_eq_ok_iff.mpr ⟨_, hmap, SymbolMap.ofFile_toFile map⟩, rfl⟩
  have hfile := FileTree.isFile_iff.mpr ⟨_, hdamaged⟩
  have hfile' := FileTree.isFile_iff.mpr ⟨_, hmap'⟩
  obtain ⟨e, he, -⟩ := (Container.exists_room_of_load_iff (by decide)).mpr
    ⟨_, hdamaged, overdraws_set_toFile_empty⟩
  refine ⟨perform_store_empty .empty map, ⟨_, _, open_of_load hload, rfl⟩, hfile, hfile',
    fun c hc => ?_, ?_⟩
  · rw [he] at hc
    cases hc
  · exact open_eq_error_iff.mpr
      ⟨hfile, hfile', by decide, _, hdamaged, overdraws_set_toFile_empty⟩

end Cache

end BodyCache
