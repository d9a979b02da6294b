import Mathlib.Data.List.Nodup
import BodyCache.SymbolMap.Schema
import BodyCache.Proofs.Json.Extension
import BodyCache.Proofs.FileTree.Writing

/-!
# Map Files Are Read Back

A map file is read as the map it was written for, unless its version is another one than expected,
which is then the fault that is reported. The version is looked at only after everything else has
been read, so a map of any version can be written, and its text always denotes it.

The text is that of a JSON value without foreign parts, which the JSON reader gives back. It remains
to see that the fields of every record are found again: their names are different from one another,
so each name has the one value that was written for it.

## Main results

* `Json.fields?_object`: the fields of a record are found by their names.
* `SymbolMap.ofJson?_toJson`: a map is read back from its JSON form, as are its parts.
* `SymbolMap.ofFile_toFile`: what is read from the file of a map.
* `SymbolMap.saved_map_is_loaded`: a map that was saved is loaded as it was.
-/

namespace BodyCache

namespace Json

/-! ### Fields of records -/

/-- A name that occurs once has one value. -/
theorem field?_of_mem {members : List (String × Json)} (h : (members.map Prod.fst).Nodup)
    {m : String × Json} (hm : m ∈ members) : field? members m.1 = some (some m.2) := by
  have hvalues : valuesAt m.1 members = [m.2] := by
    unfold valuesAt
    induction members with
    | nil => cases hm
    | cons x xs ih =>
        rw [List.map_cons, List.nodup_cons] at h
        obtain rfl | hm := List.mem_cons.mp hm
        · have hnone : xs.filter (fun y => y.1 = m.1) = [] := by
            rw [List.filter_eq_nil_iff]
            intro y hy hname
            exact h.1 (of_decide_eq_true hname ▸ List.mem_map_of_mem hy)
          rw [List.filter_cons_of_pos (by simp), hnone]
          rfl
        · have hne : x.1 ≠ m.1 := by
            intro heq
            exact h.1 (heq ▸ List.mem_map_of_mem hm)
          rw [List.filter_cons_of_neg (by simpa using hne)]
          exact ih h.2 hm
  rw [field?, hvalues]

/-- The fields of an object whose names are all different are its values. -/
theorem fields?_object {names : List String} {members : List (String × Json)}
    (hnames : members.map Prod.fst = names) (hdistinct : names.Nodup) :
    fields? names (.object members) = some (members.map fun m => some m.2) := by
  subst hnames
  have hall : ∀ ms : List (String × Json), (∀ m ∈ ms, m ∈ members) →
      (ms.map Prod.fst).mapM (field? members) = some (ms.map fun m => some m.2) := by
    intro ms
    induction ms with
    | nil =>
        intro _
        rfl
    | cons m ms ih =>
        intro hms
        rw [List.map_cons, List.mapM_cons, field?_of_mem hdistinct (hms m List.mem_cons_self),
          ih fun x hx => hms x (List.mem_cons_of_mem m hx)]
        rfl
  exact hall members fun _ hm => hm

/-- A number of 32 bits is read back. -/
@[simp] theorem word32?_natural_toNat (w : UInt32) : word32? (.natural w.toNat) = some w := by
  have hlt : w.toNat < UInt32.size := w.toNat_lt
  rw [word32?, if_pos hlt, UInt32.ofNat_toNat]

/-- A byte is read back. -/
@[simp] theorem byte?_natural_toNat (b : UInt8) : byte? (.natural b.toNat) = some b := by
  rw [byte?, if_pos b.toNat_lt, UInt8.ofNat_toNat]

/-- A text that may be absent is read back. -/
@[simp] theorem optional_ofOption (o : Option String) :
    optional string? (some (ofOption .text o)) = some o := by
  cases o <;> rfl

/-- A list is read back if its items are. -/
theorem list?_array {α : Type} {read : Json → Option α} {write : α → Json}
    (h : ∀ a, read (write a) = some a) (as : List α) :
    list? read (.array (as.map write)) = some as := by
  rw [list?]
  induction as with
  | nil => rfl
  | cons a as ih =>
      rw [List.map_cons, List.mapM_cons, h, ih]
      rfl

end Json

open Json

/-! ### Records -/

/-- A fingerprint is read back. -/
@[simp] theorem Fingerprint.ofJson?_toJson (f : Fingerprint) :
    Fingerprint.ofJson? f.toJson = some f := by
  rw [ofJson?, toJson, list?_array byte?_natural_toNat, Option.bind_some, ofBytes?_bytes]

/-- A position is read back. -/
theorem SourcePosition.ofJson?_toJson (p : SourcePosition) :
    SourcePosition.ofJson? p.toJson = some p := by
  rw [ofJson?, toJson, fields?_object]
  · simp [required, string?]
  · rfl
  · decide

/-- A method is read back with its positions. -/
theorem MethodEntry.ofJson?_toJson (m : MethodEntry) : MethodEntry.ofJson? m.toJson = some m := by
  rw [ofJson?, toJson, fields?_object]
  · simp [required, string?, list?_array SourcePosition.ofJson?_toJson]
  · rfl
  · decide

/-- A type is read back with its methods. -/
theorem TypeEntry.ofJson?_toJson (t : TypeEntry) : TypeEntry.ofJson? t.toJson = some t := by
  rw [ofJson?, toJson, fields?_object]
  · simp [required, string?, list?_array MethodEntry.ofJson?_toJson]
  · rfl
  · decide

/-- A module is read back. -/
theorem ModuleEntry.ofJson?_toJson (m : ModuleEntry) : ModuleEntry.ofJson? m.toJson = some m := by
  rw [ofJson?, toJson, fields?_object]
  · simp [required, string?]
  · rfl
  · decide

/-- **A map is read back** with its modules and types, whatever its version. -/
theorem SymbolMap.ofJson?_toJson (m : SymbolMap) : SymbolMap.ofJson? m.toJson = some m := by
  rw [ofJson?, toJson, fields?_object]
  · simp [required, string?, list?_array ModuleEntry.ofJson?_toJson,
      list?_array TypeEntry.ofJson?_toJson]
  · rfl
  · decide

/-! ### Foreign parts -/

namespace Json

/-- A text that may be absent has no foreign parts. -/
theorem plain_ofOption (o : Option String) : (ofOption .text o).Plain := by
  cases o with
  | none => exact .null
  | some s => exact .text s

/-- A list of values without foreign parts has none. -/
theorem plain_array_map {α : Type} {write : α → Json} (h : ∀ a, (write a).Plain)
    (as : List α) : (Json.array (as.map write)).Plain := by
  refine .array fun j hj => ?_
  obtain ⟨a, -, rfl⟩ := List.mem_map.mp hj
  exact h a

end Json

/-- A fingerprint is written without foreign parts. -/
theorem Fingerprint.plain_toJson (f : Fingerprint) : f.toJson.Plain :=
  plain_array_map (fun _ => .natural _) f.bytes

/-- A position is written without foreign parts. -/
theorem SourcePosition.plain_toJson (p : SourcePosition) : p.toJson.Plain := by
  refine .object ?_
  simp only [List.forall_mem_cons]
  exact ⟨.natural _, .text _, .natural _, .natural _, .natural _, .natural _, by simp⟩

/-- A method is written without foreign parts. -/
theorem MethodEntry.plain_toJson (m : MethodEntry) : m.toJson.Plain := by
  refine .object ?_
  simp only [List.forall_mem_cons]
  exact ⟨.natural _, .text _, .text _, .text _, .text _,
    plain_array_map SourcePosition.plain_toJson m.positions, by simp⟩

/-- A type is written without foreign parts. -/
theorem TypeEntry.plain_toJson (t : TypeEntry) : t.toJson.Plain := by
  refine .object ?_
  simp only [List.forall_mem_cons]
  exact ⟨.natural _, .text _, plain_ofOption t.scope, plain_ofOption t.position, .text _,
    plain_ofOption t.moduleName, plain_array_map MethodEntry.plain_toJson t.methods, by simp⟩

/-- A module is written without foreign parts. -/
theorem ModuleEntry.plain_toJson (m : ModuleEntry) : m.toJson.Plain := by
  refine .object ?_
  simp only [List.forall_mem_cons]
  exact ⟨.text _, m.fingerprint.plain_toJson, by simp⟩

/-- A map is written without foreign parts. -/
theorem SymbolMap.plain_toJson (m : SymbolMap) : m.toJson.Plain := by
  refine .object ?_
  simp only [List.forall_mem_cons]
  exact ⟨.natural _, .text _, plain_ofOption m.generatedClass,
    plain_array_map ModuleEntry.plain_toJson m.modules,
    plain_array_map TypeEntry.plain_toJson m.types, by simp⟩

/-! ### Files -/

namespace SymbolMap

/-- The text of a map denotes the map, whatever its version. -/
theorem ofText?_toText (m : SymbolMap) : ofText? m.toText = some m := by
  rw [ofText?, toText, parse?_pretty m.plain_toJson, Option.bind_some, ofJson?_toJson]

/-- The file of a map is read as the map if it has the expected version. -/
theorem ofFile_toFile (m : SymbolMap) :
    ofFile m.toFile =
      if m.formatVersion = expectedVersion then .ok m else .error (.version m.formatVersion) := by
  rw [ofFile, toFile, Utf8.decode?_encode]
  simp only [ofText?_toText]

/-- What storing a map gives: saving its file, with refusals seen as errors about maps. -/
theorem perform_store (m : SymbolMap) (files : FileTree) (p : Path) :
    files.perform (m.store p) =
      ((files.perform (FileTree.save p m.toFile)).1.mapError fun e => .refused e.1 e.2,
        (files.perform (FileTree.save p m.toFile)).2) :=
  FileTree.perform_adapt ..

/-- Storing succeeds exactly when saving does. -/
theorem perform_store_eq_ok_iff {m : SymbolMap} {files after : FileTree} {p : Path} :
    files.perform (m.store p) = (.ok (), after) ↔
      files.perform (FileTree.save p m.toFile) = (.ok (), after) := by
  rw [perform_store]
  rcases files.perform (FileTree.save p m.toFile) with ⟨_ | _, t⟩ <;> simp [Except.mapError]

/-- A file that was stored is read as it was written. -/
theorem read_of_store {m : SymbolMap} {files after : FileTree} {p : Path}
    (h : files.perform (m.store p) = (.ok (), after)) : after.read p = .ok m.toFile := by
  obtain ⟨_, -, hwritten⟩ := FileTree.exists_of_save (perform_store_eq_ok_iff.mp h)
  exact FileTree.read_of_write hwritten

/-- A map that was stored is loaded if it has the expected version. -/
theorem load_of_store {m : SymbolMap} {files after : FileTree} {p : Path}
    (h : files.perform (m.store p) = (.ok (), after)) :
    load after p =
      if m.formatVersion = expectedVersion then .ok m
      else .error (.faulty p (.version m.formatVersion)) := by
  rw [load, read_of_store h]
  simp only [ofFile_toFile]
  by_cases hversion : m.formatVersion = expectedVersion
  · rw [if_pos hversion, if_pos hversion]
  · rw [if_neg hversion, if_neg hversion]

/-- Storing fails only where the file tree refuses, and then for every map. -/
theorem fst_perform_store (m other : SymbolMap) (files : FileTree) (p : Path) :
    (files.perform (m.store p)).1 = (files.perform (other.store p)).1 := by
  rw [perform_store, perform_store]
  simp only
  rw [FileTree.fst_perform_save files p m.toFile other.toFile]

/-- A fault of the version names both versions. -/
theorem message_version (path : String) (actual : UInt32) :
    (MapFault.version actual).message path =
      "version mismatch in " ++ path ++ ": expected 1, got " ++ actual.toNat.repr := by
  have hexpected : ": expected " ++ expectedVersion.toNat.repr ++ ", got " =
      ": expected 1, got " := rfl
  have hassoc : ∀ a b c d e : String, a ++ b ++ c ++ d ++ e = a ++ (b ++ c ++ d) ++ e := by
    intro a b c d e
    simp only [String.append_assoc]
  exact (hassoc ..).trans (congrArg (_ ++ · ++ _) hexpected)

/-- **A map that was saved is loaded as it was**, field for field, if it has the expected version;
otherwise its version is refused. Saving can fail only where the file tree refuses, whatever the
map. Saving a map that was loaded writes the same text, byte for byte. -/
theorem saved_map_is_loaded (m : SymbolMap) (files : FileTree) (p : Path) :
    ofText? m.toText = some m ∧
      (∀ e, (files.perform (m.store p)).1 = .error e → ∃ q cause, e = .refused q cause) ∧
      (∀ other : SymbolMap, (files.perform (other.store p)).1 = (files.perform (m.store p)).1) ∧
      (∀ after, files.perform (m.store p) = (.ok (), after) →
        (load after p = if m.formatVersion = 1 then .ok m
          else .error (.faulty p (.version m.formatVersion))) ∧
        ∀ loaded, load after p = .ok loaded → loaded.toText = m.toText ∧
          ∀ again, after.perform (loaded.store p) = (.ok (), again) →
            again.read p = after.read p) ∧
      (MapError.faulty p (.version m.formatVersion)).message =
        "version mismatch in " ++ p.text ++ ": expected 1, got " ++ m.formatVersion.toNat.repr := by
  refine ⟨ofText?_toText m, ?_, fun other => fst_perform_store other m files p, ?_,
    message_version p.text m.formatVersion⟩
  · intro e he
    rw [perform_store] at he
    rcases hs : (files.perform (FileTree.save p m.toFile)).1 with cause | _
    · rw [hs] at he
      cases he
      exact ⟨_, _, rfl⟩
    · rw [hs] at he
      cases he
  · intro after h
    have hload := load_of_store h
    refine ⟨hload, ?_⟩
    intro loaded hloaded
    have heq : loaded = m := by
      rw [hload] at hloaded
      split_ifs at hloaded
      cases hloaded
      rfl
    refine ⟨congrArg toText heq, ?_⟩
    intro again hagain
    rw [read_of_store hagain, read_of_store h, heq]

/-- A map with a quotation mark, a reverse solidus, control characters and a character beyond 16
bits in its texts, with absent fields, and with a type without methods. -/
def sample (version : UInt32) : SymbolMap where
  formatVersion := version
  producerVersion := "0.1 \"\\ \x08\x0c\n\r\t\x01 é 😀"
  generatedClass := none
  modules := [⟨"App", ⟨List.replicate 16 255, rfl⟩⟩]
  types :=
    [⟨0, "Foo", some "S", none, "LFoo;", some "App",
        [⟨7, "bar", "a", "()V", "bar()V", [⟨0, "Foo.cs", 1, 2, 3, 4294967295⟩]⟩]⟩,
      ⟨1, "", none, some "", "", none, []⟩]

/-- The sample is loaded as it was saved in a new folder, and is refused with a later version. -/
theorem saved_map_is_loaded_sample :
    ∃ first second,
      FileTree.empty.perform ((sample 1).store ⟨"cache/a.dexmap"⟩) = (.ok (), first) ∧
      load first ⟨"cache/a.dexmap"⟩ = .ok (sample 1) ∧
      FileTree.empty.perform ((sample 2).store ⟨"cache/a.dexmap"⟩) = (.ok (), second) ∧
      load second ⟨"cache/a.dexmap"⟩ = .error (.faulty ⟨"cache/a.dexmap"⟩ (.version 2)) := by
  have hstore : ∀ v, FileTree.empty.perform ((sample v).store ⟨"cache/a.dexmap"⟩) =
      (.ok (), (FileTree.empty.perform ((sample v).store ⟨"cache/a.dexmap"⟩)).2) := fun _ => rfl
  have hload := fun v =>
    ((saved_map_is_loaded (sample v) .empty ⟨"cache/a.dexmap"⟩).2.2.2.1 _ (hstore v)).1
  exact ⟨_, _, hstore 1, hload 1, hstore 2, hload 2⟩

end SymbolMap

end BodyCache
