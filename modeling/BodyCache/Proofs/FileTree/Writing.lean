import BodyCache.Proofs.FileTree.Growth
import BodyCache.Snapshot

/-!
# What Is Written Is Read

A file that was written is read as it was written, and every other file is read as before. Both
rest on where paths lead. A path that can be followed leads to a place that its segments alone
determine, its destination, whatever else is in the tree; and it can still be followed as long as
no folder on its way is lost. Neither making folders nor writing files loses a folder.

## Main results

* `FileTree.eq_of_locate`: a path that can be followed leads to its destination.
* `FileTree.read_eq_ok_iff`: which content is read.
* `FileTree.read_of_write`, `FileTree.read_of_write_of_ne`: reading after writing.
* `FileTree.exists_of_save`: saving a file is making folders and writing.
-/

namespace BodyCache.FileTree

/-! ### Following paths -/

/-- Where a segment leads from a folder. -/
def hop (place : Place) (s : Segment) : Place :=
  if s = [] ∨ s = ['.'] then place else if s = ['.', '.'] then place.dropLast else place ++ [s]

/-- The place that a path names, if all the folders on its way are there. -/
def destination (t : FileTree) (p : Path) : Place :=
  (Path.split p.text.toList).foldl hop (t.start p)

/-- A step can be taken exactly from a folder, and leads where its segment says. -/
theorem step_eq_ok_iff {t : FileTree} {place other : Place} {s : Segment} :
    t.step place s = .ok other ↔ t.node? place = some .folder ∧ other = hop place s := by
  unfold step hop
  rcases t.node? place with _ | ⟨_ | _⟩
  · simp
  · simp
  · simp only [true_and]
    split_ifs <;> simp [eq_comm]

/-- Segments can be followed when there is a folder before each of them, and lead where they say. -/
theorem follow_cons {t : FileTree} {place other : Place} {s : Segment} {ss : List Segment} :
    t.follow place (s :: ss) = .ok other ↔
      t.node? place = some .folder ∧ t.follow (hop place s) ss = .ok other := by
  rw [follow, List.foldlM_cons]
  constructor
  · intro h
    cases hs : t.step place s with
    | error e =>
        rw [hs] at h
        cases h
    | ok next =>
        rw [hs] at h
        obtain ⟨hfolder, rfl⟩ := step_eq_ok_iff.mp hs
        exact ⟨hfolder, h⟩
  · rintro ⟨hfolder, h⟩
    rw [step_eq_ok_iff.mpr ⟨hfolder, rfl⟩]
    exact h

/-- Following segments leads to the place that they say. -/
theorem eq_of_follow {t : FileTree} {place other : Place} {ss : List Segment}
    (h : t.follow place ss = .ok other) : other = ss.foldl hop place := by
  induction ss generalizing place with
  | nil =>
      cases h
      rfl
  | cons s ss ih => exact ih (follow_cons.mp h).2

/-- A path that can be followed leads to its destination. -/
theorem eq_of_locate {t : FileTree} {p : Path} {place : Place} (h : t.locate p = .ok place) :
    place = t.destination p := by
  rw [locate] at h
  split_ifs at h
  exact eq_of_follow h

/-- Segments that can be followed still can when no folder is lost. -/
theorem follow_of_folders {t t' : FileTree}
    (hkept : ∀ place, t.node? place = some .folder → t'.node? place = some .folder)
    {place other : Place} {ss : List Segment} (h : t.follow place ss = .ok other) :
    t'.follow place ss = .ok other := by
  induction ss generalizing place with
  | nil => exact h
  | cons s ss ih =>
      obtain ⟨hfolder, h⟩ := follow_cons.mp h
      exact follow_cons.mpr ⟨hkept place hfolder, ih h⟩

/-- A path that can be followed still can when no folder is lost. -/
theorem locate_of_folders {t t' : FileTree} (hhome : t'.home = t.home)
    (hkept : ∀ place, t.node? place = some .folder → t'.node? place = some .folder)
    {p : Path} {place : Place} (h : t.locate p = .ok place) : t'.locate p = .ok place := by
  have hstart : t'.start p = t.start p := by rw [start, start, hhome]
  rw [locate] at h ⊢
  split_ifs at h ⊢
  rw [hstart]
  exact follow_of_folders hkept h

/-- The last segment of a text that does not end in a slash is a part of it. -/
theorem exists_split_eq_append (cs : List Char) (hne : cs ≠ []) (hslash : cs.getLast? ≠ some '/') :
    ∃ before last, Path.split cs = before ++ [last] ∧ last ≠ [] := by
  induction cs with
  | nil => exact absurd rfl hne
  | cons c cs ih =>
      cases cs with
      | nil =>
          have hc : c ≠ '/' := by
            rintro rfl
            exact hslash rfl
          exact ⟨[], [c], by simp [Path.split, hc], by simp⟩
      | cons d ds =>
          obtain ⟨before, last, hsplit, hlast⟩ := ih (by simp) (by simpa using hslash)
          by_cases hc : c = '/'
          · refine ⟨[] :: before, last, ?_, hlast⟩
            rw [Path.split, if_pos hc, hsplit, List.cons_append]
          · rw [Path.split, if_neg hc, hsplit]
            cases before with
            | nil => exact ⟨[], c :: last, rfl, List.cons_ne_nil _ _⟩
            | cons s before => exact ⟨(c :: s) :: before, last, rfl, hlast⟩

/-- The place for a new node is where its path leads, unless the path ends in a slash. -/
theorem locate_of_locateNew {t : FileTree} {p : Path} {place : Place}
    (h : t.locateNew p = .ok (some place)) (hslash : p.text.toList.getLast? ≠ some '/') :
    t.locate p = .ok place := by
  obtain ⟨last, before, folder, hsegments, hfollow, hfolder, hdot, hdots, rfl⟩ :=
    exists_of_locateNew h
  have hne : p.text ≠ "" := by
    intro hempty
    rw [hempty] at hsegments
    cases hsegments
  obtain ⟨before', last', hsplit, hlast⟩ :=
    exists_split_eq_append p.text.toList (by simpa using hne) hslash
  rw [hsplit, List.reverse_append, List.reverse_singleton, List.singleton_append,
    List.dropWhile_cons_of_neg (by simpa using hlast)] at hsegments
  obtain ⟨rfl, rfl⟩ := List.cons.inj hsegments
  rw [List.reverse_reverse] at hfollow
  rw [locate, if_neg hne, hsplit, follow, List.foldlM_append]
  rw [follow] at hfollow
  rw [hfollow]
  have hstep : t.step folder last' = .ok (folder ++ [last']) := by
    rw [step_eq_ok_iff, hop, if_neg (not_or.mpr ⟨hlast, hdot⟩), if_neg hdots]
    exact ⟨hfolder, rfl⟩
  change (List.foldlM t.step folder [last']) = _
  rw [List.foldlM_cons, hstep]
  rfl

/-! ### Writing and reading -/

/-- A file was written at the place that its path leads to, where no folder was. -/
theorem exists_of_write {t t' : FileTree} {p : Path} {content : Bytes}
    (h : t.perform (write p content) = (.ok (), t')) :
    ∃ place, t.locate p = .ok place ∧ place ≠ [] ∧ t.node? place ≠ some .folder ∧
      t' = t.put place (.file content) := by
  rw [write, perform_get_bind] at h
  rcases hp : t.locateNew p with e | ⟨_ | place⟩
  · rw [hp] at h
    cases h
  · rw [hp] at h
    cases h
  · simp only [hp] at h
    split_ifs at h with hslash hfolder
    · cases h
    · cases h
    · cases h
      exact ⟨place, locate_of_locateNew hp hslash, ne_nil_of_locateNew hp, hfolder, rfl⟩

/-- Writing that is refused changes nothing. -/
theorem eq_of_write_error {t t' : FileTree} {p : Path} {content : Bytes} {e : FileError}
    (h : t.perform (write p content) = (.error e, t')) : t' = t := by
  rw [write, perform_get_bind] at h
  rcases hp : t.locateNew p with e | ⟨_ | place⟩
  · rw [hp] at h
    cases h
    rfl
  · rw [hp] at h
    cases h
    rfl
  · simp only [hp] at h
    split_ifs at h <;> cases h <;> rfl

/-- Whether a file can be written does not depend on its content. -/
theorem fst_perform_write (t : FileTree) (p : Path) (content content' : Bytes) :
    (t.perform (write p content)).1 = (t.perform (write p content')).1 := by
  rw [write, write, perform_get_bind, perform_get_bind]
  rcases t.locateNew p with e | ⟨_ | place⟩
  · rfl
  · rfl
  · simp only
    split_ifs <;> rfl

section

variable {t t' : FileTree} {p q : Path} {content other : Bytes}

/-- What is at a place after a file was written: the content where the path leads to, and elsewhere
what was there before. -/
theorem node?_of_write (h : t.perform (write p content) = (.ok (), t')) (place : Place) :
    t'.node? place = if place = t.destination p then some (.file content) else t.node? place := by
  obtain ⟨written, hlocate, hne, -, rfl⟩ := exists_of_write h
  rw [node?_put t hne, eq_of_locate hlocate]

/-- Writing a file loses no folder. -/
theorem folders_of_write (h : t.perform (write p content) = (.ok (), t')) {place : Place}
    (hplace : t.node? place = some .folder) : t'.node? place = some .folder := by
  obtain ⟨written, -, hne, hfolder, rfl⟩ := exists_of_write h
  rw [node?_put t hne, if_neg, hplace]
  rintro rfl
  exact hfolder hplace

/-- Writing a file leaves the folder that relative paths start from. -/
theorem home_of_write (h : t.perform (write p content) = (.ok (), t')) : t'.home = t.home := by
  obtain ⟨_, _, _, _, rfl⟩ := exists_of_write h
  rfl

/-- The destination of a path depends on the home folder only. -/
theorem destination_congr (h : t'.home = t.home) (p : Path) :
    t'.destination p = t.destination p := by
  rw [destination, destination, start, start, h]

/-- A content is read when the path can be followed and leads to a file with that content. -/
theorem read_eq_ok_iff :
    t.read p = .ok content ↔
      t.locate p = .ok (t.destination p) ∧
        t.node? (t.destination p) = some (.file content) := by
  unfold read
  constructor
  · intro h
    cases hp : t.locate p with
    | error e =>
        rw [hp] at h
        cases h
    | ok place =>
        obtain rfl := eq_of_locate hp
        simp only [hp] at h
        rcases hn : t.node? (t.destination p) with _ | ⟨_ | _⟩
        · rw [hn] at h
          cases h
        · rw [hn] at h
          cases h
          exact ⟨rfl, rfl⟩
        · rw [hn] at h
          cases h
  · rintro ⟨hp, hn⟩
    simp only [hp, hn]

/-- A path leads to a file exactly when some content is read there. -/
theorem isFile_iff : t.isFile p = true ↔ ∃ content, t.read p = .ok content := by
  unfold isFile read
  cases t.locate p with
  | error e => simp
  | ok place =>
      simp only
      rcases t.node? place with _ | ⟨_ | _⟩ <;> simp

/-- What is read stays when folders are added. -/
theorem Grows.read (h : t.Grows t') (hread : t.read p = .ok content) :
    t'.read p = .ok content := by
  obtain ⟨hlocate, hnode⟩ := read_eq_ok_iff.mp hread
  rw [read_eq_ok_iff, destination_congr h.home]
  exact ⟨locate_of_folders h.home (fun _ hplace => h.kept hplace) hlocate, h.kept hnode⟩

/-- **What was written is read.** -/
theorem read_of_write (h : t.perform (write p content) = (.ok (), t')) :
    t'.read p = .ok content := by
  obtain ⟨place, hlocate, -⟩ := exists_of_write h
  obtain rfl := eq_of_locate hlocate
  rw [read_eq_ok_iff, destination_congr (home_of_write h), node?_of_write h, if_pos rfl]
  exact ⟨locate_of_folders (home_of_write h) (fun _ => folders_of_write h) hlocate, rfl⟩

/-- What is read at other places is read as before. -/
theorem read_of_write_of_ne (h : t.perform (write p content) = (.ok (), t'))
    (hne : t.destination q ≠ t.destination p) (hread : t.read q = .ok other) :
    t'.read q = .ok other := by
  obtain ⟨hlocate, hnode⟩ := read_eq_ok_iff.mp hread
  rw [read_eq_ok_iff, destination_congr (home_of_write h), node?_of_write h, if_neg hne]
  exact ⟨locate_of_folders (home_of_write h) (fun _ => folders_of_write h) hlocate, hnode⟩

/-! ### Contents of places -/

/-- The content of the file at a place. -/
def content? (t : FileTree) (place : Place) : Option Bytes :=
  match t.node? place with
  | some (.file content) => some content
  | _ => none

/-- What is read is the content of the place that the path leads to. -/
theorem content?_of_read (h : t.read p = .ok content) :
    t.content? (t.destination p) = some content := by
  rw [content?, (read_eq_ok_iff.mp h).2]

/-- More folders do not change the contents. -/
theorem Grows.content?_eq (h : t.Grows t') (place : Place) :
    t'.content? place = t.content? place := by
  rw [content?, content?]
  cases hnode : t.node? place with
  | some n => rw [h.kept hnode]
  | none =>
      cases hnode' : t'.node? place with
      | none => rfl
      | some n => rw [h.folders hnode hnode']

/-- Writing a file changes the content of the place that its path leads to. -/
theorem content?_of_write (h : t.perform (write p content) = (.ok (), t')) (place : Place) :
    t'.content? place = if place = t.destination p then some content else t.content? place := by
  rw [content?, node?_of_write h]
  split_ifs <;> rfl

/-! ### Saving -/

/-- The folders above a path are made before anything is written there. -/
def foldersAbove (p : Path) : ExceptT (Path × FileError) (StateM FileTree) Unit :=
  match p.parent? with
  | some above => ExceptT.adapt (above, ·) (createFolders above)
  | none => pure ()

/-- Making the folders above a path grows the tree. -/
theorem grows_foldersAbove (t : FileTree) (p : Path) : t.Grows (t.perform (foldersAbove p)).2 := by
  unfold foldersAbove
  cases p.parent? with
  | none => exact Grows.refl t
  | some above =>
      rw [perform_adapt]
      exact grows_createFolders t above

/-- Saving a file is making the folders above it and writing it. -/
theorem perform_save (t : FileTree) (p : Path) (content : Bytes) :
    t.perform (save p content) =
      match t.perform (foldersAbove p) with
      | (.ok _, above) =>
        ((above.perform (write p content)).1.mapError (p, ·), (above.perform (write p content)).2)
      | (.error e, above) => (.error e, above) := by
  have h : save p content = foldersAbove p >>= fun _ => ExceptT.adapt (p, ·) (write p content) := by
    rw [save, foldersAbove]
    cases p.parent? <;> rfl
  rw [h, perform_bind]
  rcases t.perform (foldersAbove p) with ⟨_ | _, above⟩
  · rfl
  · exact perform_adapt above _ _

/-- Saving a file that succeeds grows the tree and then writes the file. -/
theorem exists_of_save (h : t.perform (save p content) = (.ok (), t')) :
    ∃ above, t.Grows above ∧ above.perform (write p content) = (.ok (), t') := by
  have hgrows := grows_foldersAbove t p
  rw [perform_save] at h
  rcases hmade : t.perform (foldersAbove p) with ⟨e | _, above⟩
  · rw [hmade] at h
    cases h
  · rw [hmade] at h hgrows
    rcases hwritten : above.perform (write p content) with ⟨e | _, t''⟩
    · simp only [hwritten] at h
      cases h
    · simp only [hwritten] at h
      cases h
      exact ⟨above, hgrows, hwritten⟩

/-- Whether a file can be saved does not depend on its content. -/
theorem fst_perform_save (t : FileTree) (p : Path) (content content' : Bytes) :
    (t.perform (save p content)).1 = (t.perform (save p content')).1 := by
  rw [perform_save, perform_save]
  rcases t.perform (foldersAbove p) with ⟨_ | _, above⟩
  · rfl
  · simp only [fst_perform_write above p content content']

end

end BodyCache.FileTree
