import Mathlib
import BodyCache.Proofs.FileTree.Writing
import BodyCache.Proofs.Path.Naming
import BodyCache.Settings

/-!
# The Files That Settings Point To

Settings that are accepted name a container file and, by exchanging its extension, a map file. The
container file always lies directly in the directory of the settings. With two kinds of names the
map file is not what it should be: if nothing but a dot stands before the last dot of the name, then
the map file is the folder above the directory, and if the name has the extension of map files
itself, then both files are the same. With all other names the map file lies beside the container
file, is named by its stem, and is another file whatever the file tree looks like.

## Main results

* `SnapshotPaths.components_inFolder`: where the two files of a snapshot are.
* `Settings.usable_iff_of_ofText`: accepted settings, and exactly when their files are usable.
* `Settings.unusable_pairs_are_accepted`: settings that are accepted with unusable files.
-/

namespace BodyCache

/-! ### Places -/

namespace FileTree

open BodyCache.Path

/-- A name leads down. -/
theorem hop_of_isName (place : Place) {name : Segment} (h : isName name = true) :
    hop place name = place ++ [name] := by
  simp only [isName, Bool.and_eq_true, decide_eq_true_eq] at h
  obtain ⟨⟨hempty, hdot⟩, hdots⟩ := h
  rw [hop, if_neg (not_or.mpr ⟨hempty, hdot⟩), if_neg hdots]

/-- Names that follow the same text are names in the same place. -/
theorem exists_destination_eq (t : FileTree) {cs : List Char} (hlead : IsLead cs) :
    ∃ place, ∀ {name : Segment}, '/' ∉ name → isName name = true →
      ∀ p : Path, p.text.toList = cs ++ name → t.destination p = place ++ [name] := by
  obtain rfl | ⟨before, rfl⟩ := hlead
  · refine ⟨t.home, fun {name} hslash hname p hp => ?_⟩
    have habsolute : p.isAbsolute = false := by
      rw [isAbsolute, hp, List.nil_append]
      exact isAbsoluteText_of_not_mem hslash
    rw [destination, start, habsolute, hp, List.nil_append, split_of_not_mem hslash]
    exact hop_of_isName t.home hname
  · refine ⟨(split before).foldl hop (if isAbsoluteText (before ++ ['/']) then [] else t.home),
      fun {name} hslash hname p hp => ?_⟩
    rw [List.append_assoc, List.singleton_append] at hp
    have habsolute : p.isAbsolute = isAbsoluteText (before ++ ['/']) := by
      rw [isAbsolute, hp]
      cases before <;> rfl
    rw [destination, start, habsolute, hp, split_append_slash, split_of_not_mem hslash,
      List.foldl_append]
    exact hop_of_isName _ hname

end FileTree

/-! ### The files of a snapshot -/

namespace SnapshotPaths

open BodyCache.Path

variable {file stem : String}

/-- The stem of a name without slashes is read off the name. -/
theorem isName_of_fileStem? (hslash : '/' ∉ file.toList)
    (hstem : (Path.mk file).fileStem? = some stem) :
    isName file.toList = true ∧ stem.toList = (splitName file.toList).1 := by
  obtain ⟨name, hname, rfl⟩ := Option.map_eq_some_iff.mp hstem
  have hcounts : counts file.toList = true := by
    by_contra hcounts
    have hnothing : file.toList = [] ∨ file.toList = ['.'] := by
      simpa [counts, or_iff_not_imp_left] using hcounts
    obtain hnothing | hnothing := hnothing <;>
      · simp only [hnothing] at hname
        cases hname
  have happend := nameIn?_append (.inl rfl) hslash hcounts
  rw [List.nil_append, hname] at happend
  split at happend
  · next h =>
    cases happend
    exact ⟨h, String.toList_ofList ..⟩
  · cases happend

/-- The name of the map file beside a container file with the given stem. -/
def mapFile (stem : String) : String := stem ++ "." ++ mapExtension

/-- The name of a map file can be the name of a file. -/
theorem isName_mapFile (stem : String) : isName (mapFile stem).toList = true := by
  have hlength : 7 ≤ (mapFile stem).toList.length := by
    have hadded : ".".toList.length + mapExtension.toList.length = 7 := rfl
    rw [mapFile, String.toList_append, String.toList_append, List.length_append, List.length_append]
    omega
  generalize (mapFile stem).toList = name at hlength
  simp only [isName, Bool.and_eq_true, decide_eq_true_eq]
  refine ⟨⟨?_, ?_⟩, ?_⟩ <;>
    · rintro rfl
      simp at hlength

/-- The container file follows the folder. -/
theorem text_container_inFolder (folder : Path) (hslash : '/' ∉ file.toList) :
    (inFolder folder file).container.text.toList = folder.lead ++ file.toList :=
  text_join folder hslash

section

variable (folder : Path) (hslash : '/' ∉ file.toList)
  (hstem : (Path.mk file).fileStem? = some stem)

include hslash hstem

/-- The name of a map file has no slashes. -/
theorem not_mem_mapFile : '/' ∉ (mapFile stem).toList := by
  have hsub : ∀ c ∈ stem.toList, c ∈ file.toList := by
    rw [(isName_of_fileStem? hslash hstem).2]
    obtain hsplit | ⟨before, extension, -, hname, hsplit⟩ := splitName_cases file.toList
    · rw [hsplit]
      exact fun _ hc => hc
    · rw [hsplit, hname]
      exact fun _ hc => List.mem_append_left _ hc
  intro hmem
  rw [mapFile, String.toList_append, String.toList_append, List.mem_append, List.mem_append] at hmem
  obtain (hmem | hmem) | hmem := hmem
  · exact hslash (hsub _ hmem)
  · exact absurd hmem (by decide)
  · exact absurd hmem (by decide)

/-- The name of the map file follows the folder, unless the stem is a dot. -/
theorem text_map_inFolder :
    (inFolder folder file).map.text.toList =
      folder.lead ++ if stem = "." then ['.', '.'] else (mapFile stem).toList := by
  obtain ⟨hname, hsplit⟩ := isName_of_fileStem? hslash hstem
  have hcontainer : folder.join ⟨file⟩ = ⟨String.ofList (folder.lead ++ file.toList)⟩ := by
    rw [← text_join folder hslash, String.ofList_toList]
  have hdot : stem.toList = ".".toList ↔ stem = "." := String.toList_inj
  change stem.toList = ['.'] ↔ stem = "." at hdot
  rw [inFolder, hcontainer, text_withExtension folder.isLead_lead hslash hname, ← hsplit]
  simp only [hdot, mapFile, String.toList_append, List.append_assoc]
  rfl

/-- **Where the two files of a snapshot are**: directly in the folder, under the given name and
under the name of the map file, except that the stem of a single dot leads to the folder above. -/
theorem components_inFolder :
    (inFolder folder file).container.components = folder.components ++ [file.toList] ∧
      (inFolder folder file).map.components =
        folder.components ++ [if stem = "." then ['.', '.'] else (mapFile stem).toList] := by
  obtain ⟨hname, -⟩ := isName_of_fileStem? hslash hstem
  refine ⟨?_, ?_⟩
  · rw [components, text_container_inFolder folder hslash]
    exact components_lead folder hslash (counts_of_isName hname)
  · rw [components, text_map_inFolder folder hslash hstem]
    split
    · exact components_lead folder (by decide) rfl
    · exact components_lead folder (not_mem_mapFile hslash hstem)
        (counts_of_isName (isName_mapFile stem))

/-- The map file lies in the folder, except with the stem of a single dot. -/
theorem liesIn_map_inFolder_iff :
    (inFolder folder file).map.LiesIn (mapFile stem).toList folder ↔ stem ≠ "." := by
  obtain ⟨-, hmap⟩ := components_inFolder folder hslash hstem
  constructor
  · rintro hlies rfl
    -- The path of the folder above ends in two dots, which are not a name.
    have hcomponents := hlies.components
    rw [hmap, if_pos rfl, List.append_cancel_left_eq, List.cons.injEq] at hcomponents
    have hlast := isName_mapFile "."
    rw [← hcomponents.1] at hlast
    cases hlast
  · intro hdot
    rw [if_neg hdot] at hmap
    exact ⟨isName_mapFile stem, hmap⟩

/-- The two paths differ, except with the name of the map file for the container file. -/
theorem components_inFolder_ne_iff :
    (inFolder folder file).container.components ≠ (inFolder folder file).map.components ↔
      stem = "." ∨ file ≠ mapFile stem := by
  obtain ⟨hname, -⟩ := isName_of_fileStem? hslash hstem
  obtain ⟨hcontainer, hmap⟩ := components_inFolder folder hslash hstem
  rw [hcontainer, hmap, ne_eq, List.append_cancel_left_eq, List.cons.injEq, and_iff_left rfl]
  by_cases hdot : stem = "."
  · have hdots : file.toList ≠ ['.', '.'] := by
      intro hdots
      rw [hdots] at hname
      cases hname
    simp [hdot, hdots]
  · rw [if_neg hdot, String.toList_inj, or_iff_right hdot]

/-- Two different names for the two files are names of two different places. -/
theorem destination_inFolder_ne (hdot : stem ≠ ".") (hne : file ≠ mapFile stem) (t : FileTree) :
    t.destination (inFolder folder file).container ≠ t.destination (inFolder folder file).map := by
  obtain ⟨hname, -⟩ := isName_of_fileStem? hslash hstem
  obtain ⟨place, hplace⟩ := t.exists_destination_eq folder.isLead_lead
  have hmap := text_map_inFolder folder hslash hstem
  rw [if_neg hdot] at hmap
  rw [hplace hslash hname _ (text_container_inFolder folder hslash),
    hplace (not_mem_mapFile hslash hstem) (isName_mapFile stem) _ hmap]
  intro hsame
  obtain ⟨-, hsame⟩ := List.append_inj hsame rfl
  exact hne (String.toList_inj.mp (List.cons.inj hsame).1)

end

end SnapshotPaths

/-! ### Accepted settings -/

namespace Settings

open SnapshotPaths

variable {s s' : Settings} {text : String}

/-- Settings that are accepted stay as they are, and name a container file without slashes. -/
theorem of_check_eq_ok (h : s.check = .ok s') :
    s' = s ∧ '/' ∉ s.containerFile.toList ∧
      ∃ stem, (Path.mk s.containerFile).fileStem? = some stem := by
  rw [check] at h
  split at h
  · cases h
  · dsimp only at h
    split at h
    · cases h
    · next hname =>
      cases h
      obtain ⟨hstem, hslash, -⟩ := not_or.mp hname |>.imp_right not_or.mp
      refine ⟨rfl, hslash, Option.ne_none_iff_exists'.mp fun hnone => hstem ?_⟩
      rw [hnone]
      rfl

/-- Settings from a text have been checked. -/
theorem check_of_ofText (h : ofText text = .ok s) : s.check = .ok s := by
  rw [ofText] at h
  split at h
  · next hread =>
    obtain ⟨rfl, -⟩ := of_check_eq_ok h
    exact h
  · cases h

/-- **Accepted settings, and exactly when their files are usable.** The container file lies directly
in the directory, under the name that is given for it. The map file lies directly in the directory,
under the stem of that name and with the extension of map files, exactly when the stem is not a
single dot; and the two paths differ exactly when the stem is a single dot or the name is not that
of the map file. With a stem other than a dot and a name other than that of the map file, the two
files are different files in every file tree. -/
theorem usable_iff_of_ofText (h : ofText text = .ok s) :
    ∃ stem, (Path.mk s.containerFile).fileStem? = some stem ∧
      s.paths.container = s.directory.join ⟨s.containerFile⟩ ∧
      s.paths.container.LiesIn s.containerFile.toList s.directory ∧
      (s.paths.map.LiesIn (mapFile stem).toList s.directory ↔ stem ≠ ".") ∧
      (s.paths.container.components ≠ s.paths.map.components ↔
        stem = "." ∨ s.containerFile ≠ mapFile stem) ∧
      (stem ≠ "." → s.containerFile ≠ mapFile stem → ∀ files : FileTree,
        files.destination s.paths.container ≠ files.destination s.paths.map) := by
  obtain ⟨-, hslash, stem, hstem⟩ := of_check_eq_ok (check_of_ofText h)
  obtain ⟨hname, -⟩ := isName_of_fileStem? hslash hstem
  obtain ⟨hcontainer, -⟩ := components_inFolder s.directory hslash hstem
  exact ⟨stem, hstem, rfl, ⟨hname, hcontainer⟩, liesIn_map_inFolder_iff s.directory hslash hstem,
    components_inFolder_ne_iff s.directory hslash hstem, fun hdot hne files =>
      destination_inFolder_ne s.directory hslash hstem hdot hne files⟩

/-- The settings in a text that is well formed are checked. -/
theorem ofText_of_parse? (h : (Toml.parse? text).bind ofDocument? = some s) :
    ofText text = s.check := by
  rw [ofText, h]

/-- A name of dots only, with its stem and a map file beside it. -/
theorem usable_iff_of_ofText_dots :
    ∃ s, ofText "[cache]\ncontainer_file = \"...\"\n" = .ok s ∧
      s.paths.map.LiesIn "...dexmap".toList s.directory ∧
      ∀ files : FileTree, files.destination s.paths.container ≠ files.destination s.paths.map := by
  have hread : (Toml.parse? "[cache]\ncontainer_file = \"...\"\n").bind ofDocument? =
      some { containerFile := "..." } := by cbv
  have haccepted : ofText "[cache]\ncontainer_file = \"...\"\n" =
      .ok { containerFile := "..." } := (ofText_of_parse? hread).trans rfl
  obtain ⟨stem, hstem, -, -, hmap, -, hdiffer⟩ := usable_iff_of_ofText haccepted
  have hdots : stem = ".." := Option.some.inj (hstem.symm.trans (by decide))
  subst hdots
  exact ⟨_, haccepted, hmap.mpr (by decide), hdiffer (by decide) (by decide)⟩

/-- **Settings that are accepted with unusable files.** With one name the map file would be the
folder above the directory, with another one both files are the same file. -/
theorem unusable_pairs_are_accepted :
    (∃ s, ofText "[cache]\ncontainer_file = \"..dex\"\n" = .ok s ∧
      s.paths = ⟨⟨".dexon-cache/..dex"⟩, ⟨".dexon-cache/.."⟩⟩) ∧
    ∃ s, ofText "[cache]\ncontainer_file = \"a.dexmap\"\n" = .ok s ∧
      s.paths = ⟨⟨".dexon-cache/a.dexmap"⟩, ⟨".dexon-cache/a.dexmap"⟩⟩ := by
  have habove : (Toml.parse? "[cache]\ncontainer_file = \"..dex\"\n").bind ofDocument? =
      some { containerFile := "..dex" } := by cbv
  have hsame : (Toml.parse? "[cache]\ncontainer_file = \"a.dexmap\"\n").bind ofDocument? =
      some { containerFile := "a.dexmap" } := by cbv
  exact ⟨⟨_, (ofText_of_parse? habove).trans rfl, by decide⟩,
    ⟨_, (ofText_of_parse? hsame).trans rfl, by decide⟩⟩

end Settings

end BodyCache
