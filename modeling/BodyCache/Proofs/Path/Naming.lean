import Mathlib.Data.List.Basic
import BodyCache.Path

/-!
# Names in a Folder

A name that is put after a folder makes the path of something that lies directly in that folder,
whatever the text of the folder looks like. The extension of the name can be exchanged there: the
stem is kept, and with it the folder. There is one exception. If the stem is a single dot, nothing
but two dots is left when the old extension is cut off, so that the result is the folder above.

## Main results

* `Path.components`: what tells paths apart.
* `Path.components_lead`: a name that is put after a folder lies in it.
* `Path.splitName_append`: a name with a dot, cut into stem and extension.
* `Path.text_withExtension`: a name in a folder, with another extension.
-/

namespace BodyCache.Path

/-! ### Segments and components -/

/-- What can be the name of a file counts. -/
theorem counts_of_isName {s : Segment} (h : isName s = true) : counts s = true := by
  rw [isName, Bool.and_eq_true] at h
  exact h.1

/-- A text without slashes is one segment. -/
theorem split_of_not_mem {cs : List Char} (h : '/' ∉ cs) : split cs = [cs] := by
  induction cs with
  | nil => rfl
  | cons c cs ih =>
      rw [List.mem_cons, not_or] at h
      rw [split, if_neg (Ne.symm h.1), ih h.2]

/-- A text without slashes is that of a relative path. -/
theorem isAbsoluteText_of_not_mem {cs : List Char} (h : '/' ∉ cs) : isAbsoluteText cs = false :=
  decide_eq_false fun hhead => h (List.mem_of_mem_head? (by rw [hhead]; rfl))

/-- A slash separates segments. -/
theorem split_append_slash (cs ds : List Char) :
    split (cs ++ '/' :: ds) = split cs ++ split ds := by
  induction cs with
  | nil => rfl
  | cons c cs ih =>
      rw [List.cons_append, split, split, ih]
      by_cases hc : c = '/'
      · rw [if_pos hc, if_pos hc, List.cons_append]
      · rw [if_neg hc, if_neg hc]
        cases h : split cs with
        | nil => exact absurd h (split_ne_nil cs)
        | cons s ss => rfl

/-- The components of a text: its segments that count. The first one counts unless it is empty, and
stands for the root if it is empty and the path is absolute. -/
def componentsIn (cs : List Char) : List Segment :=
  match split cs with
  | [] => []
  | first :: rest =>
    (if first = [] ∧ isAbsoluteText cs = false then [] else [first]) ++ rest.filter counts

/-- The components of a path. Paths with the same components are the same path. -/
def components (p : Path) : List Segment := componentsIn p.text.toList

/-- The path leads to something with a name of its own that lies directly in a folder. -/
structure LiesIn (p : Path) (name : Segment) (folder : Path) : Prop where
  isName : Path.isName name = true
  components : p.components = folder.components ++ [name]

/-- A segment after a slash is a further component, if it counts. -/
theorem componentsIn_append_slash (cs : List Char) {s : Segment} (h : '/' ∉ s) :
    componentsIn (cs ++ '/' :: s) = componentsIn (cs ++ ['/']) ++ [s].filter counts := by
  have habsolute : isAbsoluteText (cs ++ '/' :: s) = isAbsoluteText (cs ++ ['/']) := by
    cases cs <;> rfl
  rw [componentsIn, componentsIn, habsolute, split_append_slash, split_append_slash,
    split_of_not_mem h]
  cases hsplit : split cs with
  | nil => exact absurd hsplit (split_ne_nil cs)
  | cons first rest =>
      have hempty : split [] = [[]] := rfl
      simp only [List.cons_append, List.filter_append, hempty]
      have hnone : [([] : Segment)].filter counts = [] := rfl
      rw [hnone, List.append_nil, List.append_assoc]

/-- A slash at the end does not count, except as the root. -/
theorem componentsIn_slash {cs : List Char} (h : cs ≠ []) :
    componentsIn (cs ++ ['/']) = componentsIn cs := by
  have habsolute : isAbsoluteText (cs ++ ['/']) = isAbsoluteText cs := by
    cases cs with
    | nil => exact absurd rfl h
    | cons c cs => rfl
  rw [componentsIn, componentsIn, habsolute, split_append_slash]
  cases hsplit : split cs with
  | nil => exact absurd hsplit (split_ne_nil cs)
  | cons first rest =>
      have hempty : split [] = [[]] := rfl
      have hnone : [([] : Segment)].filter counts = [] := rfl
      simp only [List.cons_append, List.filter_append, hempty, hnone, List.append_nil]

/-! ### Names after a folder -/

/-- A text that a name can follow: nothing, or a text that ends in a slash. -/
def IsLead (cs : List Char) : Prop := cs = [] ∨ ∃ before, cs = before ++ ['/']

/-- What stands before a name in a folder. -/
def lead (folder : Path) : List Char :=
  if folder.text = "" ∨ folder.text.toList.getLast? = some '/' then folder.text.toList
  else folder.text.toList ++ ['/']

/-- A name can follow what stands before it. -/
theorem isLead_lead (folder : Path) : IsLead folder.lead := by
  rw [lead]
  split
  · next h =>
    obtain hempty | hslash := h
    · exact .inl (by rw [hempty]; rfl)
    · exact .inr ⟨_, (List.dropLast_append_getLast? _ hslash).symm⟩
  · exact .inr ⟨_, rfl⟩

/-- A name that is seen from a folder stands after it. -/
theorem text_join (folder : Path) {name : String} (h : '/' ∉ name.toList) :
    (folder.join ⟨name⟩).text.toList = folder.lead ++ name.toList := by
  have habsolute : (Path.mk name).isAbsolute = false := isAbsoluteText_of_not_mem h
  rw [join, habsolute, lead]
  split
  · next h => cases h
  · split <;> simp

/-- **A name that stands after a folder lies in it.** -/
theorem components_lead (folder : Path) {name : Segment} (hslash : '/' ∉ name)
    (hcounts : counts name = true) :
    componentsIn (folder.lead ++ name) = folder.components ++ [name] := by
  have hone : [name].filter counts = [name] := by
    rw [List.filter_cons_of_pos hcounts, List.filter_nil]
  rw [components, lead]
  by_cases hempty : folder.text = ""
  · have hne : name ≠ [] := by
      rintro rfl
      cases hcounts
    rw [if_pos (.inl hempty), hempty, String.toList_empty, List.nil_append, componentsIn,
      split_of_not_mem hslash]
    simp only [hne, false_and, if_false, List.filter_nil, List.append_nil]
    rfl
  · by_cases hlast : folder.text.toList.getLast? = some '/'
    · obtain ⟨before, hbefore⟩ : ∃ before, folder.text.toList = before ++ ['/'] :=
        ⟨_, (List.dropLast_append_getLast? _ hlast).symm⟩
      rw [if_pos (.inr hlast), hbefore, List.append_assoc, List.singleton_append,
        componentsIn_append_slash before hslash, hone]
    · have hne : folder.text.toList ≠ [] := fun h => hempty (String.toList_eq_nil_iff.mp h)
      rw [if_neg (not_or.mpr ⟨hempty, hlast⟩), List.append_assoc, List.singleton_append,
        componentsIn_append_slash _ hslash, componentsIn_slash hne, hone]

section

variable {cs : List Char} {name : Segment} (hlead : IsLead cs) (hslash : '/' ∉ name)
  (hcounts : counts name = true)

include hlead hslash hcounts

/-- The parts of a text that ends in a name. -/
theorem parts_append :
    cs = [] ∧ parts (cs ++ name) = (name, []) ∨
      ∃ first rest, parts (cs ++ name) = (first, rest ++ [name]) ∧
        joined (first :: rest) ++ ['/'] = cs := by
  obtain rfl | ⟨before, rfl⟩ := hlead
  · left
    rw [List.nil_append, parts, split_of_not_mem hslash]
    exact ⟨rfl, rfl⟩
  · right
    rw [List.append_assoc, List.singleton_append, parts, split_append_slash,
      split_of_not_mem hslash]
    cases hsplit : split before with
    | nil => exact absurd hsplit (split_ne_nil before)
    | cons first rest =>
        refine ⟨first, rest, ?_, by rw [← hsplit, joined_split]⟩
        have htrimmed : trimmed (rest ++ [name]) = rest ++ [name] := by
          rw [trimmed, List.reverse_append, List.reverse_singleton, List.singleton_append,
            List.dropWhile_cons_of_neg (by simp [hcounts]), List.reverse_cons, List.reverse_reverse]
        simp only [List.cons_append, htrimmed]

/-- The name of the file is what follows, if it can be one. -/
theorem nameIn?_append : nameIn? (cs ++ name) = if isName name then some name else none := by
  obtain ⟨rfl, hparts⟩ | ⟨first, rest, hparts, -⟩ := parts_append hlead hslash hcounts
  · have habsolute : isAbsoluteText ([] ++ name) = false := isAbsoluteText_of_not_mem hslash
    rw [nameIn?, hparts, habsolute]
    rfl
  · rw [nameIn?, hparts]
    simp only [List.getLast?_append, List.getLast?_singleton, Option.some_or, Option.getD_some]

/-- What stands before the name is what the name follows. -/
theorem beforeName_append : beforeName (cs ++ name) = cs := by
  obtain ⟨rfl, hparts⟩ | ⟨first, rest, hparts, hjoined⟩ := parts_append hlead hslash hcounts
  · rw [beforeName, hparts]
    rfl
  · rw [beforeName, hparts]
    simp only [List.append_ne_nil_of_right_ne_nil rest (List.cons_ne_nil name []), if_false,
      List.dropLast_concat]
    exact hjoined

/-- An extension is put after the stem of the name, if it can be the name of a file. -/
theorem putExtension_append (extension : List Char) :
    putExtension (cs ++ name) extension =
      cs ++ if isName name then (splitName name).1 ++ '.' :: extension else name := by
  rw [putExtension, nameIn?_append hlead hslash hcounts, beforeName_append hlead hslash hcounts]
  by_cases hname : isName name = true
  · simp only [hname, if_true, List.append_assoc]
  · simp only [hname, if_false, Bool.false_eq_true]

end

/-! ### Stems and extensions -/

/-- From the end of a name, everything up to a dot is taken. -/
theorem takeWhile_reverse_append {extension : Segment} (h : '.' ∉ extension) (rest : Segment) :
    (extension.reverse ++ rest).takeWhile (· ≠ '.') =
      extension.reverse ++ rest.takeWhile (· ≠ '.') := by
  refine List.takeWhile_append_of_pos fun c hc => decide_eq_true ?_
  rintro rfl
  exact h (List.mem_reverse.mp hc)

/-- A name without a dot has no extension. -/
theorem splitName_of_not_mem {name : Segment} (h : '.' ∉ name) : splitName name = (name, none) := by
  have hafter := takeWhile_reverse_append h []
  rw [List.append_nil, List.takeWhile_nil, List.append_nil] at hafter
  rw [splitName, hafter]
  exact if_pos (.inl List.length_reverse)

/-- The extension of a name follows its last dot, unless nothing stands before the dot. -/
theorem splitName_append (stem : Segment) {extension : Segment} (h : '.' ∉ extension) :
    splitName (stem ++ '.' :: extension) =
      if stem = [] then (stem ++ '.' :: extension, none) else (stem, some extension) := by
  have hreverse : (stem ++ '.' :: extension).reverse =
      extension.reverse ++ '.' :: stem.reverse := by simp
  have hafter := takeWhile_reverse_append h ('.' :: stem.reverse)
  rw [List.takeWhile_cons_of_neg (by simp), List.append_nil] at hafter
  have hbefore : ((extension.reverse ++ '.' :: stem.reverse).drop
      (extension.reverse.length + 1)).reverse = stem := by
    rw [List.drop_length_add_append]
    simp
  have hlength : extension.reverse.length ≠ (stem ++ '.' :: extension).length := by
    simp only [List.length_reverse, List.length_append, List.length_cons]
    omega
  rw [splitName, hreverse, hafter, hbefore, List.reverse_reverse]
  simp only [hlength, false_or]

/-- A name is its own stem, or its stem, a dot and its extension. -/
theorem splitName_cases (name : Segment) :
    splitName name = (name, none) ∨
      ∃ stem extension, stem ≠ [] ∧ name = stem ++ '.' :: extension ∧
        splitName name = (stem, some extension) := by
  by_cases hdot : '.' ∈ name
  · obtain ⟨after, before, hreverse, hafter⟩ :=
      List.eq_append_cons_of_mem (List.mem_reverse.mpr hdot)
    have hname : name = before.reverse ++ '.' :: after.reverse := by
      rw [← List.reverse_reverse name, hreverse]
      simp
    have hsplit := splitName_append before.reverse (fun h => hafter (List.mem_reverse.mp h))
    rw [← hname] at hsplit
    by_cases hstem : before.reverse = []
    · exact .inl (by rw [hsplit, if_pos hstem])
    · exact .inr ⟨_, _, hstem, hname, by rw [hsplit, if_neg hstem]⟩
  · exact .inl (splitName_of_not_mem hdot)

/-- A stem with a dot after it counts. -/
theorem counts_concat_dot {stem : Segment} (h : stem ≠ []) : counts (stem ++ ['.']) = true := by
  simp [counts, h]

/-- A stem with a dot after it is still the name of a file, unless that makes two dots. -/
theorem isName_concat_dot {stem : Segment} (h : stem ≠ []) :
    isName (stem ++ ['.']) = decide (stem ≠ ['.']) := by
  have hdots : stem ++ ['.'] = ['.'] ++ ['.'] ↔ stem = ['.'] := List.append_left_inj ['.']
  rw [isName, ← counts, counts_concat_dot h, Bool.true_and]
  exact decide_eq_decide.mpr (not_congr hdots)

/-- Cutting an extension off leaves the dot before it. -/
theorem take_of_extension (cs extension : List Char) :
    (cs ++ '.' :: extension).take ((cs ++ '.' :: extension).length - extension.length) =
      cs ++ ['.'] := by
  have hbehind : cs ++ '.' :: extension = cs ++ ['.'] ++ extension := by simp
  rw [hbehind, List.length_append, Nat.add_sub_cancel, List.take_left]

/-- **A name in a folder, with another extension**: the new name has the stem of the old one and
lies in the same folder, except that the stem of a single dot becomes two dots. -/
theorem text_withExtension {cs : List Char} {name : Segment} (hlead : IsLead cs)
    (hslash : '/' ∉ name) (hname : isName name = true) (extension : String) :
    ((Path.mk (String.ofList (cs ++ name))).withExtension extension).text.toList =
      cs ++ if (splitName name).1 = ['.'] then ['.', '.']
        else (splitName name).1 ++ '.' :: extension.toList := by
  have hcounts := counts_of_isName hname
  have htext : (Path.mk (String.ofList (cs ++ name))).text.toList = cs ++ name :=
    String.toList_ofList ..
  simp only [withExtension, htext, nameIn?_append hlead hslash hcounts, hname, if_true,
    Option.bind_some]
  obtain hsplit | ⟨stem, old, hstem, rfl, hsplit⟩ := splitName_cases name
  · -- Without an old extension, the name itself is the stem, and it is not a single dot.
    have hdot : name ≠ ['.'] := by
      rintro rfl
      cases hcounts
    rw [hsplit]
    simp only [putExtension_append hlead hslash hcounts, hname, hsplit, if_true, hdot, if_false,
      String.toList_ofList]
  · -- The dot of the old extension stays at first, behind the stem.
    have hcut := take_of_extension (cs ++ stem) old
    rw [List.append_assoc, List.append_assoc] at hcut
    have hslash' : '/' ∉ stem ++ ['.'] := by
      simp only [List.mem_append, List.mem_cons, not_or] at hslash ⊢
      exact ⟨hslash.1, by decide, List.not_mem_nil⟩
    have hsplit' : splitName (stem ++ ['.']) = (stem, some []) := by
      rw [splitName_append stem List.not_mem_nil, if_neg hstem]
    have hput := putExtension_append hlead hslash' (counts_concat_dot hstem) extension.toList
    rw [isName_concat_dot hstem, hsplit'] at hput
    rw [hsplit]
    simp only [hcut, hput, String.toList_ofList]
    by_cases hdot : stem = ['.']
    · simp [hdot]
    · simp [hdot]

end BodyCache.Path
