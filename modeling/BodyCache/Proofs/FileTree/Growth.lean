import Mathlib.Tactic.SplitIfs
import BodyCache.FileTree

/-!
# Growth of File Trees

An operation on files may be refused half-way, and what it has changed before stays changed. This
module says what running an operation gives, refused or not, and that making folders changes a tree
in one way only: it grows by folders. Nothing is lost, and what is new is a folder.

## Main results

* `FileTree.perform_bind`, `FileTree.perform_tryCatch`: running a sequence, and a handler.
* `FileTree.Grows`: a tree with more folders.
* `FileTree.grows_createFolders`: making folders grows the tree, also when it is refused.
-/

namespace BodyCache.FileTree

/-! ### Running operations -/

/-- Runs an operation that reports errors of any kind. -/
def perform {ε α : Type} (t : FileTree) (x : ExceptT ε (StateM FileTree) α) :
    Except ε α × FileTree := (ExceptT.run x).run t

section

variable {ε ε' α β : Type} (t : FileTree)

/-- A value is given without a change. -/
@[simp] theorem perform_pure (a : α) :
    t.perform (pure a : ExceptT ε (StateM FileTree) α) = (.ok a, t) := rfl

/-- A refusal is given without a change. -/
@[simp] theorem perform_throw (e : ε) :
    t.perform (throw e : ExceptT ε (StateM FileTree) α) = (.error e, t) := rfl

/-- The tree is replaced. -/
@[simp] theorem perform_set (t' : FileTree) :
    t.perform (set t' : ExceptT ε (StateM FileTree) PUnit) = (.ok ⟨⟩, t') := rfl

/-- A sequence runs its second part on the tree that the first part leaves, unless that failed. -/
theorem perform_bind (x : ExceptT ε (StateM FileTree) α) (f : α → ExceptT ε (StateM FileTree) β) :
    t.perform (x >>= f) =
      match t.perform x with
      | (.ok a, t') => t'.perform (f a)
      | (.error e, t') => (.error e, t') := by
  simp only [perform]
  rw [ExceptT.run_bind, StateT.run_bind]
  rcases (ExceptT.run x).run t with ⟨_ | _, _⟩ <;> rfl

/-- Looking at the tree leaves it as it is. -/
theorem perform_get_bind (f : FileTree → ExceptT ε (StateM FileTree) α) :
    t.perform (get >>= f) = t.perform (f t) := rfl

/-- A handler runs on the tree that the failed part leaves. -/
theorem perform_tryCatch (x : ExceptT ε (StateM FileTree) α)
    (handle : ε → ExceptT ε (StateM FileTree) α) :
    t.perform (tryCatch x handle) =
      match t.perform x with
      | (.ok a, t') => (.ok a, t')
      | (.error e, t') => t'.perform (handle e) := by
  have h : t.perform (tryCatch x handle) = StateT.run ((ExceptT.run x) >>= fun r => match r with
      | .ok a => pure (.ok a)
      | .error e => ExceptT.run (handle e)) t := rfl
  rw [h, StateT.run_bind]
  simp only [perform]
  rcases (ExceptT.run x).run t with ⟨_ | _, _⟩ <;> rfl

/-- Seeing errors as those of another kind changes nothing else. -/
theorem perform_adapt (f : ε → ε') (x : ExceptT ε (StateM FileTree) α) :
    t.perform (ExceptT.adapt f x) = ((t.perform x).1.mapError f, (t.perform x).2) := by
  have h : t.perform (ExceptT.adapt f x) =
      StateT.run (Except.mapError f <$> ExceptT.run x) t := rfl
  rw [h]
  rfl

end

/-- Making a folder unless there is one. -/
theorem perform_ensureFolder (t : FileTree) (p : Path) :
    t.perform (ensureFolder p) =
      match t.perform (createFolder p) with
      | (.ok _, t') => (.ok (), t')
      | (.error e, t') => if t'.isFolder p then (.ok (), t') else (.error e, t') := by
  rw [ensureFolder, perform_bind, perform_tryCatch, perform_bind]
  rcases t.perform (createFolder p) with ⟨e | _, t'⟩
  · simp only [perform_get_bind]
    by_cases hf : t'.isFolder p = true
    · rw [if_pos hf, if_pos hf]
      rfl
    · rw [if_neg hf, if_neg hf]
      rfl
  · rfl

/-- Making a folder and those above it. -/
theorem perform_createFoldersWithin (t : FileTree) (depth : Nat) (p : Path) :
    t.perform (createFoldersWithin (depth + 1) p) =
      if p.text = "" then (.ok (), t)
      else
        match t.perform (createFolder p) with
        | (.ok _, t') => (.ok (), t')
        | (.error e, t') =>
          if e = .notFound then
            match p.parent? with
            | some above => t'.perform (createFoldersWithin depth above >>= fun _ => ensureFolder p)
            | none => (.error e, t')
          else if t'.isFolder p then (.ok (), t')
          else (.error e, t') := by
  rw [createFoldersWithin]
  by_cases hempty : p.text = ""
  · rw [if_pos hempty, if_pos hempty]
    rfl
  rw [if_neg hempty, if_neg hempty, perform_bind, perform_tryCatch, perform_bind]
  rcases t.perform (createFolder p) with ⟨e | _, t'⟩
  · by_cases he : e = .notFound
    · simp only [if_pos he]
      cases p.parent? with
      | none => rfl
      | some above =>
        simp only [perform_bind]
        rcases t'.perform (createFoldersWithin depth above) with ⟨_ | _, t₁⟩
        · rfl
        · simp only []
          rcases t₁.perform (ensureFolder p) with ⟨_ | _, t₁⟩ <;> rfl
    · simp only [if_neg he, perform_get_bind]
      by_cases hf : t'.isFolder p = true
      · rw [if_pos hf, if_pos hf]
        rfl
      · rw [if_neg hf, if_neg hf]
        rfl
  · rfl

/-! ### Growth by folders -/

/-- The second tree has what the first one has, and otherwise only folders. -/
structure Grows (t t' : FileTree) : Prop where
  /-- Relative paths start from the same folder. -/
  home : t'.home = t.home
  /-- What was there is still there. -/
  kept : ∀ {place : Place} {n : FileNode}, t.node? place = some n → t'.node? place = some n
  /-- What was not there is a folder, if it is there now. -/
  folders : ∀ {place : Place} {n : FileNode}, t.node? place = none → t'.node? place = some n →
    n = .folder

namespace Grows

variable {t t' t'' : FileTree}

/-- Nothing has to be added. -/
protected theorem refl (t : FileTree) : t.Grows t where
  home := rfl
  kept h := h
  folders h h' := by
    rw [h] at h'
    cases h'

/-- One growth after another. -/
protected theorem trans (h : t.Grows t') (h' : t'.Grows t'') : t.Grows t'' where
  home := h'.home.trans h.home
  kept hn := h'.kept (h.kept hn)
  folders {place n} hnone hn := by
    cases hmid : t'.node? place with
    | none => exact h'.folders hmid hn
    | some k =>
        have hk : k = .folder := h.folders hnone hmid
        have hn' := h'.kept hmid
        rw [hn] at hn'
        rw [Option.some.inj hn', hk]

end Grows

/-- What is at a place after something was put somewhere. -/
theorem node?_put (t : FileTree) {place : Place} (hplace : place ≠ []) (n : FileNode)
    (other : Place) :
    (t.put place n).node? other = if other = place then some n else t.node? other := by
  unfold node? put
  by_cases hroot : other = []
  · rw [if_pos hroot, if_pos hroot, hroot, if_neg hplace.symm]
  · rw [if_neg hroot, if_neg hroot, Table.find?_insert]
    by_cases h : other = place
    · rw [if_pos h, if_pos h.symm]
    · rw [if_neg h, if_neg (Ne.symm h)]

/-- A new node stands in a folder, and has a name that is no way of going on. -/
theorem exists_of_locateNew {t : FileTree} {p : Path} {place : Place}
    (h : t.locateNew p = .ok (some place)) :
    ∃ last before folder,
      (Path.split p.text.toList).reverse.dropWhile (· = []) = last :: before ∧
      t.follow (t.start p) before.reverse = .ok folder ∧ t.node? folder = some .folder ∧
      last ≠ ['.'] ∧ last ≠ ['.', '.'] ∧ place = folder ++ [last] := by
  unfold locateNew at h
  cases hsegments : (Path.split p.text.toList).reverse.dropWhile (· = []) with
  | nil =>
      simp only [hsegments] at h
      split_ifs at h
      cases h
  | cons last before =>
      simp only [hsegments] at h
      cases hfollow : t.follow (t.start p) before.reverse with
      | error e =>
          rw [hfollow] at h
          cases h
      | ok folder =>
          simp only [hfollow, bind, Except.bind] at h
          rcases hfolder : t.node? folder with _ | ⟨_ | _⟩
          · rw [hfolder] at h
            cases h
          · rw [hfolder] at h
            cases h
          · simp only [hfolder] at h
            split_ifs at h with hdots
            · cases h
            · obtain ⟨hdot, hdots⟩ := not_or.mp hdots
              cases h
              exact ⟨last, before, folder, rfl, hfollow, hfolder, hdot, hdots, rfl⟩

/-- A new node has a name, so it is not the root. -/
theorem ne_nil_of_locateNew {t : FileTree} {p : Path} {place : Place}
    (h : t.locateNew p = .ok (some place)) : place ≠ [] := by
  obtain ⟨last, _, folder, -, -, -, -, -, rfl⟩ := exists_of_locateNew h
  simp

/-- Making a folder adds that folder at most. -/
theorem grows_createFolder (t : FileTree) (p : Path) : t.Grows (t.perform (createFolder p)).2 := by
  rw [createFolder, perform_get_bind]
  rcases hp : t.locateNew p with e | ⟨_ | place⟩
  · exact Grows.refl t
  · exact Grows.refl t
  · simp only
    cases hn : t.node? place with
    | some n => exact Grows.refl t
    | none =>
        have hplace := ne_nil_of_locateNew hp
        refine ⟨rfl, ?_, ?_⟩
        · intro other n h
          rw [perform_set, node?_put t hplace, if_neg, h]
          rintro rfl
          rw [hn] at h
          cases h
        · intro other n hnone h
          rw [perform_set, node?_put t hplace] at h
          split_ifs at h with heq
          · exact (Option.some.inj h).symm
          · rw [hnone] at h
            cases h

/-- Making a folder unless there is one adds that folder at most. -/
theorem grows_ensureFolder (t : FileTree) (p : Path) : t.Grows (t.perform (ensureFolder p)).2 := by
  have hgrows := grows_createFolder t p
  rw [perform_ensureFolder]
  generalize t.perform (createFolder p) = made at hgrows ⊢
  obtain ⟨e | _, t'⟩ := made
  · simp only
    split_ifs <;> exact hgrows
  · exact hgrows

/-- Making folders adds folders at most, also when it fails on the way. -/
theorem grows_createFolders (t : FileTree) (p : Path) :
    t.Grows (t.perform (createFolders p)).2 := by
  have hwithin : ∀ depth (t : FileTree) (p : Path),
      t.Grows (t.perform (createFoldersWithin depth p)).2 := by
    intro depth
    induction depth with
    | zero => exact fun t _ => Grows.refl t
    | succ depth ih =>
        intro t p
        have hgrows := grows_createFolder t p
        rw [perform_createFoldersWithin]
        split_ifs with hempty
        · exact Grows.refl t
        generalize t.perform (createFolder p) = made at hgrows ⊢
        obtain ⟨e | _, t'⟩ := made
        · simp only
          split_ifs
          · cases p.parent? with
            | none => exact hgrows
            | some above =>
                have habove := Grows.trans hgrows (ih t' above)
                simp only [perform_bind]
                generalize t'.perform (createFoldersWithin depth above) = made at habove ⊢
                obtain ⟨_ | _, t''⟩ := made
                · exact habove
                · exact habove.trans (grows_ensureFolder t'' p)
          · exact hgrows
          · exact hgrows
        · exact hgrows
  exact hwithin _ t p

end BodyCache.FileTree
