import BodyCache.Slot

/-!
# The Last Thing with a Property

Where several entries claim one key, the last one counts. `IsLast` says what that means without
mentioning a list or a search: a place holds something with the property, and every place that
holds such a thing comes before it or is the same; or no place holds such a thing. Slots come in the
order of their groups, and within a group in the order of its members, and the list of all members
with their slots is in this order.

## Main results

* `pairwise_enumerate_zipIdx`: the members of groups are listed in the order of their slots.
* `IsLast.unique`: there is one last thing with a property, or none.
* `isLast_find?`: a search from the end of a list in order finds the last thing with a property.
-/

namespace BodyCache

/-- What a search for the last thing with a property comes to: something that is at a place and has
the property, such that no later place holds another one, or nothing if no place holds one. -/
inductive IsLast {ι α : Type} [LE ι] (At : ι → α → Prop) (p : α → Prop) : Option α → Prop
  | last {i : ι} {a : α} : At i a → p a → (∀ j b, At j b → p b → j ≤ i) → IsLast At p (some a)
  | absent : (∀ i a, At i a → ¬p a) → IsLast At p none

/-- The last thing with a property is the last one with a property that comes to the same. -/
theorem IsLast.congr {ι α : Type} [LE ι] {At : ι → α → Prop} {p q : α → Prop} {found : Option α}
    (h : IsLast At p found) (hpq : ∀ i a, At i a → (p a ↔ q a)) : IsLast At q found := by
  cases h with
  | absent hnone => exact .absent fun i a ha hq => hnone i a ha ((hpq i a ha).mpr hq)
  | last ha hp hlast =>
      exact .last ha ((hpq _ _ ha).mp hp) fun j b hb hq => hlast j b hb ((hpq j b hb).mpr hq)

/-- There is one last thing with a property, or none, if every place holds one thing only and no
two places come each before the other. -/
theorem IsLast.unique {ι α : Type} [LE ι] {At : ι → α → Prop} {p : α → Prop}
    {found found' : Option α}
    (hat : ∀ i a b, At i a → At i b → a = b) (hanti : ∀ i j : ι, i ≤ j → j ≤ i → i = j)
    (h : IsLast At p found) (h' : IsLast At p found') : found = found' := by
  cases h with
  | absent hnone =>
      cases h' with
      | absent => rfl
      | last ha hp => exact absurd hp (hnone _ _ ha)
  | last ha hp hlast =>
      cases h' with
      | absent hnone => exact absurd hp (hnone _ _ ha)
      | last hb hq hlast' =>
          obtain rfl := hanti _ _ (hlast' _ _ ha hp) (hlast _ _ hb hq)
          rw [hat _ _ _ ha hb]

/-- A search from the end of a list in order finds the last thing with a property. -/
theorem isLast_find? {ι α : Type} [LE ι] {At : ι → α → Prop} {p : α → Prop} [DecidablePred p]
    {entries : List (ι × α)} (hat : ∀ i a, (i, a) ∈ entries ↔ At i a)
    (hsorted : entries.Pairwise fun x y => x.1 ≤ y.1) (hrefl : ∀ i : ι, i ≤ i) :
    IsLast At p ((entries.map Prod.snd).reverse.find? fun a => p a) := by
  rw [← List.map_reverse, List.find?_map]
  cases hfound : entries.reverse.find? ((fun a => decide (p a)) ∘ Prod.snd) with
  | none =>
      refine .absent fun i a ha hp => ?_
      have hmem : (i, a) ∈ entries.reverse := List.mem_reverse.mpr ((hat i a).mpr ha)
      exact List.find?_eq_none.mp hfound _ hmem (decide_eq_true hp)
  | some e =>
      obtain ⟨hp, after, before, hentries, hafter⟩ := List.find?_eq_some_iff_append.mp hfound
      -- In the order of the list: what comes before the entry found, the entry, what follows it.
      have hsplit : entries = before.reverse ++ e :: after.reverse := by
        rw [← List.reverse_reverse entries, hentries]
        simp
      have hmem : (e.1, e.2) ∈ entries := by
        rw [hsplit]
        simp
      refine .last ((hat _ _).mp hmem) (of_decide_eq_true hp) fun j b hb hpb => ?_
      have hb' := (hat j b).mpr hb
      rw [hsplit, List.mem_append, List.mem_cons] at hb'
      rw [hsplit, List.pairwise_append] at hsorted
      obtain ⟨-, -, hbefore⟩ := hsorted
      rcases hb' with hb' | rfl | hb'
      · exact hbefore _ hb' e List.mem_cons_self
      · exact hrefl j
      · have hnot := hafter _ (List.mem_reverse.mp hb')
        simp [hpb] at hnot

namespace Slot

/-- Slots come in the order of their groups, and within a group in that of its members. -/
instance : LE Slot := ⟨fun s t => s.group < t.group ∨ s.group = t.group ∧ s.member ≤ t.member⟩

/-- A slot does not come after itself. -/
theorem le_refl (s : Slot) : s ≤ s := .inr ⟨rfl, Nat.le_refl _⟩

/-- Of two slots, not each comes before the other. -/
theorem le_antisymm (s t : Slot) (h : s ≤ t) (h' : t ≤ s) : s = t := by
  obtain ⟨group, member⟩ := s
  obtain ⟨group', member'⟩ := t
  have h : group < group' ∨ group = group' ∧ member ≤ member' := h
  have h' : group' < group ∨ group' = group ∧ member' ≤ member := h'
  rw [Slot.mk.injEq]
  omega

/-- Numbered things are in the order of their numbers. -/
theorem pairwise_zipIdx {γ : Type} (as : List γ) :
    as.zipIdx.Pairwise fun x y => x.2 < y.2 := by
  have h : (as.zipIdx.map Prod.snd).Pairwise (· < ·) := by
    rw [List.zipIdx_map_snd]
    exact List.pairwise_lt_range'
  exact List.pairwise_map.mp h

/-- The members of groups are listed in the order of their slots. -/
theorem pairwise_enumerate_zipIdx {γ μ α : Type} (members : γ → List μ) (make : γ → μ → α)
    (groups : List γ) :
    (enumerate members make groups.zipIdx).Pairwise fun x y => x.1 ≤ y.1 := by
  rw [enumerate, List.pairwise_flatMap]
  refine ⟨fun g _ => ?_, (pairwise_zipIdx groups).imp fun hlt x hx y hy => ?_⟩
  · exact List.pairwise_map.mpr ((pairwise_zipIdx _).imp fun hlt => .inr ⟨rfl, Nat.le_of_lt hlt⟩)
  · obtain ⟨_, _, rfl⟩ := List.mem_map.mp hx
    obtain ⟨_, _, rfl⟩ := List.mem_map.mp hy
    exact .inl hlt

end Slot

end BodyCache
