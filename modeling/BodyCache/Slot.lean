/-!
# Slots

Members come in groups: the methods of a map in its types, the methods of a container in its
classes. A slot names a member by two numbers, the number of its group and its own number in the
group. A table that leads to members holds their slots instead of copies of them.

## Main statements

* `Slot.mem_enumerate_zipIdx`: what the list of all members with their slots says is what is found
  at the slots.
* `Slot.map_snd_enumerate_zipIdx`: without the slots, it is the list of all members.
* `Slot.bind_at?_find?`: the member at the slot of the last entry of its kind.
-/

namespace BodyCache

/-- The number of a group and the number of a member in it. -/
structure Slot where
  group : Nat
  member : Nat
  deriving DecidableEq, Repr

namespace Slot

/-! ### Entries that say where they belong -/

/-- In a list whose entries say where to look them up, the last entry with a property leads to what
it holds. -/
theorem bind_find?_of_forall {ι α : Type} {entries : List (ι × α)} {at? : ι → Option α}
    (h : ∀ e ∈ entries, at? e.1 = some e.2) (p : α → Bool) :
    ((entries.reverse.find? fun e => p e.2).map Prod.fst).bind at? =
      (entries.map Prod.snd).reverse.find? p := by
  rw [← List.map_reverse, List.find?_map]
  change ((entries.reverse.find? (p ∘ Prod.snd)).map Prod.fst).bind at? = _
  cases hfound : entries.reverse.find? (p ∘ Prod.snd) with
  | none => rfl
  | some e => exact h e (List.mem_reverse.mp (List.mem_of_find?_eq_some hfound))

/-! ### Members of groups -/

variable {γ μ α : Type} (members : γ → List μ) (make : γ → μ → α)

/-- What is at a slot, made of the group and the member. -/
def at? (groups : List γ) (s : Slot) : Option α := do
  let g ← groups[s.group]?
  let x ← (members g)[s.member]?
  return make g x

/-- The members of the group with a number, with their slots. -/
def enumerateOne (g : γ × Nat) : List (Slot × α) :=
  (members g.1).zipIdx.map fun x => (⟨g.2, x.2⟩, make g.1 x.1)

/-- The members of numbered groups with their slots, group by group. -/
def enumerate (groups : List (γ × Nat)) : List (Slot × α) :=
  groups.flatMap (enumerateOne members make)

/-- Something is at a slot when the group and the member are there that it is made of. -/
theorem at?_eq_some_iff {groups : List γ} {s : Slot} {a : α} :
    at? members make groups s = some a ↔
      ∃ g x, groups[s.group]? = some g ∧ (members g)[s.member]? = some x ∧ make g x = a := by
  simp only [at?, Option.bind_eq_bind, Option.bind_eq_some_iff, Option.pure_def, Option.some.injEq]
  constructor
  · rintro ⟨g, hg, x, hx, ha⟩
    exact ⟨g, x, hg, hx, ha⟩
  · rintro ⟨g, x, hg, hx, ha⟩
    exact ⟨g, hg, x, hx, ha⟩

/-- The members that are listed are those that are found at their slots. -/
theorem mem_enumerate_zipIdx {groups : List γ} {s : Slot} {a : α} :
    (s, a) ∈ enumerate members make groups.zipIdx ↔ at? members make groups s = some a := by
  rw [at?_eq_some_iff]
  simp only [enumerate, enumerateOne, List.mem_flatMap, List.mem_map, Prod.mk.injEq]
  constructor
  · rintro ⟨⟨g, i⟩, hg, ⟨x, j⟩, hx, rfl, rfl⟩
    exact ⟨g, x, List.mk_mem_zipIdx_iff_getElem?.mp hg, List.mk_mem_zipIdx_iff_getElem?.mp hx, rfl⟩
  · rintro ⟨g, x, hg, hx, rfl⟩
    exact ⟨(g, s.group), List.mk_mem_zipIdx_iff_getElem?.mpr hg, (x, s.member),
      List.mk_mem_zipIdx_iff_getElem?.mpr hx, rfl, rfl⟩

/-- Without the slots, the members of a group are listed in order. -/
theorem map_snd_enumerateOne (g : γ × Nat) :
    (enumerateOne members make g).map Prod.snd = (members g.1).map (make g.1) := by
  rw [enumerateOne, List.map_map]
  change (members g.1).zipIdx.map (make g.1 ∘ Prod.fst) = _
  rw [← List.map_map, List.zipIdx_map_fst]

/-- Without the slots, the list is that of all members, group by group. -/
theorem map_snd_enumerate_zipIdx (groups : List γ) :
    (enumerate members make groups.zipIdx).map Prod.snd =
      groups.flatMap fun g => (members g).map (make g) := by
  calc (enumerate members make groups.zipIdx).map Prod.snd
      = groups.zipIdx.flatMap fun g => (members g.1).map (make g.1) := by
        simp only [enumerate, List.map_flatMap, map_snd_enumerateOne]
    _ = (groups.zipIdx.map Prod.fst).flatMap fun g => (members g).map (make g) :=
        (List.flatMap_map Prod.fst (fun g => (members g).map (make g)) _).symm
    _ = groups.flatMap fun g => (members g).map (make g) := by rw [List.zipIdx_map_fst]

/-- The last member with a property is looked up where the last entry with it says. -/
theorem bind_at?_find? (groups : List γ) (p : α → Bool) :
    (((enumerate members make groups.zipIdx).reverse.find? fun e => p e.2).map Prod.fst).bind
        (at? members make groups) =
      (groups.flatMap fun g => (members g).map (make g)).reverse.find? p := by
  rw [← map_snd_enumerate_zipIdx]
  exact bind_find?_of_forall (fun _ he => (mem_enumerate_zipIdx members make).mp he) p

end Slot

end BodyCache
